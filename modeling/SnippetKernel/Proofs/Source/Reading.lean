import SnippetKernel.Proofs.Source.Soundness
import SnippetKernel.Source.Grammar

/-! Two parsers that are alike in some way. If each smallest piece is like itself, and what is put together from
pieces that are alike is alike, then so are the rules of the grammar.

Reading inside a line. What a parser makes of an expression depends only on the kinds of the tokens up to
the end of the line, and it stops before that end with as many brackets open as before. Two parsers are
compared because the same rules are read with different bounds on how deep and how far they may go; the
greater bound gives whatever the smaller one gave. -/
namespace SnippetKernel.Source

/-- The tokens that tell lines and blocks apart. -/
def TokenKind.isLayout : TokenKind → Bool
  | .newline | .indent | .dedent | .eof => true
  | _ => false

/-- A token after which `j` brackets are open where `i` were. -/
def TokenKind.Moves (kind : TokenKind) (i j : Nat) : Prop := ∀ depth, kind.depth (depth + i) = depth + j

open Source.Parser

theorem eat_bind {β : Type} (kind : TokenKind) (f : Bool → Parser β) :
    (Parser.eat kind >>= f) =
      (Parser.peek >>= fun next =>
        if next = kind then Parser.skip >>= fun _ => f true else f false) := by
  unfold Parser.eat
  rw [bind_assoc]
  refine congrArg (Parser.peek >>= ·) (funext fun next => ?_)
  split
  · rw [bind_assoc]
    rfl
  · rfl

theorem check_bind {β : Type} (kind : TokenKind) (f : Bool → Parser β) :
    (Parser.check kind >>= f) = (Parser.peek >>= fun next => f (decide (next = kind))) := by
  unfold Parser.check
  rw [bind_assoc]
  rfl

variable {Q : ∀ {α : Type}, Nat → Nat → Parser α → Parser α → Prop}
  {At : ∀ {α : Type}, TokenKind → Nat → Nat → Parser α → Parser α → Prop} {Lines : Nat → Nat → Prop}

/-- What is put together from parsers that are alike is alike. `Q i j` is about parsers that leave `j` brackets
open where `i` were, `At` is about those that read a token of a known kind next, and `Lines` is about the lines
that both are on. -/
structure Parser.Likeness (Q : ∀ {α : Type}, Nat → Nat → Parser α → Parser α → Prop)
    (At : ∀ {α : Type}, TokenKind → Nat → Nat → Parser α → Parser α → Prop) (Lines : Nat → Nat → Prop) :
    Prop where
  done {α : Type} {i : Nat} (x : α) : Q i i (pure x) (pure x)
  fail {α : Type} {i j : Nat} (message : String) : Q i j (Parser.fail message : Parser α) (Parser.fail message)
  andThen {α β : Type} {i j k : Nat} {p p' : Parser α} {f f' : α → Parser β} :
    Q i j p p' → (∀ x, Q j k (f x) (f' x)) → Q i k (p >>= f) (p' >>= f')
  anywhere {α : Type} {i j : Nat} {p p' : Parser α} : Q i j p p' → ∀ kind, At kind i j p p'
  /-- Brackets around do not matter. -/
  inside {α : Type} {i j : Nat} {p p' : Parser α} : Q i j p p' → ∀ more, Q (i + more) (j + more) p p'
  peek {α : Type} {i j : Nat} {f f' : TokenKind → Parser α} :
    (∀ kind, At kind i j (f kind) (f' kind)) → Q i j (Parser.peek >>= f) (Parser.peek >>= f')
  peekSecond {α : Type} {i j : Nat} {kind : TokenKind} {f f' : TokenKind → Parser α} :
    kind.isLayout = false → (∀ second, At kind i j (f second) (f' second)) →
      At kind i j (Parser.peekSecond >>= f) (Parser.peekSecond >>= f')
  line {α : Type} {i j : Nat} {f f' : Nat → Parser α} :
    (∀ line line', Lines line line' → Q i j (f line) (f' line')) →
      Q i j (Parser.line >>= f) (Parser.line >>= f')
  skip {α : Type} {i j k : Nat} {kind : TokenKind} {f f' : Unit → Parser α} :
    kind.isLayout = false → kind.Moves i j → Q j k (f ()) (f' ()) →
      At kind i k (Parser.skip >>= f) (Parser.skip >>= f')
  /-- Whatever token comes, it is skipped and then refused. -/
  refuse {α : Type} {i j : Nat} (kind : TokenKind) (message : String) :
    At kind i j (do Parser.skip; Parser.fail message : Parser α) (do Parser.skip; Parser.fail message)
  repeatFrom {σ α : Type} {i : Nat} {step step' : σ → Parser (σ ⊕ α)} :
    (∀ s, Q i i (step s) (step' s)) → ∀ s, Q i i (Parser.repeatFrom s step) (Parser.repeatFrom s step')

namespace Parser.Likeness

variable (like : Parser.Likeness Q At Lines) {α : Type} {i j k : Nat} {kind : TokenKind}

include like

theorem eat (word : kind.isLayout = false) (moves : kind.Moves i j) {f f' : Bool → Parser α}
    (taken : Q j k (f true) (f' true)) (left : Q i k (f false) (f' false)) :
    Q i k (Parser.eat kind >>= f) (Parser.eat kind >>= f') := by
  rw [eat_bind, eat_bind]
  refine like.peek fun next => ?_
  by_cases same : next = kind
  · subst same
    simp only [if_true]
    exact like.skip word moves taken
  · simp only [if_neg same]
    exact like.anywhere left next

theorem check (kind : TokenKind) {f f' : Bool → Parser α} (next : ∀ found, Q i j (f found) (f' found)) :
    Q i j (Parser.check kind >>= f) (Parser.check kind >>= f') := by
  rw [check_bind, check_bind]
  exact like.peek fun kind => like.anywhere (next _) kind

theorem checked (kind : TokenKind) : Q i i (Parser.check kind) (Parser.check kind) :=
  like.peek fun kind => like.anywhere (like.done _) kind

theorem expect (word : kind.isLayout = false) (moves : kind.Moves i j) (message : String) :
    Q i j (do unless ← Parser.eat kind do Parser.fail message)
      (do unless ← Parser.eat kind do Parser.fail message) :=
  like.eat word moves (like.done ()) (like.fail message)

theorem expectSymbol {s : Symbol} (moves : (TokenKind.symbol s).Moves i j) :
    Q i j (Parser.expectSymbol s) (Parser.expectSymbol s) := like.expect rfl moves _

theorem expectWord (word : String) : Q i i (Parser.expectWord word) (Parser.expectWord word) :=
  like.expect rfl (fun _ => rfl) _

theorem unexpected : Q i j (Parser.unexpected : Parser α) Parser.unexpected :=
  like.peek fun kind => like.anywhere (like.fail _) kind

theorem expectName : Q i i Parser.expectName Parser.expectName := by
  unfold Parser.expectName
  refine like.peek fun kind => ?_
  split
  · split
    · exact like.anywhere like.unexpected _
    · exact like.skip rfl (fun _ => rfl) (like.done _)
  · exact like.anywhere like.unexpected _

end Parser.Likeness

end SnippetKernel.Source

/-! ### Reading inside a line -/

namespace SnippetKernel.Source

/-- The kinds of the tokens up to the end of the line, and of the token that ends it. -/
def lineKinds : List Token → List TokenKind
  | [] => [.eof]
  | t :: rest => if t.kind.isLayout then [t.kind] else t.kind :: lineKinds rest

theorem length_lineKinds_pos (ts : List Token) : 0 < (lineKinds ts).length := by
  unfold lineKinds
  split
  · exact Nat.one_pos
  · split <;> exact Nat.succ_pos _

def Cursor.drop (n : Nat) (c : Cursor) : Cursor := { c with rest := c.rest.drop n }

/-- The rest of the line is the same, and there is at least as much room for it. -/
structure Alike (c c' : Cursor) : Prop where
  room : c.size ≤ c'.size
  line : lineKinds c.rest = lineKinds c'.rest

theorem lineKinds_drop {n : Nat} {ts : List Token} (inside : n < (lineKinds ts).length) :
    lineKinds (ts.drop n) = (lineKinds ts).drop n := by
  induction ts generalizing n with
  | nil =>
    obtain rfl : n = 0 := Nat.lt_one_iff.1 inside
    rfl
  | cons t ts ih =>
    cases n with
    | zero => rfl
    | succ n =>
      by_cases layout : t.kind.isLayout = true
      · rw [lineKinds, if_pos layout] at inside
        simp at inside
      · rw [lineKinds, if_neg layout] at inside
        rw [lineKinds, if_neg layout]
        exact ih (Nat.lt_of_succ_lt_succ inside)

theorem Alike.drop {c c' : Cursor} (alike : Alike c c') {n : Nat}
    (inside : n < (lineKinds c.rest).length) : Alike (c.drop n) (c'.drop n) := by
  refine ⟨alike.room, ?_⟩
  have inside' := inside
  rw [alike.line] at inside'
  exact (lineKinds_drop inside).trans ((congrArg _ alike.line).trans (lineKinds_drop inside').symm)

theorem Cursor.head_lineKinds (c : Cursor) : (lineKinds c.rest).head? = some c.peek := by
  unfold Cursor.peek
  cases c.rest with
  | nil => rfl
  | cons t rest =>
    unfold lineKinds
    split <;> rfl

theorem Alike.peek {c c' : Cursor} (alike : Alike c c') : c'.peek = c.peek := by
  have heads := c'.head_lineKinds
  rw [← alike.line, c.head_lineKinds] at heads
  exact (Option.some.inj heads).symm

theorem Alike.peekSecond {c c' : Cursor} (alike : Alike c c') (word : c.peek.isLayout = false) :
    c'.peekSecond = c.peekSecond := by
  have second {c : Cursor} (word : c.peek.isLayout = false) :
      (lineKinds c.rest)[1]? = some c.peekSecond := by
    unfold Cursor.peek at word
    unfold Cursor.peekSecond
    cases rest : c.rest with
    | nil =>
      rw [rest] at word
      cases word
    | cons t ts =>
      rw [rest] at word
      have stays : ¬t.kind.isLayout = true := Bool.not_eq_true _ ▸ word
      rw [lineKinds, if_neg stays, List.getElem?_cons_succ, ← List.head?_eq_getElem?]
      cases ts with
      | nil => rfl
      | cons u ts =>
        unfold lineKinds
        split <;> rfl
  have seconds := second (alike.peek ▸ word)
  rw [← alike.line, second word] at seconds
  exact (Option.some.inj seconds).symm

theorem Cursor.drop_drop (c : Cursor) (n m : Nat) : (c.drop n).drop m = c.drop (n + m) := by
  simp only [Cursor.drop, List.drop_drop]

/-- Read at `c`, the parser stays in the line, leaves `j` brackets open where `i` were, and gives what the
other parser gives at `c'`. -/
def Follows {α : Type} (i j : Nat) (p p' : Parser α) (c c' : Cursor) : Prop :=
  ∀ x r, p c = .ok (x, r) → ∃ n, n < (lineKinds c.rest).length ∧ r = c.drop n ∧
    p' c' = .ok (x, c'.drop n) ∧
    ∀ depth, depthAfter (depth + i) ((lineKinds c.rest).take n) = depth + j

def Reads {α : Type} (i j : Nat) (p p' : Parser α) : Prop := ∀ c c', Alike c c' → Follows i j p p' c c'

/-- The same where the next token is known. -/
def ReadsAt {α : Type} (kind : TokenKind) (i j : Nat) (p p' : Parser α) : Prop :=
  ∀ c c', Alike c c' → c.peek = kind → Follows i j p p' c c'

namespace Parser

variable {α β : Type}

theorem bind_ok {p : Parser α} {f : α → Parser β} {c r : Cursor} {y : β} :
    (p >>= f) c = .ok (y, r) ↔ ∃ x c', p c = .ok (x, c') ∧ f x c' = .ok (y, r) := by
  change (p c >>= fun read => f read.1 read.2) = _ ↔ _
  cases h : p c with
  | error e => simp [bind, Except.bind]
  | ok read =>
    obtain ⟨x, c'⟩ := read
    constructor
    · exact fun next => ⟨x, c', rfl, next⟩
    · rintro ⟨_, _, same, next⟩
      cases same
      exact next

theorem pure_ok {x y : α} {c r : Cursor} : (pure x : Parser α) c = .ok (y, r) ↔ x = y ∧ c = r := by
  change Except.ok (x, c) = _ ↔ _
  simp

end Parser

open Source.Parser

section

variable {α β : Type} {i j k : Nat}

theorem Follows.stop (c c' : Cursor) {x : α} {p p' : Parser α} (first : p c = .ok (x, c))
    (second : p' c' = .ok (x, c')) : Follows i i p p' c c' := by
  intro y r h
  rw [first] at h
  cases h
  exact ⟨0, length_lineKinds_pos _, rfl, second, fun _ => rfl⟩

theorem Follows.andThen {p p' : Parser α} {f f' : α → Parser β} {c c' : Cursor} (alike : Alike c c')
    (first : Follows i j p p' c c') (second : ∀ x, Reads j k (f x) (f' x)) :
    Follows i k (p >>= f) (p' >>= f') c c' := by
  intro y r h
  obtain ⟨x, r₁, read, rest⟩ := bind_ok.1 h
  obtain ⟨n, inside, rfl, read', moves⟩ := first x r₁ read
  obtain ⟨m, inside', rfl, rest', moves'⟩ := second x _ _ (alike.drop inside) y r rest
  have dropped := lineKinds_drop inside
  have counted : (lineKinds (c.drop n).rest).length = (lineKinds c.rest).length - n :=
    (congrArg List.length dropped).trans List.length_drop
  refine ⟨n + m, by omega, (c.drop_drop n m), ?_, fun depth => ?_⟩
  · exact bind_ok.2 ⟨x, _, read', by rw [rest', Cursor.drop_drop]⟩
  · have behind := moves' depth
    rw [show lineKinds (c.drop n).rest = (lineKinds c.rest).drop n from dropped] at behind
    rw [List.take_add, depthAfter_append, moves, behind]

theorem Reads.done (x : α) : Reads i i (pure x) (pure x) :=
  fun c c' _ => .stop c c' rfl rfl

theorem Reads.fail (message : String) (p : Parser α) : Reads i j (Parser.fail message) p :=
  fun _ _ _ _ _ h => nomatch h

theorem Reads.andThen {p p' : Parser α} {f f' : α → Parser β} (first : Reads i j p p')
    (second : ∀ x, Reads j k (f x) (f' x)) : Reads i k (p >>= f) (p' >>= f') :=
  fun c c' alike => .andThen alike (first c c' alike) second

theorem Reads.at {p p' : Parser α} (reads : Reads i j p p') (kind : TokenKind) : ReadsAt kind i j p p' :=
  fun c c' alike _ => reads c c' alike

/-- Brackets around do not matter. -/
theorem Reads.inside {p p' : Parser α} (reads : Reads i j p p') (more : Nat) :
    Reads (i + more) (j + more) p p' := by
  intro c c' alike x r h
  obtain ⟨n, inside, rest, read, moves⟩ := reads c c' alike x r h
  refine ⟨n, inside, rest, read, fun depth => ?_⟩
  rw [Nat.add_comm i, Nat.add_comm j, ← Nat.add_assoc, ← Nat.add_assoc]
  exact moves (depth + more)

theorem Reads.peek {f f' : TokenKind → Parser β} (next : ∀ kind, ReadsAt kind i j (f kind) (f' kind)) :
    Reads i j (Parser.peek >>= f) (Parser.peek >>= f') := by
  intro c c' alike
  have follows := next c.peek c c' alike rfl
  intro x r h
  obtain ⟨n, inside, rest, read, moves⟩ := follows x r h
  refine ⟨n, inside, rest, ?_, moves⟩
  change f' c'.peek c' = _
  rw [alike.peek]
  exact read

theorem Reads.line {f f' : Nat → Parser β} (next : ∀ line line', Reads i j (f line) (f' line')) :
    Reads i j (Parser.line >>= f) (Parser.line >>= f') :=
  fun c c' alike => next c.line c'.line c c' alike

theorem ReadsAt.skip {kind : TokenKind} (word : kind.isLayout = false) (moves : kind.Moves i j)
    {f f' : Unit → Parser β} (next : Reads j k (f ()) (f' ())) :
    ReadsAt kind i k (Parser.skip >>= f) (Parser.skip >>= f') := by
  intro c c' alike found
  have takes {c : Cursor} (found : c.peek = kind) :
      ∃ rest, lineKinds c.rest = kind :: lineKinds rest := by
    unfold Cursor.peek at found
    split at found
    · next t rest same =>
      refine ⟨rest, ?_⟩
      rw [same, lineKinds, found, word]
      rfl
    · rw [← found] at word
      cases word
  obtain ⟨rest, line⟩ := takes found
  suffices skips : Follows i j Parser.skip Parser.skip c c' from .andThen alike skips fun _ => next
  intro x r h
  cases h
  refine ⟨1, ?_, ?_, ?_, fun depth => ?_⟩
  · rw [line, List.length_cons, Nat.lt_add_left_iff_pos]
    exact length_lineKinds_pos rest
  · simp only [Cursor.drop, List.drop_one]
  · change Except.ok ((), ({ c' with rest := c'.rest.tail } : Cursor)) = _
    simp only [Cursor.drop, List.drop_one]
  · rw [line]
    exact moves depth

theorem ReadsAt.peekSecond {kind : TokenKind} (word : kind.isLayout = false)
    {f f' : TokenKind → Parser β} (next : ∀ second, ReadsAt kind i j (f second) (f' second)) :
    ReadsAt kind i j (Parser.peekSecond >>= f) (Parser.peekSecond >>= f') := by
  intro c c' alike found
  have follows := next c.peekSecond c c' alike found
  intro x r h
  obtain ⟨n, inside, rest, read, moves⟩ := follows x r h
  refine ⟨n, inside, rest, ?_, moves⟩
  change f' c'.peekSecond c' = _
  rw [alike.peekSecond (found ▸ word)]
  exact read

theorem Reads.turns {σ : Type} {step step' : σ → Parser (σ ⊕ α)}
    (steps : ∀ s, Reads i i (step s) (step' s)) {n n' : Nat} (room : n ≤ n') (s : σ) :
    Reads i i (Parser.turns step n s) (Parser.turns step' n' s) := by
  induction n generalizing n' s with
  | zero => exact .fail _ _
  | succ n ih =>
    obtain ⟨n', rfl⟩ := Nat.exists_eq_add_of_le' room
    refine (steps s).andThen fun turn => ?_
    cases turn with
    | inl s => exact ih (Nat.le_of_succ_le_succ room) s
    | inr a => exact .done a

theorem Reads.repeatFrom {σ : Type} {step step' : σ → Parser (σ ⊕ α)}
    (steps : ∀ s, Reads i i (step s) (step' s)) (s : σ) :
    Reads i i (Parser.repeatFrom s step) (Parser.repeatFrom s step') :=
  fun c c' alike => Reads.turns steps (Nat.succ_le_succ alike.room) s c c' alike

/-- Every rule of the grammar stays in its line and closes the brackets that it opens. -/
theorem Reads.likeness : Parser.Likeness Reads ReadsAt fun _ _ => True where
  done := .done
  fail message := .fail message _
  andThen := .andThen
  anywhere reads := reads.at
  inside reads := reads.inside
  peek := .peek
  peekSecond word next := .peekSecond word next
  line next := .line fun line line' => next line line' trivial
  skip word moves next := .skip word moves next
  refuse _ _ := fun _ _ _ _ _ _ h => nomatch h
  repeatFrom := .repeatFrom

end

end SnippetKernel.Source
