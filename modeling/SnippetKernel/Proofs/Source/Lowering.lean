import SnippetKernel.Proofs.Source.Expressions
import SnippetKernel.Proofs.Source.LeadingLines
import SnippetKernel.Proofs.Source.Operands
import SnippetKernel.Proofs.Source.Placement
import SnippetKernel.Proofs.Source.Renumber

/-! Reading tokens further down. The same is read there, and what is refused is refused further down; only the
errors that come from scanning a placeholder do not know where it stands.

Every rule for statements reads the same further down, where the statements are on lines further down. -/
namespace SnippetKernel.Source

open Source.Parser Grammar

/-- What came of a text, and what comes of it further down: the same, with its lines changed by `image`, unless
it is an error that stays on its line. -/
def Sinks {α β : Type} (d : Nat) (stray : SyntaxError → Prop) (image : α → β) (r : Except SyntaxError α)
    (r' : Except SyntaxError β) : Prop :=
  r' = lowered d image r ∨ ∃ e, stray e ∧ r = .error e ∧ r' = .error e

/-- How far down, which templates may come, and which of their errors stay on their line. -/
structure Lowering where
  d : Nat
  body : String → Prop
  stray : SyntaxError → Prop

def Cursor.below (d : Nat) (c : Cursor) : Cursor :=
  { c with rest := c.rest.map (·.below d), lastLine := c.lastLine + d }

namespace Sinks

variable {α β γ δ : Type} {d : Nat} {stray : SyntaxError → Prop} {image : α → β} {image' : γ → δ}
  {r : Except SyntaxError α} {r' : Except SyntaxError β}

theorem bind {f : α → Except SyntaxError γ} {f' : β → Except SyntaxError δ} (first : Sinks d stray image r r')
    (second : ∀ x, r = .ok x → Sinks d stray image' (f x) (f' (image x))) :
    Sinks d stray image' (r >>= f) (r' >>= f') := by
  obtain rfl | ⟨e, strays, rfl, rfl⟩ := first
  · cases r with
    | ok x => exact second x rfl
    | error e => exact .inl rfl
  · exact .inr ⟨e, strays, rfl, rfl⟩

theorem imp {stray' : SyntaxError → Prop} (weaker : ∀ e, stray e → stray' e)
    (sinks : Sinks d stray image r r') :
    Sinks d stray' image r r' :=
  sinks.imp_right fun ⟨e, strays, same, same'⟩ => ⟨e, weaker e strays, same, same'⟩

end Sinks

/-- The templates that are left may come. -/
def Cursor.Holds (body : String → Prop) (c : Cursor) : Prop :=
  ∀ t ∈ c.rest, ∀ text, t.kind = .template text → body text

section

variable {α β γ δ : Type} {q : Lowering} {image : α → β} {image' : γ → δ} {p : Parser α} {p' : Parser β}
  {f : α → Parser γ} {f' : β → Parser δ} {c : Cursor} {kind : TokenKind}

theorem Cursor.peek_below (d : Nat) (c : Cursor) : (c.below d).peek = c.peek := by
  obtain ⟨rest, lastLine, size⟩ := c
  cases rest <;> rfl

theorem Cursor.peekSecond_below (d : Nat) (c : Cursor) : (c.below d).peekSecond = c.peekSecond := by
  obtain ⟨rest, lastLine, size⟩ := c
  match rest with
  | [] => rfl
  | [_] => rfl
  | _ :: _ :: _ => rfl

theorem Cursor.line_below (d : Nat) (c : Cursor) : (c.below d).line = c.line + d := by
  obtain ⟨rest, lastLine, size⟩ := c
  cases rest <;> rfl

/-- Read at `c`, the one parser does what the other does further down. -/
def LowersHere (q : Lowering) (image : α → β) (p : Parser α) (p' : Parser β) (c : Cursor) : Prop :=
  Sinks q.d q.stray (fun read => (image read.1, read.2.below q.d)) (p c) (p' (c.below q.d)) ∧
    ∀ x r, p c = .ok (x, r) → r.Holds q.body

def Lowers (q : Lowering) (image : α → β) (p : Parser α) (p' : Parser β) : Prop :=
  ∀ c : Cursor, c.Holds q.body → LowersHere q image p p' c

/-- The same where the next token is known. -/
def LowersAt (q : Lowering) (kind : TokenKind) (image : α → β) (p : Parser α) (p' : Parser β) : Prop :=
  ∀ c : Cursor, c.Holds q.body → c.peek = kind → LowersHere q image p p' c

theorem LowersHere.andThen (first : LowersHere q image p p' c)
    (second : ∀ x, Lowers q image' (f x) (f' (image x))) : LowersHere q image' (p >>= f) (p' >>= f') c := by
  obtain ⟨sinks, holds⟩ := first
  refine ⟨sinks.bind fun read here => (second read.1 read.2 (holds _ _ here)).1, fun y r read => ?_⟩
  obtain ⟨x, c', here, there⟩ := bind_ok.1 read
  exact (second x c' (holds x c' here)).2 y r there

theorem LowersHere.done {x : α} {y : β} (holds : c.Holds q.body) (same : image x = y) :
    LowersHere q image (pure x) (pure y) c := by
  subst same
  refine ⟨.inl rfl, fun z r read => ?_⟩
  cases read
  exact holds

/-- What is refused with a line is refused with the line further down. -/
theorem LowersHere.refused {e : SyntaxError} (refused : p c = .error e)
    (refused' : p' (c.below q.d) = .error (e.below q.d)) : LowersHere q image p p' c := by
  refine ⟨.inl (by rw [refused, refused']; rfl), fun x r read => ?_⟩
  rw [refused] at read
  cases read

namespace Lowers

theorem done {x : α} {y : β} (same : image x = y) : Lowers q image (pure x) (pure y) :=
  fun _ holds => .done holds same

theorem fail (message : String) : Lowers q image (Parser.fail message) (Parser.fail message) := by
  intro c _
  refine .refused rfl ?_
  rw [Parser.fail, Cursor.line_below]
  rfl

theorem refuse (message : String) (line : Nat) :
    Lowers q image (throw ⟨message, line⟩) (throw ⟨message, line + q.d⟩) :=
  fun _ _ => .refused rfl rfl

theorem andThen (first : Lowers q image p p') (second : ∀ x, Lowers q image' (f x) (f' (image x))) :
    Lowers q image' (p >>= f) (p' >>= f') :=
  fun c holds => (first c holds).andThen second

/-- The first parser has no lines in what it gives. -/
theorem after {p p' : Parser α} {f : α → Parser γ} {f' : α → Parser δ} (first : Lowers q id p p')
    (second : ∀ x, Lowers q image' (f x) (f' x)) : Lowers q image' (p >>= f) (p' >>= f') :=
  first.andThen second

theorem «at» (lowers : Lowers q image p p') (kind : TokenKind) : LowersAt q kind image p p' :=
  fun c holds _ => lowers c holds

theorem peek {f : TokenKind → Parser γ} {f' : TokenKind → Parser δ}
    (next : ∀ kind, LowersAt q kind image' (f kind) (f' kind)) :
    Lowers q image' (Parser.peek >>= f) (Parser.peek >>= f') := by
  intro c holds
  have here := next c.peek c holds rfl
  have peeked : (Parser.peek >>= f') (c.below q.d) = f' c.peek (c.below q.d) := by
    rw [bind_of_ok (show Parser.peek (c.below q.d) = .ok (_, c.below q.d) from rfl), Cursor.peek_below]
  unfold LowersHere
  rw [peeked]
  exact here

theorem peekSecond {f : TokenKind → Parser γ} {f' : TokenKind → Parser δ}
    (next : ∀ second, LowersAt q kind image' (f second) (f' second)) :
    LowersAt q kind image' (Parser.peekSecond >>= f) (Parser.peekSecond >>= f') := by
  intro c holds found
  have here := next c.peekSecond c holds found
  have peeked : (Parser.peekSecond >>= f') (c.below q.d) = f' c.peekSecond (c.below q.d) := by
    rw [bind_of_ok (show Parser.peekSecond (c.below q.d) = .ok (_, c.below q.d) from rfl), Cursor.peekSecond_below]
  unfold LowersHere
  rw [peeked]
  exact here

theorem line {f : Nat → Parser γ} {f' : Nat → Parser δ}
    (next : ∀ line, Lowers q image' (f line) (f' (line + q.d))) :
    Lowers q image' (Parser.line >>= f) (Parser.line >>= f') := by
  intro c holds
  have here := next c.line c holds
  rw [← Cursor.line_below] at here
  exact here

theorem skip : Lowers q id Parser.skip Parser.skip := by
  intro c holds
  refine ⟨.inl ?_, fun x r read => ?_⟩
  · change Except.ok ((), ({ c.below q.d with rest := (c.below q.d).rest.tail } : Cursor)) = _
    simp only [Cursor.below, ← List.map_tail]
    rfl
  · cases read
    exact fun t mem => holds t (List.mem_of_mem_tail mem)

theorem eat (kind : TokenKind) {f : Bool → Parser γ} {f' : Bool → Parser δ}
    (taken : Lowers q image' (f true) (f' true)) (left : Lowers q image' (f false) (f' false)) :
    Lowers q image' (Parser.eat kind >>= f) (Parser.eat kind >>= f') := by
  rw [eat_bind, eat_bind]
  refine peek fun next => Lowers.at ?_ next
  split
  · exact skip.andThen fun _ => taken
  · exact left

theorem check (kind : TokenKind) {f : Bool → Parser γ} {f' : Bool → Parser δ}
    (next : ∀ found, Lowers q image' (f found) (f' found)) :
    Lowers q image' (Parser.check kind >>= f) (Parser.check kind >>= f') := by
  rw [check_bind, check_bind]
  exact peek fun kind => (next _).at kind

theorem repeatFrom {σ τ : Type} {g : σ → τ} {step : σ → Parser (σ ⊕ α)} {step' : τ → Parser (τ ⊕ β)}
    (steps : ∀ s, Lowers q (Sum.map g image) (step s) (step' (g s))) (s : σ) :
    Lowers q image (Parser.repeatFrom s step) (Parser.repeatFrom (g s) step') := by
  have turns (n : Nat) (s : σ) : Lowers q image (Parser.turns step n s) (Parser.turns step' n (g s)) := by
    induction n generalizing s with
    | zero => exact fail _
    | succ n ih =>
      refine (steps s).andThen fun turn => ?_
      cases turn with
      | inl s => exact ih s
      | inr a => exact done rfl
  exact fun c holds => turns (c.size + 1) s c holds

/-- Every rule of the grammar reads the same further down. -/
theorem likeness (q : Lowering) : Parser.Likeness (fun _ _ p p' => Lowers q id p p')
    (fun kind _ _ p p' => LowersAt q kind id p p') fun line line' => line' = line + q.d where
  done _ := done rfl
  fail := fail
  andThen := andThen
  anywhere lowers := lowers.at
  inside lowers _ := lowers
  peek := peek
  peekSecond _ next := peekSecond next
  line next := line fun line => next line _ rfl
  skip _ _ next := (skip.andThen fun _ => next).at _
  refuse kind message := (skip.andThen fun _ => fail message).at kind
  repeatFrom steps s := by
    refine repeatFrom (g := id) (fun s => ?_) s
    rw [Sum.map_id_id]
    exact steps s

end Lowers

end

/-! ### Statements -/

/-- What one level takes from others is the same further down. -/
abbrev LevelLowers (q : Lowering) (k k' : Level) : Prop :=
  Parser.Likeness.Levels (fun _ _ p p' => Lowers q id p p') (fun kind _ _ p p' => LowersAt q kind id p p')
    (fun line line' => line' = line + q.d) k k'

variable {q : Lowering} {k k' : Level} {p p' : Parser (List Stmt)}

/-- Line numbers of the text further down. -/
abbrev Lowering.line (q : Lowering) : Nat → Nat := (· + q.d)

abbrev LowersBlock (q : Lowering) (p p' : Parser (List Stmt)) : Prop := Lowers q (renumberBlock q.line) p p'

theorem Lowers.of_gives {α : Type} {image : α → α} {p p' : Parser α} (lowers : Lowers q id p p')
    (gives : Gives (fun x => image x = x) p) : Lowers q image p p' := by
  intro c holds
  obtain ⟨sinks, left⟩ := lowers c holds
  refine ⟨sinks.imp_left fun same => ?_, left⟩
  rw [same]
  cases read : p c with
  | error e => rfl
  | ok found => rw [lowered, lowered, gives c found.1 found.2 read, id]

namespace Statement

theorem lowers_located {kind kind' : Parser StmtKind} (lowers : Lowers q (StmtKind.renumber q.line) kind kind') :
    Lowers q (Stmt.renumber q.line) (located kind) (located kind') :=
  .line fun _ => lowers.andThen fun _ => .done rfl

theorem lowers_simple (levels : LevelLowers q k k') (s : Surroundings) :
    Lowers q (StmtKind.renumber q.line) (simple k s) (simple k' s) := by
  have lowers : Lowers q id (simple k s) (simple k' s) := alike_simple (i := 0) levels s
  exact lowers.of_gives fun c kind r read => StmtKind.renumber_of_isSimple (gives_simple c kind r read).1 _

theorem lowers_simples (levels : LevelLowers q k k') (s : Surroundings) :
    LowersBlock q (simples k s) (simples k' s) := by
  unfold simples
  refine .repeatFrom (g := renumberBlock q.line) (fun done => ?_) []
  refine (lowers_located (lowers_simple levels s)).andThen fun stmt => ?_
  have turned := renumberBlock_reverse q.line (stmt :: done)
  refine .eat _ (.peek fun kind => Lowers.at ?_ kind) (.done (congrArg Sum.inr turned))
  split
  · exact .done (congrArg Sum.inr turned)
  · exact .done (congrArg Sum.inr turned)
  · exact .done rfl

theorem lowers_simpleLine (levels : LevelLowers q k k') (s : Surroundings) :
    LowersBlock q (simpleLine k s) (simpleLine k' s) := by
  refine (lowers_simples levels s).andThen fun body => .peek fun kind => Lowers.at ?_ kind
  split
  · exact Lowers.skip.andThen fun _ => .done rfl
  · exact .done rfl
  · exact .done rfl
  · exact .peek fun kind => (Lowers.fail _).at kind

theorem lowers_lineOr (statements : LowersBlock q p p') : LowersBlock q (lineOr p) (lineOr p') :=
  .eat _ (.done rfl) statements

theorem lowers_indented (statements : LowersBlock q p p') : LowersBlock q (indented p) (indented p') := by
  unfold indented
  refine .eat _ (.repeatFrom (g := renumberBlock q.line) (fun done => ?_) []) (.fail _)
  have ended : Lowers q (Sum.map (renumberBlock q.line) (renumberBlock q.line)) (pure (.inr done.reverse))
      (pure (.inr (renumberBlock q.line done).reverse)) :=
    .done (congrArg Sum.inr (renumberBlock_reverse q.line done))
  refine .eat _ ended (.check _ fun eof => ?_)
  split
  · exact ended
  · refine (lowers_lineOr statements).andThen fun more => .done ?_
    exact congrArg Sum.inl (renumberBlock_reverseAux q.line more done)

theorem lowers_block (statements : LowersBlock q p p') : LowersBlock q (block p) (block p') :=
  .after ((Lowers.likeness q).expectSymbol (i := 0) fun _ => rfl) fun _ =>
    .eat _ (lowers_indented statements) statements

theorem lowers_branches (levels : LevelLowers q k k') (blocks : LowersBlock q p p') (first : Expr × List Stmt) :
    Lowers q (StmtKind.renumber q.line) (branches k p first)
      (branches k' p' (first.1, renumberBlock q.line first.2)) := by
  unfold branches
  refine .repeatFrom (g := renumberBranches q.line) (fun done => ?_) [first]
  have turned := renumberBranches_reverse q.line done
  refine .eat _ ?_ (.eat _ ?_ (.done ?_))
  · refine .after (alike_expr (i := 0) levels) fun cond => blocks.andThen fun body => .done rfl
  · refine blocks.andThen fun body => .done ?_
    simp only [Sum.map_inr, StmtKind.renumber, turned]
  · simp only [Sum.map_inr, StmtKind.renumber, turned]
    rfl

theorem lowers_handlers (levels : LevelLowers q k k') (blocks : LowersBlock q p p') :
    Lowers q (renumberHandlers q.line) (handlers k p) (handlers k' p') := by
  unfold handlers
  refine .repeatFrom (g := renumberHandlers q.line) (fun done => ?_) []
  have catches : (renumberHandlers q.line done).head?.any Handler.catchesAll =
      done.head?.any Handler.catchesAll := by
    cases done with
    | nil => rfl
    | cons h rest => cases h; rfl
  have handled : Lowers q (Handler.renumber q.line) (handler k p) (handler k' p') :=
    .after (alike_caught (i := 0) levels) fun caught => blocks.andThen fun body => .done rfl
  refine .eat _ ?_ (.done (congrArg Sum.inr (renumberHandlers_reverse q.line done)))
  simp only [if_true, catches]
  split
  · exact .fail _
  · exact handled.andThen fun h => .done rfl

theorem lowers_partAfter (word : String) (blocks : LowersBlock q p p') :
    LowersBlock q (partAfter word p) (partAfter word p') := .eat _ blocks (.done rfl)

theorem lowers_attempt (levels : LevelLowers q k k') (blocks : LowersBlock q p p') :
    Lowers q (StmtKind.renumber q.line) (attempt k p) (attempt k' p') := by
  refine blocks.andThen fun body => (lowers_handlers levels blocks).andThen fun handlers => ?_
  have none : (renumberHandlers q.line handlers).isEmpty = handlers.isEmpty := by cases handlers <;> rfl
  have orelse : LowersBlock q (elsePart handlers p) (elsePart (renumberHandlers q.line handlers) p') := by
    unfold elsePart
    rw [none]
    split
    · exact .done rfl
    · exact lowers_partAfter _ blocks
  refine orelse.andThen fun orelse => (lowers_partAfter _ blocks).andThen fun final => ?_
  have without : (renumberBlock q.line final).isEmpty = final.isEmpty := by cases final <;> rfl
  rw [none, without]
  split
  · exact .fail _
  · exact .done rfl

theorem lowers_compound (levels : LevelLowers q k k') {inner inner' : Surroundings → Parser (List Stmt)}
    (inners : ∀ s, LowersBlock q (inner s) (inner' s)) (s : Surroundings) (word : String) :
    Option.Rel (Lowers q (StmtKind.renumber q.line)) (compound? k inner s word) (compound? k' inner' s word) := by
  have blocks (s : Surroundings) := lowers_block (inners s)
  unfold compound?
  split
  · refine .some (.after (alike_expr (i := 0) levels) fun cond => ?_)
    exact (blocks s).andThen fun body => lowers_branches levels (blocks s) (cond, body)
  · refine .some (.after (alike_expr (i := 0) levels) fun cond => ?_)
    exact (blocks _).andThen fun body => .done rfl
  · refine .some (.after (alike_targetList (i := 0) levels) fun target => ?_)
    refine .after (levels.expectWord (i := 0) _) fun _ => ?_
    refine .after (alike_exprList (i := 0) levels) fun source => ?_
    exact (blocks _).andThen fun body => .done rfl
  · refine .some (.after (alike_signature (i := 0) levels) fun named => ?_)
    exact (blocks _).andThen fun body => .done rfl
  · exact .some (lowers_attempt levels (blocks s))
  · exact .none

theorem lowers_oneOf (levels : LevelLowers q k k') {inner inner' : Surroundings → Parser (List Stmt)}
    (inners : ∀ s, LowersBlock q (inner s) (inner' s)) (s : Surroundings) :
    LowersBlock q (oneOf k inner s) (oneOf k' inner' s) := by
  refine .peek fun kind => Lowers.at ?_ kind
  split
  · next word =>
    have compound := lowers_compound levels inners s word
    generalize compound? k inner s word = first, compound? k' inner' s word = second at compound ⊢
    cases compound with
    | some kind => exact (lowers_located (Lowers.skip.after fun _ => kind)).andThen fun stmt => .done rfl
    | none =>
      dsimp only
      split
      · exact .fail _
      · exact lowers_simpleLine levels s
  · exact lowers_simpleLine levels s

theorem lowers_read (levels : LevelLowers q k k') (depth : Nat) (s : Surroundings) :
    LowersBlock q (read k depth s) (read k' depth s) := by
  induction depth generalizing s with
  | zero => exact .fail _
  | succ depth ih => exact lowers_oneOf levels ih s

end Statement

end SnippetKernel.Source
