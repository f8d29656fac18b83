import SnippetKernel.Proofs.Source.Bodies
import SnippetKernel.Proofs.Source.Expressions

/-! Rules that take tokens. A rule of the grammar takes a token before it enters the grammar again and before it
repeats, or it refuses the text at a line. So a bound on the turns of a reader is never reached where it allows as many
turns as there are tokens. -/
namespace SnippetKernel.Source

open Source.Parser Grammar Text

/-- The token that ends a text. -/
def TokenKind.isEof : TokenKind → Bool
  | .eof => true
  | _ => false

/-- The text was refused at a line, and not because a reader had too few turns. -/
structure SyntaxError.Reported (e : SyntaxError) : Prop where
  message : e.message ≠ outOfTurns
  line : 0 < e.line

/-- Whatever is refused is refused at a line. -/
def Reports {α : Type} (result : Except SyntaxError α) : Prop := ∀ e, result = .error e → e.Reported

namespace Reports

variable {α β : Type} {result : Except SyntaxError α}

theorem done (x : α) : Reports (.ok x) := nofun

theorem refused {e : SyntaxError} (reported : e.Reported) : Reports (.error e : Except SyntaxError α) := by
  intro e' same
  cases same
  exact reported

theorem andThen {f : α → Except SyntaxError β} (first : Reports result) (second : ∀ x, result = .ok x → Reports (f x)) :
    Reports (result >>= f) := by
  cases result with
  | ok x => exact second x rfl
  | error e => exact .refused (first e rfl)

end Reports

/-- There are as many turns as tokens, every token is on a line, and every template is shorter than `depth`. -/
structure Cursor.Bounded (depth : Nat) (c : Cursor) : Prop where
  room : c.rest.length ≤ c.size
  lines : ∀ t ∈ c.rest, 0 < t.line
  last : 0 < c.lastLine
  short : ∀ t ∈ c.rest, t.kind.Short depth

theorem ne_outOfTurns {message : String} (named : (message == outOfTurns) = false) : message ≠ outOfTurns :=
  ne_of_beq_false named

theorem named_append {first : String} (named : (first == outOfTurns) = false) (rest : String) :
    (first ++ rest == outOfTurns) = false :=
  beq_false_of_ne fun none => ne_outOfTurns named (String.append_eq_empty_iff.1 none).1

namespace Cursor.Bounded

variable {depth : Nat} {c : Cursor}

theorem drop (bounded : c.Bounded depth) (n : Nat) : (c.drop n).Bounded depth where
  room := by
    have shorter : (c.drop n).rest.length = c.rest.length - n := List.length_drop
    exact shorter ▸ Nat.le_trans (Nat.sub_le _ _) bounded.room
  lines t mem := bounded.lines t (List.mem_of_mem_drop mem)
  last := bounded.last
  short t mem := bounded.short t (List.mem_of_mem_drop mem)

theorem line (bounded : c.Bounded depth) : 0 < c.line := by
  unfold Cursor.line
  split
  · next t rest begins => exact bounded.lines t (begins ▸ List.mem_cons_self)
  · exact bounded.last

theorem reported (bounded : c.Bounded depth) {message : String} (named : (message == outOfTurns) = false) :
    SyntaxError.Reported ⟨message, c.line⟩ := ⟨ne_outOfTurns named, bounded.line⟩

theorem peek_short (bounded : c.Bounded depth) : c.peek.Short depth := by
  unfold Cursor.peek
  split
  · next t rest begins => exact bounded.short t (begins ▸ List.mem_cons_self)
  · trivial

end Cursor.Bounded

/-! ### Parsers that advance -/

section

variable {α β σ : Type}

/-- Read at the cursor, the parser gives something and has taken tokens from the front, one at least if one is due for
what it gives, or it refuses the text. -/
def AdvancesHere (due : α → Prop) (p : Parser α) (c : Cursor) : Prop :=
  (∃ x n, p c = .ok (x, c.drop n) ∧ n ≤ c.rest.length ∧ (due x → 0 < n)) ∨ ∃ e, p c = .error e ∧ e.Reported

/-- The same wherever fewer than `room` tokens are left. -/
def Advances (depth room : Nat) (due : α → Prop) (p : Parser α) : Prop :=
  ∀ c : Cursor, c.Bounded depth → c.rest.length < room → AdvancesHere due p c

/-- The same where the next token is known. -/
def AdvancesAt (kind : TokenKind) (depth room : Nat) (due : α → Prop) (p : Parser α) : Prop :=
  ∀ c : Cursor, c.Bounded depth → c.rest.length < room → c.peek = kind → AdvancesHere due p c

/-- The parser gives something or refuses the text. -/
abbrev Settles (depth room : Nat) (p : Parser α) : Prop := Advances depth room (fun _ => False) p

/-- What the parser gives took a token. -/
abbrev Takes (depth room : Nat) (p : Parser α) : Prop := Advances depth room (fun _ => True) p

/-- Tokens are due for another turn, and for what is given at last where `due` says so. -/
abbrev AtTurn (due : α → Prop) : σ ⊕ α → Prop := Sum.elim (fun _ => True) due

variable {depth room : Nat} {due : α → Prop} {due' : β → Prop} {kind : TokenKind} {c : Cursor} {p : Parser α}
  {f : α → Parser β}

theorem AdvancesHere.imp {weaker : α → Prop} (advances : AdvancesHere due p c) (imp : ∀ x, weaker x → due x) :
    AdvancesHere weaker p c :=
  advances.imp_left fun ⟨x, n, found, inside, taken⟩ => ⟨x, n, found, inside, fun is_due => taken (imp x is_due)⟩

theorem AdvancesHere.done {x : α} (free : ¬due x) : AdvancesHere due (pure x) c :=
  .inl ⟨x, 0, rfl, Nat.zero_le _, fun is_due => absurd is_due free⟩

theorem AdvancesHere.andThen (bounded : c.Bounded depth) (few : c.rest.length < room) (first : AdvancesHere due p c)
    (taken : ∀ x, due x → Settles depth (room - 1) (f x)) (left : ∀ x, ¬due x → Advances depth room due' (f x)) :
    AdvancesHere due' (p >>= f) c := by
  have bound : (p >>= f) c = (p c >>= fun found => f found.1 found.2) := rfl
  unfold AdvancesHere
  rw [bound]
  obtain ⟨x, n, first, inside, some⟩ | ⟨e, refused, reported⟩ := first
  · have counted : (c.drop n).rest.length = c.rest.length - n := List.length_drop
    have second : AdvancesHere (fun y => due' y ∧ ¬due x) (f x) (c.drop n) := by
      by_cases is_due : due x
      · have few' : (c.drop n).rest.length < room - 1 := by have := some is_due; omega
        exact (taken x is_due _ (bounded.drop n) few').imp fun y both => both.2 is_due
      · exact (left x is_due _ (bounded.drop n) (by omega)).imp fun y both => both.1
    rw [first]
    refine second.imp_left fun ⟨y, m, second, inside', some'⟩ => ⟨y, n + m, ?_, by omega, fun is_due => ?_⟩
    · rw [← Cursor.drop_drop]
      exact second
    · by_cases due_x : due x
      · exact Nat.add_pos_left (some due_x) m
      · exact Nat.add_pos_right n (some' ⟨is_due, due_x⟩)
  · rw [refused]
    exact .inr ⟨e, rfl, reported⟩

namespace Advances

theorem imp {weaker : α → Prop} (advances : Advances depth room due p) (imp : ∀ x, weaker x → due x) :
    Advances depth room weaker p := fun c bounded few => (advances c bounded few).imp imp

theorem settles (advances : Advances depth room due p) : Settles depth room p := advances.imp nofun

theorem fewer {less : Nat} (advances : Advances depth room due p) (le : less ≤ room) : Advances depth less due p :=
  fun c bounded few => advances c bounded (Nat.lt_of_lt_of_le few le)

theorem less (advances : Advances depth room due p) : Advances depth (room - 1) due p :=
  advances.fewer (Nat.sub_le room 1)

theorem nowhere : Advances depth 0 due p := fun _ _ none => absurd none (Nat.not_lt_zero _)

theorem «at» (advances : Advances depth room due p) (kind : TokenKind) : AdvancesAt kind depth room due p :=
  fun c bounded few _ => advances c bounded few

theorem done {x : α} (free : ¬due x) : Advances depth room due (pure x) := fun _ _ _ => .done free

theorem fail {message : String} (named : (message == outOfTurns) = false) :
    Advances depth room due (Parser.fail message) :=
  fun _ bounded _ => .inr ⟨_, rfl, bounded.reported named⟩

theorem refuse {e : SyntaxError} (reported : e.Reported) : Advances depth room due (throw e) :=
  fun _ _ _ => .inr ⟨e, rfl, reported⟩

theorem andThen (first : Advances depth room due p) (taken : ∀ x, due x → Settles depth (room - 1) (f x))
    (left : ∀ x, ¬due x → Advances depth room due' (f x)) : Advances depth room due' (p >>= f) :=
  fun c bounded few => (first c bounded few).andThen bounded few taken left

/-- The first part takes a token, so there are fewer for the rest. -/
theorem begins (first : Takes depth room p) (rest : ∀ x, Settles depth (room - 1) (f x)) :
    Advances depth room due' (p >>= f) :=
  first.andThen (fun x _ => rest x) fun _ free => absurd trivial free

theorem after (first : Advances depth room due p) (rest : ∀ x, Settles depth room (f x)) :
    Settles depth room (p >>= f) :=
  first.andThen (fun x _ => (rest x).less) fun x _ => rest x

theorem ends (first : Settles depth room p) (rest : ∀ x, Advances depth room due' (f x)) :
    Advances depth room due' (p >>= f) :=
  first.andThen (fun _ none => none.elim) fun x _ => rest x

theorem peek {f : TokenKind → Parser α} (next : ∀ kind, AdvancesAt kind depth room due (f kind)) :
    Advances depth room due (Parser.peek >>= f) :=
  fun c bounded few => next c.peek c bounded few rfl

theorem line {f : Nat → Parser α} (next : ∀ line, 0 < line → Advances depth room due (f line)) :
    Advances depth room due (Parser.line >>= f) :=
  fun c bounded few => next c.line bounded.line c bounded few

end Advances

namespace AdvancesAt

theorem peekSecond {f : TokenKind → Parser α} (next : ∀ second, AdvancesAt kind depth room due (f second)) :
    AdvancesAt kind depth room due (Parser.peekSecond >>= f) :=
  fun c bounded few found => next c.peekSecond c bounded few found

theorem peek {f : TokenKind → Parser α} (next : AdvancesAt kind depth room due (f kind)) :
    AdvancesAt kind depth room due (Parser.peek >>= f) := by
  intro c bounded few found
  change AdvancesHere due (f c.peek) c
  rw [found]
  exact next c bounded few found

theorem skip (inside : kind.isEof = false) {f : Unit → Parser α} (next : Settles depth (room - 1) (f ())) :
    AdvancesAt kind depth room due (Parser.skip >>= f) := by
  intro c bounded few found
  have some : 0 < c.rest.length := by
    unfold Cursor.peek at found
    split at found
    · next t rest begins =>
      rw [begins]
      exact Nat.succ_pos _
    · rw [← found] at inside
      cases inside
  have skips : AdvancesHere (fun _ => True) Parser.skip c := by
    refine .inl ⟨(), 1, ?_, some, fun _ => Nat.one_pos⟩
    change Except.ok ((), ({ c with rest := c.rest.tail } : Cursor)) = _
    rw [Cursor.drop, List.drop_one]
  exact skips.andThen bounded few (fun _ _ => next) fun _ free => absurd trivial free

/-- Whatever token comes, it is skipped and then refused. -/
theorem refuse {message : String} (named : (message == outOfTurns) = false) :
    AdvancesAt kind depth room due (do Parser.skip; Parser.fail message) := by
  intro c bounded few found
  have reported := (bounded.drop 1).reported named
  rw [Cursor.drop, List.drop_one] at reported
  exact .inr ⟨_, rfl, reported⟩

/-- What a template token holds is short. -/
theorem short (next : kind.Short depth → AdvancesAt kind depth room due p) : AdvancesAt kind depth room due p :=
  fun c bounded few found => next (found ▸ bounded.peek_short) c bounded few found

end AdvancesAt

namespace Advances

theorem eat (inside : kind.isEof = false) {f : Bool → Parser α} (taken : Settles depth (room - 1) (f true))
    (left : Advances depth room due (f false)) : Advances depth room due (Parser.eat kind >>= f) := by
  rw [eat_bind]
  refine .peek fun next => ?_
  by_cases same : next = kind
  · subst same
    simp only [if_true]
    exact .skip inside taken
  · simp only [if_neg same]
    exact left.at next

theorem check (kind : TokenKind) {f : Bool → Parser α} (next : ∀ found, Advances depth room due (f found)) :
    Advances depth room due (Parser.check kind >>= f) := by
  rw [check_bind]
  exact .peek fun kind => (next _).at kind

theorem checked (kind : TokenKind) : Settles depth room (Parser.check kind) :=
  .peek fun kind => (Advances.done id).at kind

theorem expectSymbol (s : Symbol) : Takes depth room (Parser.expectSymbol s) :=
  .eat rfl (.done id) (.fail (named_append (named_append rfl _) _))

theorem expectWord (word : String) : Takes depth room (Parser.expectWord word) :=
  .eat rfl (.done id) (.fail (named_append (named_append rfl _) _))

theorem unexpected : Advances depth room due Parser.unexpected :=
  .peek fun kind => (Advances.fail (named_append (named_append rfl _) _)).at kind

theorem expectName : Takes depth room Parser.expectName := by
  unfold Parser.expectName
  refine .peek fun kind => ?_
  split
  · split
    · exact Advances.unexpected.at _
    · exact .skip rfl (.done id)
  · exact Advances.unexpected.at _

end Advances

/-- A loop whose turns take tokens has turns enough. -/
theorem AdvancesHere.repeatFrom {step : σ → Parser (σ ⊕ α)} {s : σ} (bounded : c.Bounded depth)
    (few : c.rest.length < room) (first : AdvancesHere (AtTurn due) (step s) c)
    (steps : ∀ s, Advances depth room (AtTurn fun _ => False) (step s)) :
    AdvancesHere due (Parser.repeatFrom s step) c := by
  have later (n less : Nat) (enough : less ≤ n) (le : less ≤ room) (s : σ) :
      Settles depth less (turns step n s) := by
    induction n generalizing less s with
    | zero =>
      obtain rfl : less = 0 := Nat.le_zero.1 enough
      exact .nowhere
    | succ n ih =>
      refine ((steps s).fewer le).andThen (fun turn _ => ?_) fun turn free => ?_
      · cases turn with
        | inl s => exact ih (less - 1) (by omega) (by omega) s
        | inr x => exact .done id
      · cases turn with
        | inl s => exact absurd trivial free
        | inr x => exact .done id
  change AdvancesHere due (turns step (c.size + 1) s) c
  refine first.andThen bounded (Nat.lt_succ_self _) (fun turn _ => ?_) fun turn free => ?_
  · cases turn with
    | inl s => exact later c.size _ bounded.room (Nat.le_of_lt few) s
    | inr x => exact .done id
  · cases turn with
    | inl s => exact absurd trivial free
    | inr x => exact .done free

theorem Advances.repeatFrom {step : σ → Parser (σ ⊕ α)} (steps : ∀ s, Advances depth room (AtTurn due) (step s))
    (s : σ) : Advances depth room due (Parser.repeatFrom s step) := by
  intro c bounded few
  refine .repeatFrom bounded few (steps s c bounded few) fun s => (steps s).imp fun turn => ?_
  cases turn with
  | inl s => exact id
  | inr x => exact False.elim

end

/-! ### Expressions -/

namespace Grammar

theorem Entry.opened_le (entry : Entry) : entry.opened ≤ 1 := by
  unfold opened
  split <;> simp

/-- What a level takes from others takes a token, wherever fewer than `room` are left. -/
structure Level.Ready (depth room : Nat) (k : Level) : Prop where
  deeper (entry : Entry) : Takes depth room (k.deeper entry)
  here (entry : Entry) : Takes depth room (k.here entry)

/-- Templates shorter than `depth` are read, or refused at their line. -/
def TemplatesReport (depth : Nat) (template : TemplateReader) : Prop :=
  ∀ body line, body.length < depth → 0 < line → Reports (template body line)

/-- What is read at an entry of the grammar. -/
def rule (template : TemplateReader) (k : Level) : Entry → Parser Expr
  | .expr => conditional template k
  | .negated => negation template k
  | .factor => factor template k
  | .bracket s => bracketTail k s
  | .operand => orTest template k
  | .postfixed => postfixed template k

theorem read_succ (template : TemplateReader) (fuel room : Nat) (entry : Entry) :
    read template (fuel + 1) room entry = rule template (levelWith (read template fuel) room) entry := by
  cases entry <;> rfl

section

variable {α : Type} {depth room n : Nat} {due : α → Prop}

theorem settles_chainStep (count : Nat) : Settles depth room (chainStep count) := by
  unfold chainStep
  split
  · exact .fail rfl
  · exact .done id

theorem advancesAt_chainStep (count : Nat) {kind : TokenKind} {f : Unit → Parser α}
    (next : AdvancesAt kind depth room due (f ())) : AdvancesAt kind depth room due (chainStep count >>= f) := by
  unfold chainStep
  split
  · exact (Advances.fail rfl : Advances depth room due (Parser.fail "expression too long")).at kind
  · exact next

theorem takes_chain {operand : Parser Expr} (operands : Takes depth room operand)
    {next : Parser (Option (Expr → Expr → Expr))} (nexts : Advances depth (room - 1) (fun join => join.isSome) next) :
    Takes depth room (chain operand next) := by
  unfold chain
  refine operands.begins fun first => .repeatFrom (fun state => ?_) _
  obtain ⟨left, count⟩ := state
  refine nexts.andThen (fun join _ => ?_) fun join none => ?_
  · cases join with
    | none => exact .done id
    | some join =>
      exact (settles_chainStep count).after fun _ => operands.less.less.after fun _ => .done id
  · cases join with
    | none => exact .done id
    | some join => exact absurd rfl none

theorem advances_eatOneOf (symbols : List (Symbol × α)) :
    Advances depth room (fun found => found.isSome) (eatOneOf symbols) := by
  induction symbols with
  | nil => exact .done nofun
  | cons entry rest ih => exact .eat rfl (.done id) ih

theorem advances_binaryOf (ops : List (Symbol × BinaryOp)) :
    Advances depth room (fun join => join.isSome) (binaryOf ops) := by
  refine (advances_eatOneOf ops).andThen (fun op _ => .done id) fun op none => .done ?_
  rw [Option.isSome_map]
  exact none

theorem advances_joinWord (word : String) (join : Expr → Expr → Expr) :
    Advances depth room (fun join => join.isSome) (joinWord word join) :=
  .eat rfl (.done nofun) (.done nofun)

theorem settles_atListEnd : Settles depth room atListEnd := by
  unfold atListEnd
  refine .peek fun kind => Advances.at ?_ kind
  split <;> exact .done id

theorem settles_atSimpleEnd : Settles depth room atSimpleEnd := by
  unfold atSimpleEnd
  refine .peek fun kind => Advances.at ?_ kind
  split <;> exact .done id

theorem settles_moreItems {item : Parser α} (items : Settles depth room item) {atEnd : Parser Bool}
    (ends : Settles depth room atEnd) (first : List α) : Settles depth room (moreItems item atEnd first) := by
  unfold moreItems
  refine .repeatFrom (fun done => .eat rfl (ends.less.after fun ended => ?_) (.done id)) _
  cases ended with
  | true => exact .done id
  | false => exact items.less.after fun _ => .done id

theorem settles_asTarget (e : Expr) : Settles depth room (asTarget e) := by
  unfold asTarget
  split
  · exact .done id
  · exact .fail rfl

theorem settles_orNothing {stop : Parser Bool} (stops : Settles depth room stop) {read : Parser α}
    (reads : Settles depth room read) : Settles depth room (orNothing stop read) := by
  unfold orNothing
  refine stops.after fun stopped => ?_
  cases stopped with
  | true => exact .done id
  | false => exact reads.after fun _ => .done id

theorem settles_atBoundEnd : Settles depth room atBoundEnd := .check _ fun _ => .check _ fun _ => .done id

theorem settles_atKeyword : Settles depth room atKeyword := by
  unfold atKeyword
  refine .peek fun kind => ?_
  split
  · exact .peekSecond fun second => (Advances.done id).at _
  · exact (Advances.done id).at _

theorem takes_attributeName : Takes depth room attributeName := by
  unfold attributeName
  refine .peek fun kind => ?_
  split
  · exact .skip rfl (.done id)
  · exact .refuse rfl

theorem advances_compareOp : Advances depth room (fun op => op.isSome) compareOp := by
  unfold compareOp
  refine .peek fun kind => ?_
  split
  · exact .skip rfl (.done id)
  · exact .skip rfl (.done id)
  · exact .skip rfl (.done id)
  · exact .skip rfl (.done id)
  · exact .skip rfl (.done id)
  · exact .skip rfl (.done id)
  · exact .skip rfl (.done id)
  · exact .skip rfl (.eat rfl (.done id) (.done id))
  · refine .peekSecond fun second => ?_
    split
    · exact .skip rfl ((Advances.expectWord _).after fun _ => .done id)
    · exact (Advances.done nofun).at _
  · exact (Advances.done nofun).at _

end

/-! Rules that take expressions from other levels, after a token. -/

section

variable {depth room : Nat} {k : Level} (ready : k.Ready depth room)

include ready

theorem Level.Ready.expr : Takes depth room k.expr := ready.deeper .expr

theorem Level.Ready.less : k.Ready depth (room - 1) :=
  ⟨fun entry => (ready.deeper entry).less, fun entry => (ready.here entry).less⟩

theorem takes_exprList : Takes depth room (exprList k) := by
  unfold exprList
  refine ready.expr.begins fun first => .check _ fun comma => ?_
  cases comma with
  | true => exact (settles_moreItems ready.less.expr.settles settles_atListEnd _).after fun _ => .done id
  | false => exact .done id

theorem settles_sliceStep : Settles depth room (sliceStep k) :=
  .eat rfl (settles_orNothing (.checked _) ready.less.expr.settles) (.done id)

theorem settles_subscript : Settles depth room (subscript k) := by
  have slice (start : Option Expr) : Settles depth room (do
      expectSymbol .colon
      let stop ← orNothing atBoundEnd k.expr
      let step ← sliceStep k
      return Expr.slice start stop step) :=
    (Advances.expectSymbol _).after fun _ => (settles_orNothing settles_atBoundEnd ready.expr.settles).after fun _ =>
      (settles_sliceStep ready).after fun _ => .done id
  unfold subscript
  refine (settles_orNothing (.checked _) (takes_exprList ready).settles).after fun start => .check _ fun colon => ?_
  cases start with
  | none => exact slice none
  | some e =>
    cases colon with
    | true => exact slice (some e)
    | false => exact .done id

theorem settles_targetList : Settles depth room (targetList k) := by
  have item : Settles depth room (k.here .postfixed >>= asTarget) :=
    (ready.here .postfixed).after settles_asTarget
  unfold targetList
  refine (ready.here .postfixed).after fun e => (settles_asTarget e).after fun first => .check _ fun comma => ?_
  exact (settles_moreItems item (.checked _) _).after fun _ => .done id

theorem settles_filter : Settles depth room (filter k) :=
  .eat rfl ((ready.less.here .operand).after fun _ => .done id) (.done id)

theorem settles_comprehensionTail (element : Expr) : Settles depth room (comprehensionTail k element) := by
  unfold comprehensionTail
  refine (Advances.expectWord _).after fun _ => (settles_targetList ready).after fun _ => ?_
  refine (Advances.expectWord _).after fun _ => (ready.here .operand).after fun _ => ?_
  refine (settles_filter ready).after fun _ => .check _ fun again => ?_
  cases again with
  | true => exact .fail rfl
  | false => exact .done id

theorem settles_argument (taken : Arguments) : Settles depth room (argument k taken) := by
  have keyword : Settles depth room (keywordArgument k taken) := by
    unfold keywordArgument
    refine Advances.expectName.after fun name => (Advances.expectSymbol _).after fun _ => ?_
    split
    · exact .fail (named_append rfl _)
    · exact ready.expr.after fun _ => .done id
  have positional : Settles depth room (positionalArgument k taken) := by
    unfold positionalArgument
    split
    · refine ready.expr.after fun arg => .check _ fun comprehension => ?_
      cases comprehension with
      | true => exact (settles_comprehensionTail ready arg).after fun _ => .done id
      | false => exact .done id
    · exact .fail rfl
  unfold argument
  refine settles_atKeyword.after fun by_name => ?_
  cases by_name with
  | true => exact keyword
  | false => exact positional

theorem settles_arguments : Settles depth room (arguments k) := by
  unfold arguments
  refine Advances.ends (.repeatFrom (fun taken => .check _ fun closed => ?_) _) fun taken =>
    (Advances.expectSymbol _).after fun _ => .done id
  cases closed with
  | true => exact .done id
  | false => exact (settles_argument ready taken).ends fun _ => .eat rfl (.done id) (.done id)

theorem takes_bracketTail (outside : Takes depth (room + 1) k.expr) (s : Symbol) :
    Takes depth (room + 1) (bracketTail k s) := by
  have closes (s : Symbol) (e : Expr) : Settles depth room (do expectSymbol s; return e) :=
    (Advances.expectSymbol s).after fun _ => .done id
  unfold bracketTail
  split
  · refine .eat rfl (.done id) (outside.begins fun first => .check _ fun comprehension => ?_)
    cases comprehension with
    | true => exact (settles_comprehensionTail ready first).after fun all => closes _ _
    | false =>
      refine .eat rfl (.done id) ?_
      exact (settles_moreItems ready.expr.settles (.checked _) _).after fun items => closes _ _
  · refine .eat rfl (.done id) (outside.begins fun first => .check _ fun comprehension => ?_)
    cases comprehension with
    | true => exact (settles_comprehensionTail ready first).after fun all => closes _ _
    | false => exact (settles_moreItems ready.expr.settles (.checked _) _).after fun items => closes _ _
  · unfold dictTail
    refine Advances.ends (.repeatFrom (fun done => .check _ fun closed => ?_) _) fun entries =>
      (Advances.expectSymbol _).begins fun _ => .done id
    cases closed with
    | true => exact .done id
    | false =>
      refine outside.begins fun key => .eat rfl ?_ (.fail rfl)
      exact ready.less.expr.after fun value => .eat rfl (.done id) (.done id)

end

/-! Rules that may read a template. -/

section

variable {α : Type} {depth room : Nat} {due : α → Prop} {k : Level} {template : TemplateReader}
  (templates : TemplatesReport depth template)

include templates

theorem advancesAt_body {body : String} {line : Nat} (positive : 0 < line) {f : List TemplatePart → Parser α}
    (next : ∀ parts, Settles depth (room - 1) (f parts)) :
    AdvancesAt (.template body) depth room due (Parser.skip >>= fun _ =>
      match template body line with
      | .ok parts => f parts
      | .error e => throw e) := by
  refine .short fun short => .skip rfl ?_
  split
  · exact next _
  · next e refused => exact .refuse (templates body line short positive e refused)

/-- Strings are read in turns. A turn takes a string, or is the last; one that begins at an f-string is not the last. -/
theorem adjacentStrings_turns {line : Nat} (positive : 0 < line) (text : String) (parts : Option (List TemplatePart)) :
    ∃ step, adjacentStrings template line text parts = Parser.repeatFrom (text, parts) step ∧
      (∀ state, Advances depth room (AtTurn fun _ => False) (step state)) ∧
      ∀ state body, AdvancesAt (.template body) depth room (fun _ => True) (step state) := by
  refine ⟨_, rfl, fun (text, parts) => .peek fun kind => ?_, fun (text, parts) body => .peek ?_⟩
  · split
    · cases parts <;> exact .skip rfl (.done id)
    · exact advancesAt_body templates positive fun _ => .done id
    · cases parts <;> exact (Advances.done id).at _
  · exact advancesAt_body templates positive fun _ => .done id

theorem settles_adjacentStrings {line : Nat} (positive : 0 < line) (text : String)
    (parts : Option (List TemplatePart)) : Settles depth room (adjacentStrings template line text parts) := by
  obtain ⟨step, same, turns, -⟩ := adjacentStrings_turns templates positive text parts
  rw [same]
  exact .repeatFrom turns _

theorem takesAt_adjacentStrings {line : Nat} (positive : 0 < line) (body : String) :
    AdvancesAt (.template body) depth room (fun _ => True) (adjacentStrings template line "" none) := by
  obtain ⟨step, same, turns, first⟩ := adjacentStrings_turns templates positive "" none
  rw [same]
  intro c bounded few found
  refine .repeatFrom bounded few ((first _ body c bounded few found).imp fun _ _ => trivial) turns

variable (ready : k.Ready depth room)

include ready

theorem takes_atom : Takes depth (room + 1) (atom template k) := by
  unfold atom
  refine .line fun line positive => .peek fun kind => ?_
  split
  · exact .skip rfl (.done id)
  · exact .skip rfl (.done id)
  · exact .skip rfl (settles_adjacentStrings templates positive _ _)
  · exact takesAt_adjacentStrings templates positive _
  · exact .skip rfl (.done id)
  · exact .skip rfl (.done id)
  · exact .skip rfl (.done id)
  · split
    · exact .skip rfl (.fail (named_append (named_append rfl _) _))
    · split
      · exact Advances.unexpected.at _
      · exact .skip rfl (.done id)
  · split
    · exact .skip rfl (ready.deeper _).settles
    · exact Advances.unexpected.at _
  · exact Advances.unexpected.at _

theorem takes_postfixed : Takes depth (room + 1) (postfixed template k) := by
  have closes {f : Expr → Expr × Nat} (s : Symbol) (e : Expr) :
      Settles depth (room - 1) (do expectSymbol s; return Sum.inl (f e) : Parser ((Expr × Nat) ⊕ Expr)) :=
    (Advances.expectSymbol s).after fun _ => .done id
  unfold postfixed
  refine (takes_atom templates ready).begins fun first => .repeatFrom (fun state => ?_) _
  obtain ⟨object, count⟩ := state
  refine .peek fun kind => ?_
  split
  · refine advancesAt_chainStep count (.skip rfl ?_)
    exact (settles_arguments ready.less).after fun _ => .done id
  · refine advancesAt_chainStep count (.skip rfl ?_)
    exact (settles_subscript ready.less).after fun _ => (Advances.expectSymbol _).after fun _ => .done id
  · refine advancesAt_chainStep count (.skip rfl ?_)
    exact takes_attributeName.after fun _ => .done id
  · exact (Advances.done id).at _

theorem takes_factor : Takes depth (room + 1) (factor template k) := by
  have operand (f : Expr → Expr) : Settles depth room (k.deeper .factor >>= fun e => pure (f e)) :=
    (ready.deeper .factor).after fun _ => .done id
  have power : Takes depth (room + 1) (power template k) :=
    (takes_postfixed templates ready).begins fun base =>
      .eat rfl ((ready.less.deeper .factor).after fun _ => .done id) (.done id)
  exact .eat rfl (operand _) (.eat rfl (operand _) power)

theorem takes_arith : Takes depth (room + 1) (arith template k) :=
  takes_chain (takes_chain (takes_factor templates ready) (advances_binaryOf _)) (advances_binaryOf _)

theorem takes_comparison : Takes depth (room + 1) (comparison template k) := by
  have operands := takes_arith templates ready
  unfold comparison
  refine operands.begins fun first => Advances.ends (.repeatFrom (fun done => ?_) _) fun _ => .done id
  refine advances_compareOp.andThen (fun op _ => ?_) fun op none => ?_
  · cases op with
    | none => exact .done id
    | some op => exact operands.less.less.after fun _ => .done id
  · cases op with
    | none => exact .done id
    | some op => exact absurd rfl none

theorem takes_negation : Takes depth (room + 1) (negation template k) :=
  .eat rfl ((ready.deeper .negated).after fun _ => .done id) (takes_comparison templates ready)

theorem takes_orTest : Takes depth (room + 1) (orTest template k) :=
  takes_chain (takes_chain (takes_negation templates ready) (advances_joinWord _ _)) (advances_joinWord _ _)

theorem takes_conditional : Takes depth (room + 1) (conditional template k) := by
  have operands := takes_orTest templates ready
  unfold conditional
  refine operands.begins fun yes => .eat rfl (operands.less.less.after fun cond => ?_) (.done id)
  exact (Advances.expectWord _).after fun _ => ready.less.expr.after fun _ => .done id

/-- The rules enter the grammar again only where fewer tokens are left. After a bracket, which is a token already, an
expression may follow at once. -/
theorem takes_rule (entry : Entry) (outside : entry.opened = 1 → Takes depth (room + 1) k.expr) :
    Takes depth (room + 1) (rule template k entry) := by
  cases entry with
  | expr => exact takes_conditional templates ready
  | negated => exact takes_negation templates ready
  | factor => exact takes_factor templates ready
  | bracket s => exact takes_bracketTail ready (outside rfl) s
  | operand => exact takes_orTest templates ready
  | postfixed => exact takes_postfixed templates ready

omit ready

theorem takes_read {fuel room nested : Nat} {entry : Entry} (enough : 2 * room + entry.opened ≤ fuel + 1) :
    Takes depth room (read template fuel nested entry) := by
  induction fuel generalizing room nested entry with
  | zero =>
    obtain rfl : room = 0 := by omega
    exact .nowhere
  | succ fuel ih =>
    obtain _ | room := room
    · exact .nowhere
    have deeper {room : Nat} (entry : Entry) (enough : 2 * room + entry.opened ≤ fuel + 1) :
        Takes depth room ((levelWith (read template fuel) nested).deeper entry) := by
      cases nested with
      | zero => exact .fail rfl
      | succ nested => exact ih enough
    have few (entry : Entry) : 2 * room + entry.opened ≤ fuel + 1 := by
      have := entry.opened_le
      omega
    rw [read_succ]
    have ready : Level.Ready depth room (levelWith (read template fuel) nested) :=
      ⟨fun entry => deeper entry (few entry), fun entry => ih (few entry)⟩
    refine takes_rule templates ready entry fun bracket => ?_
    rw [bracket] at enough
    exact deeper .expr (Nat.le_of_succ_le_succ enough)

theorem ready_outermost (size : Nat) : Level.Ready depth (size + 1) (outermost template size) := by
  have enough (entry : Entry) : 2 * (size + 1) + entry.opened ≤ 2 * size + 2 + 1 := by
    have := entry.opened_le
    omega
  exact ⟨fun entry => takes_read templates (enough entry), fun entry => takes_read templates (enough entry)⟩

end

end Grammar

end SnippetKernel.Source
