import Mathlib.Data.List.TakeWhile
import SnippetKernel.Proofs.Source.Placeholders
import SnippetKernel.Proofs.Source.Rules

/-! How operators between names are grouped. A flat expression has one tree in which every operator binds the way it
should, and that is the tree that is read. -/
namespace SnippetKernel.Source

open Text Source.Parser Grammar

/-- An operator that joins two operands. -/
inductive Operator where
  | or
  | and
  | binary (op : BinaryOp)
  deriving DecidableEq

namespace Operator

/-- How tight an operator binds; comparisons would be between `and` and `+`. -/
def level : Operator → Nat
  | or => 0
  | and => 1
  | binary .add | binary .sub => 2
  | binary .mul | binary .div | binary .floorDiv | binary .mod => 3
  | binary .pow => 4

/-- Whether operators in a row are grouped from the right. -/
def fromRight (op : Operator) : Prop := op = binary .pow

instance (op : Operator) : Decidable op.fromRight := inferInstanceAs (Decidable (op = _))

def kind : Operator → TokenKind
  | or => .name "or"
  | and => .name "and"
  | binary .add => .symbol .plus
  | binary .sub => .symbol .minus
  | binary .mul => .symbol .star
  | binary .div => .symbol .slash
  | binary .floorDiv => .symbol .floorDiv
  | binary .mod => .symbol .percent
  | binary .pow => .symbol .pow

def text : Operator → String
  | or => "or"
  | and => "and"
  | binary op => op.text

def join : Operator → Expr → Expr → Expr
  | or => .or
  | and => .and
  | binary op => .binary op

def all : List Operator :=
  [or, and, binary .add, binary .sub, binary .mul, binary .div, binary .floorDiv, binary .mod, binary .pow]

theorem mem_all (op : Operator) : op ∈ all := by
  cases op with
  | or | and => decide
  | binary op => cases op <;> decide

theorem level_le (op : Operator) : op.level ≤ 4 :=
  (by decide : ∀ op ∈ all, op.level ≤ 4) op op.mem_all

/-- Operators of one level are grouped the same way. -/
theorem fromRight_iff (op : Operator) : op.fromRight ↔ op.level = 4 :=
  (by decide : ∀ op ∈ all, op.fromRight ↔ op.level = 4) op op.mem_all

end Operator

/-- Names with operators between them. -/
structure Flat where
  first : String
  rest : List (Operator × String)

namespace Flat

/-- Operators as they are written with a space at each side, each with the name behind it. -/
def chars (rest : List (Operator × String)) : List Char :=
  rest.flatMap fun item => ' ' :: item.1.text.toList ++ ' ' :: item.2.toList

def text (flat : Flat) : String := String.ofList (flat.first.toList ++ chars flat.rest)

/-- The tokens of operators, each with the name behind it. -/
def kindsOf (rest : List (Operator × String)) : List TokenKind :=
  rest.flatMap fun item => [item.1.kind, .name item.2]

def kinds (flat : Flat) : List TokenKind := .name flat.first :: kindsOf flat.rest

theorem kindsOf_append (rest more : List (Operator × String)) :
    kindsOf (rest ++ more) = kindsOf rest ++ kindsOf more := List.flatMap_append

theorem length_le_kindsOf (rest : List (Operator × String)) : rest.length ≤ (kindsOf rest).length := by
  induction rest with
  | nil => exact Nat.le_refl _
  | cons item rest ih =>
    simp only [kindsOf, List.flatMap_cons, List.length_append, List.length_cons] at ih ⊢
    omega

end Flat

/-- What operators make of names. -/
inductive Grouping where
  | name (id : String)
  | join (op : Operator) (left right : Grouping)

namespace Grouping

/-- The tree in the language. -/
def expr : Grouping → Expr
  | name id => .name id
  | join op left right => op.join left.expr right.expr

def first : Grouping → String
  | name id => id
  | join _ left _ => left.first

def rest : Grouping → List (Operator × String)
  | name _ => []
  | join op left right => left.rest ++ (op, right.first) :: right.rest

/-- The names and the operators from left to right. -/
def flat (t : Grouping) : Flat := ⟨t.first, t.rest⟩

/-- The level of the operator that binds last; a name is tighter than every operator. -/
def level : Grouping → Nat
  | name _ => 5
  | join op _ _ => op.level

/-- An operator joins what binds tighter; beside it may be one of its own level only at the side where such operators
begin to be grouped. -/
def WellGrouped : Grouping → Prop
  | name _ => True
  | join op left right => left.WellGrouped ∧ right.WellGrouped ∧
      if op.fromRight then op.level < left.level ∧ op.level ≤ right.level
      else op.level ≤ left.level ∧ op.level < right.level

instance decidableWellGrouped : (t : Grouping) → Decidable t.WellGrouped
  | name _ => inferInstanceAs (Decidable True)
  | join _ left right =>
    have := decidableWellGrouped left
    have := decidableWellGrouped right
    inferInstanceAs (Decidable (left.WellGrouped ∧ right.WellGrouped ∧ ite ..))

theorem level_le_of_mem {t : Grouping} (grouped : t.WellGrouped) {item : Operator × String} (mem : item ∈ t.rest) :
    t.level ≤ item.1.level := by
  induction t with
  | name => cases mem
  | join op left right ih_left ih_right =>
    obtain ⟨left_grouped, right_grouped, beside⟩ := grouped
    have both : op.level ≤ left.level ∧ op.level ≤ right.level := by
      split at beside <;> omega
    rcases List.mem_append.1 mem with mem | mem
    · exact both.1.trans (ih_left left_grouped mem)
    rcases List.mem_cons.1 mem with rfl | mem
    · exact Nat.le_refl _
    · exact both.2.trans (ih_right right_grouped mem)

/-- A list is split in one way at an item that is only at one side of itself. -/
theorem split_unique {α : Type} {front front' back back' : List α} {a a' : α}
    (same : front ++ a :: back = front' ++ a' :: back')
    (apart : (a' ∉ back ∧ a ∉ back') ∨ (a' ∉ front ∧ a ∉ front')) : front = front' ∧ a = a' ∧ back = back' := by
  rcases List.append_eq_append_iff.1 same with ⟨between, rfl, later⟩ | ⟨between, rfl, later⟩
  all_goals
    cases between with
    | nil =>
      obtain ⟨rfl, rfl⟩ := List.cons.inj later
      simp
    | cons b between =>
      obtain ⟨rfl, rfl⟩ := List.cons.inj later
      simp at apart

theorem root_mem (op : Operator) (left right : Grouping) : (op, right.first) ∈ (join op left right).rest :=
  List.mem_append_right _ List.mem_cons_self

theorem not_mem_of_tighter {t : Grouping} (grouped : t.WellGrouped) {item : Operator × String}
    (tighter : item.1.level < t.level) : item ∉ t.rest :=
  fun mem => Nat.not_le_of_gt tighter (level_le_of_mem grouped mem)

/-- Two trees with the same operators have the same one at the root, and the same ones at each side of it. -/
theorem split_of_rest {op op' : Operator} {left left' right right' : Grouping}
    (grouped : (join op left right).WellGrouped) (grouped' : (join op' left' right').WellGrouped)
    (same : (join op' left' right').rest = (join op left right).rest) :
    left'.rest = left.rest ∧ (op', right'.first) = (op, right.first) ∧ right'.rest = right.rest := by
  -- Each of the two operators is among those of the other tree, so they are of one level.
  have mem : (op', right'.first) ∈ (join op left right).rest := same ▸ root_mem op' left' right'
  have mem' : (op, right.first) ∈ (join op' left' right').rest := same ▸ root_mem op left right
  have least : op.level ≤ op'.level := level_le_of_mem grouped mem
  have least' : op'.level ≤ op.level := level_le_of_mem grouped' mem'
  obtain ⟨left_grouped, right_grouped, beside⟩ := grouped
  obtain ⟨left_grouped', right_grouped', beside'⟩ := grouped'
  refine split_unique same ?_
  by_cases right_first : op.level = 4
  · have right_first' : op'.level = 4 := by omega
    rw [if_pos ((Operator.fromRight_iff _).2 right_first)] at beside
    rw [if_pos ((Operator.fromRight_iff _).2 right_first')] at beside'
    right
    constructor
    · exact not_mem_of_tighter left_grouped' (least.trans_lt beside'.1)
    · exact not_mem_of_tighter left_grouped (least'.trans_lt beside.1)
  · have left_first' : op'.level ≠ 4 := by omega
    rw [if_neg fun h => right_first ((Operator.fromRight_iff _).1 h)] at beside
    rw [if_neg fun h => left_first' ((Operator.fromRight_iff _).1 h)] at beside'
    left
    constructor
    · exact not_mem_of_tighter right_grouped' (least.trans_lt beside'.2)
    · exact not_mem_of_tighter right_grouped (least'.trans_lt beside.2)

/-- The operators and their levels leave no choice. -/
theorem eq_of_flat {t t' : Grouping} (grouped : t.WellGrouped) (grouped' : t'.WellGrouped) (same : t'.flat = t.flat) :
    t' = t := by
  obtain ⟨firsts, rests⟩ := Flat.mk.inj same
  clear same
  induction t generalizing t' with
  | name =>
    cases t' with
    | name => exact congrArg name firsts
    | join => exact absurd rests (by simp [rest])
  | join op left right ih_left ih_right =>
    cases t' with
    | name => exact absurd rests (by simp [rest])
    | join op' left' right' =>
      obtain ⟨fronts, items, backs⟩ := split_of_rest grouped grouped' rests
      obtain ⟨rfl, firsts_right⟩ := Prod.mk.inj items
      rw [ih_left grouped.1 grouped'.1 firsts fronts, ih_right grouped.2.1 grouped'.2.1 firsts_right backs]

end Grouping

/-! ### Reading by the kinds of tokens -/

/-- The tokens to come are of these kinds, and were all there at first. -/
structure Cursor.Faces (c : Cursor) (kinds : List TokenKind) : Prop where
  ahead : c.rest.map (·.kind) = kinds
  within : c.rest.length ≤ c.size

/-- Before tokens of the first kinds, the parser gives `x` and leaves the last ones. -/
def Parses {α : Type} (p : Parser α) (x : α) (before after : List TokenKind) : Prop :=
  ∀ c : Cursor, c.Faces before → ∃ rest, p c = .ok (x, c.on rest) ∧ (c.on rest).Faces after

theorem Cursor.Faces.next {c : Cursor} {kind : TokenKind} {kinds : List TokenKind} (faces : c.Faces (kind :: kinds)) :
    ∃ line rest, c = c.on (⟨kind, line⟩ :: rest) ∧ (c.on rest).Faces kinds := by
  obtain ⟨rest, last, size⟩ := c
  obtain ⟨ahead, within⟩ := faces
  cases rest with
  | nil => cases ahead
  | cons t rest =>
    obtain ⟨rfl, later⟩ := List.cons.inj ahead
    exact ⟨t.line, rest, rfl, later, Nat.le_of_succ_le within⟩

namespace Parses

variable {α β σ : Type} {p : Parser α} {f : α → Parser β} {x : α} {y : β} {kind : TokenKind}
  {kinds before middle after : List TokenKind}

theorem done : Parses (pure x : Parser α) x kinds kinds := fun c faces => ⟨c.rest, rfl, faces⟩

theorem andThen (first : Parses p x before middle) (second : Parses (f x) y middle after) :
    Parses (p >>= f) y before after := by
  intro c faces
  obtain ⟨rest, read, faces⟩ := first c faces
  obtain ⟨rest', read', faces⟩ := second _ faces
  exact ⟨rest', (bind_of_ok read).trans read', faces⟩

theorem peek : Parses Parser.peek kind (kind :: kinds) (kind :: kinds) := by
  intro c faces
  obtain ⟨line, rest, same, -⟩ := faces.next
  exact ⟨c.rest, same ▸ rfl, faces⟩

theorem eat : Parses (Parser.eat kind) true (kind :: kinds) kinds := by
  intro c faces
  obtain ⟨line, rest, same, after⟩ := faces.next
  exact ⟨rest, same ▸ eat_cons, after⟩

theorem eat_other {other : TokenKind} (ne : other ≠ kind) :
    Parses (Parser.eat kind) false (other :: kinds) (other :: kinds) := by
  intro c faces
  obtain ⟨line, rest, same, -⟩ := faces.next
  exact ⟨c.rest, same ▸ eat_cons_of_ne ne, faces⟩

theorem check_other {other : TokenKind} (ne : other ≠ kind) :
    Parses (Parser.check kind) false (other :: kinds) (other :: kinds) := by
  intro c faces
  obtain ⟨line, rest, same, -⟩ := faces.next
  rw [same] at faces ⊢
  exact ⟨_, SnippetKernel.Source.check_other ne, faces⟩

/-- A repetition has more turns than there are tokens. -/
theorem repeatFrom {step : σ → Parser (σ ⊕ α)} {s : σ}
    (turns : ∀ n, before.length < n → Parses (Parser.turns step n s) x before after) :
    Parses (Parser.repeatFrom s step) x before after := by
  intro c faces
  have enough : before.length < c.size + 1 := by
    rw [← faces.ahead, List.length_map]
    exact Nat.lt_succ_of_le faces.within
  exact turns _ enough c faces

end Parses

/-! ### Levels of the grammar -/

/-- What an expression ends before that has only operators of the given level or tighter ones. -/
def enders (level : Nat) : List TokenKind :=
  closers ++ (Operator.all.filter (·.level < level)).map Operator.kind

/-- An expression of the level ends here. -/
def EndsBelow (level : Nat) (after : List TokenKind) : Prop := ∃ kind ∈ enders level, ∃ more, after = kind :: more

/-- What a run of operators has to keep to: names between them, not too many, and few powers in a row. -/
structure Admitted (powers : Nat) (rest : List (Operator × String)) : Prop where
  named : ∀ item ∈ rest, IsName item.2
  short : rest.length ≤ Grammar.maxChain
  nested : ∀ run, run <:+: rest → (∀ item ∈ run, item.1 = .binary .pow) → run.length ≤ powers

/-- The parser gives the tree of operators of the given level and tighter ones. -/
def Groups (powers level : Nat) (p : Parser Expr) : Prop :=
  ∀ first rest after, IsName first → Admitted powers rest → (∀ item ∈ rest, level ≤ item.1.level) →
    EndsBelow level after → ∃ t : Grouping, t.WellGrouped ∧ level ≤ t.level ∧ t.flat = ⟨first, rest⟩ ∧
      Parses p t.expr (.name first :: (Flat.kindsOf rest ++ after)) after

theorem EndsBelow.mono {level level' : Nat} {after : List TokenKind} (ends : EndsBelow level after)
    (le : level ≤ level') : EndsBelow level' after := by
  obtain ⟨kind, mem, more, rfl⟩ := ends
  refine ⟨kind, ?_, more, rfl⟩
  rcases List.mem_append.1 mem with mem | mem
  · exact List.mem_append_left _ mem
  · obtain ⟨op, below, rfl⟩ := List.mem_map.1 mem
    obtain ⟨listed, below⟩ := List.mem_filter.1 below
    have below' : op.level < level' := Nat.lt_of_lt_of_le (of_decide_eq_true below) le
    exact List.mem_append_right _ (List.mem_map_of_mem (List.mem_filter.2 ⟨listed, decide_eq_true below'⟩))

/-- A looser operator ends an expression. -/
theorem EndsBelow.of_operator {op : Operator} {level : Nat} (below : op.level < level) (more : List TokenKind) :
    EndsBelow level (op.kind :: more) := by
  have listed : op ∈ Operator.all.filter (·.level < level) := List.mem_filter.2 ⟨op.mem_all, decide_eq_true below⟩
  exact ⟨op.kind, List.mem_append_right _ (List.mem_map_of_mem listed), more, rfl⟩

theorem Admitted.part {powers : Nat} {part rest : List (Operator × String)} (fits : Admitted powers rest)
    (part_of : part <:+: rest) : Admitted powers part where
  named item mem := fits.named item (part_of.subset mem)
  short := part_of.length_le.trans fits.short
  nested run run_of := fits.nested run (run_of.trans part_of)

/-! ### Names and powers -/

section

variable {template : TemplateReader} {k : Level} {name : String} {after : List TokenKind}

theorem Parses.atom (named : IsName name) : Parses (atom template k) (.name name) (.name name :: after) after := by
  intro c faces
  obtain ⟨line, rest, same, later⟩ := faces.next
  exact ⟨rest, same ▸ named.atom, later⟩

/-- No operator goes on with an atom as a call or a subscript does. -/
theorem Parses.postfixed (named : IsName name) (ends : EndsBelow 5 after) :
    Parses (postfixed template k) (.name name) (.name name :: after) after := by
  obtain ⟨kind, mem, more, rfl⟩ := ends
  refine (atom named).andThen (repeatFrom fun n positive => ?_)
  obtain ⟨n, rfl⟩ := Nat.exists_eq_succ_of_ne_zero (Nat.ne_of_gt (Nat.zero_lt_of_lt positive))
  refine andThen (x := .inr (.name name)) (peek.andThen ?_) done
  have all : enders 5 = closers ++ Operator.all.map Operator.kind := by decide
  rw [all] at mem
  simp only [closers, Operator.all, List.map_cons, List.map_nil, List.cons_append, List.nil_append, List.mem_cons,
    List.not_mem_nil, or_false, Operator.kind] at mem
  rcases mem with rfl | rfl | rfl | rfl | rfl | rfl | rfl | rfl | rfl | rfl | rfl | rfl | rfl | rfl | rfl | rfl |
    rfl | rfl <;> exact done

/-- Before an expression ends, what is no end of it is not taken. -/
theorem EndsBelow.eat {level : Nat} {kind : TokenKind} (ends : EndsBelow level after) (other : kind ∉ enders level) :
    Parses (Parser.eat kind) false after after := by
  obtain ⟨found, mem, more, rfl⟩ := ends
  exact .eat_other fun same => other (same ▸ mem)

/-- In front of a name there is no sign. -/
theorem Parses.factor {e : Expr} {kinds : List TokenKind}
    (power : Parses (power template k) e (.name name :: kinds) after) :
    Parses (factor template k) e (.name name :: kinds) after := by
  have minus : TokenKind.name name ≠ .symbol .minus := nofun
  have plus : TokenKind.name name ≠ .symbol .plus := nofun
  exact andThen (eat_other minus) (andThen (eat_other plus) power)

/-- A power has the powers behind it as its exponent, and so each of them is one nested expression more. -/
theorem factor_powers {fuel room : Nat} {rest : List (Operator × String)} (named : IsName name)
    (names : ∀ item ∈ rest, IsName item.2) (powers : ∀ item ∈ rest, item.1 = .binary .pow)
    (fueled : rest.length ≤ fuel) (roomy : rest.length ≤ room) (ends : EndsBelow 4 after) :
    ∃ t : Grouping, t.WellGrouped ∧ 4 ≤ t.level ∧ t.flat = ⟨name, rest⟩ ∧
      Parses (factor template (levelWith (read template fuel) room)) t.expr
        (.name name :: (Flat.kindsOf rest ++ after)) after := by
  induction rest generalizing name fuel room with
  | nil =>
    refine ⟨.name name, trivial, Nat.le_succ 4, rfl, .factor ?_⟩
    exact (Parses.postfixed named (ends.mono (by decide))).andThen ((ends.eat (by decide)).andThen .done)
  | cons item rest ih =>
    obtain ⟨op, next⟩ := item
    obtain ⟨fuel, rfl⟩ := Nat.exists_eq_add_of_le' (Nat.le_trans (Nat.le_add_left 1 _) fueled)
    obtain ⟨room, rfl⟩ := Nat.exists_eq_add_of_le' (Nat.le_trans (Nat.le_add_left 1 _) roomy)
    rw [List.forall_mem_cons] at names powers
    obtain rfl : op = .binary .pow := powers.1
    obtain ⟨t, grouped, tight, same, exponent⟩ :=
      ih names.1 names.2 powers.2 (Nat.le_of_succ_le_succ fueled) (Nat.le_of_succ_le_succ roomy)
    obtain ⟨firsts, rests⟩ := Flat.mk.inj same
    refine ⟨.join (.binary .pow) (.name name) t, ⟨trivial, grouped, ?_⟩, Nat.le_refl 4, ?_, .factor ?_⟩
    · exact ⟨Nat.lt_succ_self 4, tight⟩
    · simp [Grouping.flat, Grouping.first, Grouping.rest, firsts, rests]
    have nested : Parses ((levelWith (read template (fuel + 1)) (room + 1)).deeper .factor) t.expr
        (.name next :: (Flat.kindsOf rest ++ after)) after := by
      change Parses (Grammar.read template (fuel + 1) room .factor) _ _ _
      rw [Grammar.read]
      exact exponent
    have base : EndsBelow 5 ((Operator.binary .pow).kind :: .name next :: (Flat.kindsOf rest ++ after)) :=
      .of_operator (by decide) _
    exact (Parses.postfixed named base).andThen (Parses.eat.andThen (nested.andThen .done))

end

theorem Groups.factor {template : TemplateReader} {powers fuel room : Nat} (fueled : powers ≤ fuel)
    (roomy : powers ≤ room) : Groups powers 4 (factor template (levelWith (Grammar.read template fuel) room)) := by
  intro first rest after named admitted levels ends
  have all : ∀ item ∈ rest, item.1 = .binary .pow := by
    intro item mem
    exact (Operator.fromRight_iff _).2 (Nat.le_antisymm item.1.level_le (levels item mem))
  have few := admitted.nested rest (List.infix_refl rest) all
  exact factor_powers named admitted.named all (few.trans fueled) (few.trans roomy) ends

/-! ### Chains -/

section

variable {operand : Parser Expr} {next? : Parser (Option (Expr → Expr → Expr))} {powers level : Nat}
  {rest : List (Operator × String)} {after : List TokenKind}

/-- The parser takes the operators of one level, and nothing before looser ones. -/
structure Offers (level : Nat) (next? : Parser (Option (Expr → Expr → Expr))) : Prop where
  takes (op : Operator) (same : op.level = level) (more : List TokenKind) :
    Parses next? (some op.join) (op.kind :: more) more
  stops (after : List TokenKind) (ends : EndsBelow level after) : Parses next? none after after

/-- One turn of a chain. -/
def chainTurn (operand : Parser Expr) (next? : Parser (Option (Expr → Expr → Expr))) :
    Expr × Nat → Parser (Expr × Nat ⊕ Expr) := fun (left, count) => do
  match ← next? with
  | none => return .inr left
  | some join =>
    chainStep count
    let right ← operand
    return .inl (join left right, count + 1)

theorem chain_eq : chain operand next? =
    operand >>= fun first => repeatFrom (first, 0) (chainTurn operand next?) := rfl

theorem Parses.chainStep {count : Nat} {kinds : List TokenKind} (few : count < Grammar.maxChain) :
    Parses (chainStep count) () kinds kinds := by
  unfold Grammar.chainStep
  rw [if_neg (Nat.not_le_of_gt few)]
  exact done

/-- What the operand takes are the operators up to the first one of the level itself. -/
theorem Groups.split (groups : Groups powers (level + 1) operand) {first : String} (named : IsName first)
    (admitted : Admitted powers rest) (levels : ∀ item ∈ rest, level ≤ item.1.level) (ends : EndsBelow level after) :
    ∃ (t : Grouping) (more : List (Operator × String)), t.WellGrouped ∧ level < t.level ∧ t.first = first ∧
      t.rest ++ more = rest ∧ (∀ item ∈ more.head?, item.1.level = level) ∧
      Parses operand t.expr (.name first :: (Flat.kindsOf rest ++ after)) (Flat.kindsOf more ++ after) := by
  let tighter (item : Operator × String) : Bool := decide (level < item.1.level)
  have both : rest.takeWhile tighter ++ rest.dropWhile tighter = rest := List.takeWhile_append_dropWhile
  have next : ∀ item ∈ (rest.dropWhile tighter).head?, item.1.level = level := by
    intro item first
    have stop := List.head?_dropWhile_not tighter rest
    rw [first] at stop
    have least := levels item (both ▸ List.mem_append_right _ (List.mem_of_head? first))
    exact Nat.le_antisymm (Nat.le_of_not_lt (of_decide_eq_false stop)) least
  have looser : EndsBelow (level + 1) (Flat.kindsOf (rest.dropWhile tighter) ++ after) := by
    cases left : rest.dropWhile tighter with
    | nil => exact ends.mono (Nat.le_succ level)
    | cons item more =>
      rw [left] at next
      exact .of_operator (Nat.lt_succ_of_le (Nat.le_of_eq (next item rfl))) _
  have above : ∀ item ∈ rest.takeWhile tighter, level < item.1.level := by
    intro item mem
    have passed : tighter item = true := List.mem_takeWhile_imp mem
    exact of_decide_eq_true passed
  obtain ⟨t, grouped, tight, same, read⟩ := groups first (rest.takeWhile tighter) _ named
    (admitted.part (List.takeWhile_prefix _).isInfix) above looser
  obtain ⟨firsts, rests⟩ := Flat.mk.inj same
  refine ⟨t, rest.dropWhile tighter, grouped, tight, firsts, rests ▸ both, next, ?_⟩
  rw [← List.append_assoc, ← Flat.kindsOf_append, both] at read
  exact read

/-- A chain whose first operands are joined goes on with the operators that are left. -/
theorem Parses.chainTurns (groups : Groups powers (level + 1) operand) (offers : Offers level next?)
    (from_left : level < 4) (ends : EndsBelow level after) {n count : Nat} {left : Grouping}
    (grouped : left.WellGrouped) (tight : level ≤ left.level) (admitted : Admitted powers rest)
    (levels : ∀ item ∈ rest, level ≤ item.1.level) (next : ∀ item ∈ rest.head?, item.1.level = level)
    (few : count + rest.length ≤ Grammar.maxChain) (long : rest.length < n) :
    ∃ t : Grouping, t.WellGrouped ∧ level ≤ t.level ∧ t.flat = ⟨left.first, left.rest ++ rest⟩ ∧
      Parses (turns (chainTurn operand next?) n (left.expr, count)) t.expr (Flat.kindsOf rest ++ after) after := by
  induction n generalizing rest left count with
  | zero => cases long
  | succ n ih =>
    cases rest with
    | nil =>
      refine ⟨left, grouped, tight, by rw [List.append_nil]; rfl, ?_⟩
      have turn : Parses (chainTurn operand next? (left.expr, count)) (.inr left.expr) after after :=
        (offers.stops after ends).andThen .done
      exact turn.andThen .done
    | cons item rest =>
      obtain ⟨op, name⟩ := item
      obtain rfl : op.level = level := next _ rfl
      rw [List.length_cons] at few long
      rw [List.forall_mem_cons] at levels
      obtain ⟨named, -⟩ := List.forall_mem_cons.1 admitted.named
      have behind : Admitted powers rest := admitted.part (List.suffix_cons _ rest).isInfix
      obtain ⟨right, more, right_grouped, right_tight, rfl, rfl, next', operand_read⟩ :=
        groups.split named behind levels.2 ends
      have length : (right.rest ++ more).length = right.rest.length + more.length := List.length_append
      have beside : ¬op.fromRight := fun h => Nat.ne_of_lt from_left ((Operator.fromRight_iff op).1 h)
      obtain ⟨t, t_grouped, t_tight, same, read⟩ :=
        @ih more (count + 1) (.join op left right)
          ⟨grouped, right_grouped, (if_neg beside).symm ▸ ⟨tight, right_tight⟩⟩ (Nat.le_refl _)
          (behind.part (List.suffix_append _ more).isInfix)
          (fun item mem => levels.2 item (List.mem_append_right _ mem)) next' (by omega) (by omega)
      refine ⟨t, t_grouped, t_tight, ?_, ?_⟩
      · rw [same]
        simp [Grouping.first, Grouping.rest]
      have turn : Parses (chainTurn operand next? (left.expr, count))
          (.inl ((Grouping.join op left right).expr, count + 1))
          (op.kind :: .name right.first :: (Flat.kindsOf (right.rest ++ more) ++ after))
          (Flat.kindsOf more ++ after) :=
        (offers.takes op rfl _).andThen ((Parses.chainStep (by omega)).andThen (operand_read.andThen .done))
      exact turn.andThen read

theorem Groups.chain (groups : Groups powers (level + 1) operand) (offers : Offers level next?)
    (from_left : level < 4) : Groups powers level (chain operand next?) := by
  intro first rest after named admitted levels ends
  obtain ⟨left, more, grouped, tight, rfl, rfl, next, read⟩ := groups.split named admitted levels ends
  have part : more <:+: left.rest ++ more := (List.suffix_append _ more).isInfix
  have count : 0 + more.length ≤ Grammar.maxChain := by
    rw [Nat.zero_add]
    exact part.length_le.trans admitted.short
  have turns (n : Nat) := @Parses.chainTurns operand next? powers level more after groups offers from_left ends n 0
    left grouped tight.le (admitted.part part) (fun item mem => levels item (List.mem_append_right _ mem)) next count
  -- There is only one such tree, so it is the same whatever the number of turns.
  obtain ⟨t, t_grouped, t_tight, same, -⟩ := turns (more.length + 1) (Nat.lt_succ_self _)
  refine ⟨t, t_grouped, t_tight, same, ?_⟩
  rw [chain_eq]
  refine read.andThen (.repeatFrom fun n long => ?_)
  rw [List.length_append] at long
  have enough : more.length < n := (Flat.length_le_kindsOf more).trans_lt ((Nat.le_add_right _ _).trans_lt long)
  obtain ⟨t', other_grouped, -, same', read'⟩ := turns n enough
  rwa [Grouping.eq_of_flat t_grouped other_grouped (same'.trans same.symm)] at read'

end

/-! ### The levels together -/

section

variable {template : TemplateReader} {k : Level} {powers level : Nat} {p : Parser Expr} {after : List TokenKind}

theorem Parses.eatOneOf {α : Type} {ops : List (Symbol × α)} {s : Symbol} {a : α} (found : ops.lookup s = some a)
    (more : List TokenKind) : Parses (eatOneOf ops) (some a) (.symbol s :: more) more := by
  induction ops with
  | nil => cases found
  | cons op ops ih =>
    by_cases same : s = op.1
    · subst same
      rw [List.lookup_cons_self] at found
      exact found ▸ eat.andThen done
    · have found' : ops.lookup s = some a := by
        rw [List.lookup_cons, beq_false_of_ne same] at found
        exact found
      have other : TokenKind.symbol s ≠ .symbol op.1 := fun h => same (TokenKind.symbol.inj h)
      exact (eat_other other).andThen (ih found')

theorem EndsBelow.eatOneOf {α : Type} {ops : List (Symbol × α)} (ends : EndsBelow level after)
    (other : ∀ op ∈ ops, .symbol op.1 ∉ enders level) : Parses (eatOneOf ops) none after after := by
  induction ops with
  | nil => exact .done
  | cons op ops ih =>
    rw [List.forall_mem_cons] at other
    exact (ends.eat other.1).andThen (ih other.2)

theorem offers_term :
    Offers 3 (binaryOf [(.star, .mul), (.slash, .div), (.floorDiv, .floorDiv), (.percent, .mod)]) where
  takes op same more := by
    have listed : op ∈ [.binary .mul, .binary .div, .binary .floorDiv, .binary .mod] :=
      (by decide : ∀ op ∈ Operator.all, op.level = 3 → op ∈ _) op op.mem_all same
    simp only [List.mem_cons, List.not_mem_nil, or_false] at listed
    rcases listed with rfl | rfl | rfl | rfl <;> exact (Parses.eatOneOf rfl more).andThen .done
  stops after ends := (ends.eatOneOf (by decide)).andThen .done

theorem offers_arith : Offers 2 (binaryOf [(.plus, .add), (.minus, .sub)]) where
  takes op same more := by
    have listed : op ∈ [.binary .add, .binary .sub] :=
      (by decide : ∀ op ∈ Operator.all, op.level = 2 → op ∈ _) op op.mem_all same
    simp only [List.mem_cons, List.not_mem_nil, or_false] at listed
    rcases listed with rfl | rfl <;> exact (Parses.eatOneOf rfl more).andThen .done
  stops after ends := (ends.eatOneOf (by decide)).andThen .done

/-- One operator that is a word. -/
theorem offers_word (op : Operator) {word : String} (kind : op.kind = .name word)
    (only : ∀ other ∈ Operator.all, other.level = op.level → other = op) (outside : .name word ∉ enders op.level) :
    Offers op.level (joinWord word op.join) where
  takes other same more := by
    obtain rfl := only other other.mem_all same
    rw [kind]
    exact Parses.eat.andThen .done
  stops after ends := (ends.eat outside).andThen .done

/-- There is no comparison. -/
theorem Groups.comparison (groups : Groups powers 2 (arith template k)) :
    Groups powers 2 (Grammar.comparison template k) := by
  intro first rest after named admitted levels ends
  obtain ⟨t, grouped, tight, same, read⟩ := groups first rest after named admitted levels ends
  refine ⟨t, grouped, tight, same, ?_⟩
  have none : Parses compareOp none after after := by
    obtain ⟨kind, mem, more, rfl⟩ := ends
    have all : enders 2 = closers ++ [.name "or", .name "and"] := by decide
    rw [all] at mem
    simp only [closers, List.cons_append, List.nil_append, List.mem_cons, List.not_mem_nil, or_false] at mem
    refine Parses.peek.andThen ?_
    rcases mem with rfl | rfl | rfl | rfl | rfl | rfl | rfl | rfl | rfl | rfl | rfl <;> exact .done
  refine read.andThen (Parses.andThen (x := []) (.repeatFrom fun n positive => ?_) .done)
  obtain ⟨n, rfl⟩ := Nat.exists_eq_succ_of_ne_zero (Nat.ne_of_gt (Nat.zero_lt_of_lt positive))
  exact Parses.andThen (x := .inr []) (none.andThen .done) .done

/-- There is no `not`. -/
theorem Groups.negation (groups : Groups powers 2 (Grammar.comparison template k)) :
    Groups powers 2 (Grammar.negation template k) := by
  intro first rest after named admitted levels ends
  obtain ⟨t, grouped, tight, same, read⟩ := groups first rest after named admitted levels ends
  have other : TokenKind.name first ≠ .name "not" :=
    fun word => named.ne_keyword (by decide) (TokenKind.name.inj word)
  exact ⟨t, grouped, tight, same, (Parses.eat_other other).andThen read⟩

/-- There is no `if`. -/
theorem Groups.conditional (groups : Groups powers 0 (orTest template k)) :
    Groups powers 0 (Grammar.conditional template k) := by
  intro first rest after named admitted levels ends
  obtain ⟨t, grouped, tight, same, read⟩ := groups first rest after named admitted levels ends
  exact ⟨t, grouped, tight, same, read.andThen ((ends.eat (by decide)).andThen .done)⟩

/-- Where an expression is expected, all operators are grouped. -/
theorem groups_expr {fuel room : Nat} (fueled : powers ≤ fuel) (roomy : powers ≤ room) :
    Groups powers 0 (read template (fuel + 1) room .expr) := by
  rw [Grammar.read]
  have terms := (@Groups.factor template powers fuel room fueled roomy).chain offers_term (by decide)
  have sums := terms.chain offers_arith (by decide)
  have ands := sums.comparison.negation.chain (offers_word .and rfl (by decide) (by decide)) (by decide)
  have ors := ands.chain (offers_word .or rfl (by decide) (by decide)) (by decide)
  exact ors.conditional

end

/-! ### The whole text -/

theorem Makes.operator (op : Operator) (rest : List Char) : Makes op.text.toList [op.kind] (' ' :: rest) := by
  have stops : Delimits (' ' :: rest) := .cons (by decide) rest
  cases op with
  | or => exact .name (by decide) (by decide) stops
  | and => exact .name (by decide) (by decide) stops
  | binary op => cases op <;> exact .of_step (by decide) fun _ _ => rfl

namespace Flat

theorem delimits_chars (rest : List (Operator × String)) : Delimits (chars rest) := by
  cases rest with
  | nil => exact .nil
  | cons => exact .cons (by decide) _

theorem makes_chars {rest : List (Operator × String)} (names : ∀ item ∈ rest, IsName item.2) :
    Makes (chars rest) (kindsOf rest) [] := by
  induction rest with
  | nil => exact .nil []
  | cons item rest ih =>
    rw [List.forall_mem_cons] at names
    have stops : Delimits (chars rest ++ []) := by
      rw [List.append_nil]
      exact delimits_chars rest
    have name := (names.1.makes stops).append (ih names.2)
    have all := Makes.space.append ((Makes.operator item.1 _).append (Makes.space.append name))
    simpa [chars, kindsOf] using all

theorem exists_last (flat : Flat) : ∃ front name, flat.kinds = front ++ [.name name] := by
  rcases List.eq_nil_or_concat flat.rest with none | ⟨rest, item, same⟩
  · exact ⟨[], flat.first, by rw [kinds, none]; rfl⟩
  · exact ⟨.name flat.first :: (kindsOf rest ++ [item.1.kind]), item.2, by simp [kinds, same, kindsOf]⟩

theorem tokenize_text {flat : Flat} (first : IsName flat.first) (names : ∀ item ∈ flat.rest, IsName item.2) :
    tokenize flat.text = .ok (onFirst (flat.kinds ++ [.newline, .eof])) := by
  have stops : Delimits (chars flat.rest ++ []) := by
    rw [List.append_nil]
    exact delimits_chars flat.rest
  have all : Makes (flat.first.toList ++ chars flat.rest) flat.kinds [] :=
    (first.makes stops).append (makes_chars names)
  obtain ⟨front, name, last⟩ := flat.exists_last
  obtain ⟨c, cs, spelled, start, -⟩ := first.spelled
  have text : flat.first.toList ++ chars flat.rest = c :: (cs ++ chars flat.rest) := by
    rw [spelled, String.toList_ofList, List.cons_append]
  rw [last, text] at all
  have tokens := tokenize_of_makes (visible_of_isNameStart start) all ⟨nofun, nofun, nofun⟩
  rw [← text] at tokens
  rw [Flat.text, tokens, last, List.append_assoc]
  rfl

end Flat

/-- A word that is no keyword begins no statement but an expression. -/
theorem IsName.simple {name : String} (named : IsName name) {k : Level} {s : Surroundings} {kind : StmtKind}
    {kinds after : List TokenKind} (read : Parses (Statement.fromExpr k) kind (.name name :: kinds) after) :
    Parses (Statement.simple k s) kind (.name name :: kinds) after := by
  refine Parses.peek.andThen ?_
  split
  case h_10 => exact read
  all_goals
    next same => exact absurd (TokenKind.name.inj same) (named.ne_keyword (by decide))

theorem IsName.compound?_eq_none {name : String} (named : IsName name) (k : Level)
    (inner : Surroundings → Parser (List Stmt)) (s : Surroundings) : Statement.compound? k inner s name = none := by
  unfold Statement.compound?
  split
  case h_6 => rfl
  all_goals exact absurd rfl (named.ne_keyword (by decide))

section

variable {flat : Flat} {t : Grouping}

/-- Where a statement begins, the expression is read up to the end of the line. -/
theorem parses_exprList (template : TemplateReader) (grouped : t.WellGrouped) (same : t.flat = flat)
    (first : IsName flat.first) (admitted : Admitted (maxNesting - 1) flat.rest) {size : Nat}
    (long : flat.rest.length ≤ size) :
    Parses (exprList (outermost template size)) t.expr (flat.kinds ++ [.newline, .eof]) [.newline, .eof] := by
  let powers := min (maxNesting - 1) flat.rest.length
  have few : Admitted powers flat.rest :=
    { admitted with nested := fun run part all => le_min (admitted.nested run part all) part.length_le }
  have ends : EndsBelow 0 [.newline, .eof] := ⟨.newline, by decide, [.eof], rfl⟩
  have fueled : powers ≤ 2 * size + 1 := (min_le_right _ _).trans (by omega)
  obtain ⟨t', grouped', -, same', read⟩ := @groups_expr template powers (2 * size + 1) (maxNesting - 1) fueled
    (min_le_left _ _) flat.first flat.rest _ first few (fun _ _ => Nat.zero_le _) ends
  rw [Grouping.eq_of_flat grouped grouped' (same'.trans same.symm)] at read
  have expr : Parses (outermost template size).expr t.expr (flat.kinds ++ [.newline, .eof]) [.newline, .eof] := read
  exact expr.andThen ((Parses.check_other (by decide)).andThen .done)

theorem parses_simple (template : TemplateReader) (grouped : t.WellGrouped) (same : t.flat = flat)
    (first : IsName flat.first) (admitted : Admitted (maxNesting - 1) flat.rest) {size : Nat}
    (long : flat.rest.length ≤ size) :
    Parses (Statement.simple (outermost template size) .outermost) (.expr t.expr) (flat.kinds ++ [.newline, .eof])
      [.newline, .eof] := by
  refine first.simple ?_
  refine (parses_exprList template grouped same first admitted long).andThen (Parses.peek.andThen ?_)
  exact (Parses.check_other (by decide)).andThen .done

/-- A text with these tokens and nothing else is a program that is the expression. -/
theorem parse_of_kinds (grouped : t.WellGrouped) (same : t.flat = flat) (first : IsName flat.first)
    (admitted : Admitted (maxNesting - 1) flat.rest) {source : String} {tokens : List Token}
    (tokenized : tokenize source = .ok tokens) (kinds : tokens.map (·.kind) = flat.kinds ++ [.newline, .eof]) :
    parse source = .ok [.mk (Cursor.ofTokens tokens).line (.expr t.expr)] := by
  have faces : (Cursor.ofTokens tokens).Faces (flat.kinds ++ [.newline, .eof]) := ⟨kinds, Nat.le_refl _⟩
  have long : flat.rest.length < (Cursor.ofTokens tokens).size := by
    have count := congrArg List.length kinds
    have least := Flat.length_le_kindsOf flat.rest
    simp only [List.length_map, List.length_append, Flat.kinds, List.length_cons] at count
    change flat.rest.length < tokens.length
    omega
  obtain ⟨rest, simple, ends⟩ :=
    parses_simple (template (source.length + 1)) grouped same first admitted long.le _ faces
  have ahead : rest.map (·.kind) = [.newline, .eof] := ends.ahead
  obtain ⟨⟨_, ended⟩, more, rfl, rfl, behind⟩ := List.map_eq_cons_iff.1 ahead
  obtain ⟨⟨_, last⟩, none, rfl, rfl, empty⟩ := List.map_eq_cons_iff.1 behind
  obtain rfl := List.map_eq_nil_iff.1 empty
  obtain ⟨line, more, starts, -⟩ := faces.next
  have unreserved : reservedWords.contains flat.first = false := by simpa using first.free.2
  rw [starts] at simple
  have read := program_line (fun k inner => first.compound?_eq_none k inner _) unreserved
    (Nat.zero_lt_of_lt long) simple
  rw [← starts] at read
  have line_starts : (Cursor.ofTokens tokens).line = line := congrArg Cursor.line starts
  exact parse_ok.2 ⟨tokens, _, tokenized, line_starts ▸ read⟩

/-- A flat expression of names is read, however it is laid out in the text. There is one tree that has these names and
operators from left to right in which each operator binds as tight as it should, and it is the tree that is read. -/
theorem parse_flat (flat : Flat) (first : IsName flat.first) (admitted : Admitted (maxNesting - 1) flat.rest) :
    ∃ t : Grouping, (t.WellGrouped ∧ t.flat = flat) ∧
      (∀ other : Grouping, other.WellGrouped ∧ other.flat = flat → other = t) ∧
      parse flat.text = .ok [.mk 1 (.expr t.expr)] ∧
      ∀ source tokens, tokenize source = .ok tokens → tokens.map (·.kind) = flat.kinds ++ [.newline, .eof] →
        parse source = .ok [.mk (Cursor.ofTokens tokens).line (.expr t.expr)] := by
  have ends : EndsBelow 0 [.eof] := ⟨.eof, by decide, [], rfl⟩
  obtain ⟨t, grouped, -, same, -⟩ := @groups_expr (template 0) (maxNesting - 1) (maxNesting - 1) (maxNesting - 1)
    (Nat.le_refl _) (Nat.le_refl _) flat.first flat.rest _ first admitted (fun _ _ => Nat.zero_le _) ends
  refine ⟨t, ⟨grouped, same⟩, fun other h => Grouping.eq_of_flat grouped h.1 (h.2.trans same.symm), ?_, ?_⟩
  · have kinds : (onFirst (flat.kinds ++ [.newline, .eof])).map (·.kind) = flat.kinds ++ [.newline, .eof] := by
      rw [onFirst, List.map_map]
      exact List.map_id _
    exact parse_of_kinds grouped same first admitted (Flat.tokenize_text first admitted.named) kinds
  · intro source tokens tokenized kinds
    exact parse_of_kinds grouped same first admitted tokenized kinds

/-- Subtractions from the left, powers from the right, and the loosest operator last. -/
theorem parse_differences_and_powers :
    (IsName "a" ∧ Admitted (maxNesting - 1) [(.binary .sub, "b"), (.binary .sub, "c"), (.binary .pow, "d"),
      (.binary .pow, "e"), (.or, "f")]) ∧
    parse "a - b - c ** d ** e or f" = .ok [.mk 1 (.expr (.or
      (.binary .sub (.binary .sub (.name "a") (.name "b"))
        (.binary .pow (.name "c") (.binary .pow (.name "d") (.name "e"))))
      (.name "f")))] := by
  let flat : Flat := ⟨"a", [(.binary .sub, "b"), (.binary .sub, "c"), (.binary .pow, "d"), (.binary .pow, "e"),
    (.or, "f")]⟩
  have letter (c : Char) (start : isNameStart c = true)
      (free : String.ofList [c] ∉ keywords ∧ String.ofList [c] ∉ reservedWords) : IsName (String.ofList [c]) :=
    ⟨⟨c, [], rfl, start, rfl⟩, free⟩
  have first : IsName "a" := letter 'a' (by decide) (by decide)
  have admitted : Admitted (maxNesting - 1) flat.rest := by
    refine ⟨?_, by decide, fun run part _ => part.length_le.trans (by decide)⟩
    simp only [flat, List.forall_mem_cons]
    exact ⟨letter 'b' (by decide) (by decide), letter 'c' (by decide) (by decide), letter 'd' (by decide) (by decide),
      letter 'e' (by decide) (by decide), letter 'f' (by decide) (by decide), List.forall_mem_nil _⟩
  obtain ⟨t, -, only, read, -⟩ := parse_flat flat first admitted
  refine ⟨⟨first, admitted⟩, ?_⟩
  have text : flat.text = "a - b - c ** d ** e or f" := by decide
  rw [text, ← only (.join .or (.join (.binary .sub) (.join (.binary .sub) (.name "a") (.name "b"))
    (.join (.binary .pow) (.name "c") (.join (.binary .pow) (.name "d") (.name "e")))) (.name "f"))
    ⟨by decide, rfl⟩] at read
  exact read

end

end SnippetKernel.Source
