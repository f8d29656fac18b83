import SnippetKernel.Proofs.Source.Lexing
import SnippetKernel.Proofs.Source.Operands
import SnippetKernel.Proofs.Source.Rules
import SnippetKernel.Proofs.Value.Datum
import SnippetKernel.Source.Parser

/-! Data in the source of a program. What is written for a datum is read as an expression of its shape, as
long as the least integer is not in it: that one is written as a sign and a number that is too large. -/
namespace SnippetKernel

open Source

namespace Datum

def commaKind (first : Bool) : List TokenKind := if first then [] else [.symbol .comma]

mutual

/-- The tokens of a datum. -/
def kinds : Datum → List TokenKind
  | none => [.name "None"]
  | bool b => [.name (if b then "True" else "False")]
  | int i => if i.toInt < 0 then [.symbol .minus, .int (-i)] else [.int i]
  | str text => [.str text]
  | list items => .symbol .openBracket :: (kindsOfAll true items ++ [.symbol .closeBracket])
  | tuple items =>
    .symbol .openParen ::
      (kindsOfAll true items ++ (commaKind (items.length ≠ 1) ++ [.symbol .closeParen]))
  | dict entries => .symbol .openBrace :: (kindsOfEntries true entries ++ [.symbol .closeBrace])

def kindsOfAll (first : Bool) : List Datum → List TokenKind
  | [] => []
  | d :: rest => commaKind first ++ (d.kinds ++ kindsOfAll false rest)

def kindsOfEntries (first : Bool) : List (Datum × Datum) → List TokenKind
  | [] => []
  | (key, value) :: rest =>
    commaKind first ++ (key.kinds ++ (.symbol .colon :: (value.kinds ++ kindsOfEntries false rest)))

end

mutual

/-- The expression that a datum is read as. -/
def expr : Datum → Expr
  | none => .literal .none
  | bool b => .literal (.bool b)
  | int i => .literal (.int i)
  | str text => .literal (.str text)
  | list items => .list (exprs items)
  | tuple items => .tuple (exprs items)
  | dict entries => .dict (exprsOfEntries entries)

def exprs : List Datum → List Expr
  | [] => []
  | d :: rest => d.expr :: exprs rest

def exprsOfEntries : List (Datum × Datum) → List (Expr × Expr)
  | [] => []
  | (key, value) :: rest => (key.expr, value.expr) :: exprsOfEntries rest

end

/-! ### Tokens -/

/-- Only the least integer has no opposite. -/
theorem toInt_neg {i : Int64} (least : i ≠ Int64.minValue) : (-i).toInt = -i.toInt := by
  have low := i.minValue_le_toInt
  have high := i.toInt_le
  have other : i.toInt ≠ Int64.minValue.toInt := fun same => least (Int64.toInt_inj.1 same)
  have bounds : Int64.minValue.toInt = -9223372036854775808 ∧ Int64.maxValue.toInt = 9223372036854775807 := by
    decide
  rw [Int64.toInt_neg, Int.bmod_eq_of_le] <;> omega

/-- A number of items, with what stands between them. -/
theorem makes_comma (first : Bool) {rest : List Char} : Makes (comma first) (commaKind first) rest := by
  cases first
  · exact (Makes.symbol (s := .comma) (by decide)).append Makes.space
  · exact .nil rest

theorem makes_int {i : Int64} (least : i ≠ Int64.minValue) {rest : List Char} (stops : Delimits rest) :
    Makes (int i).chars (int i).kinds rest := by
  rw [chars, kinds]
  split
  · next negative =>
    have opposite := toInt_neg least
    cases value : i.toInt with
    | ofNat n => exact absurd negative (Int.not_lt.2 (value ▸ Int.natCast_nonneg n))
    | negSucc n =>
      have fits : narrow? ((n + 1 : Nat) : Int) = some (-i) := by
        rw [← narrow?_toInt (-i), opposite, value]
        rfl
      have text : (toString (Int.negSucc n)).toList = ['-'] ++ Nat.toDigits 10 (n + 1) := by
        change ("-" ++ Nat.repr (n + 1)).toList = _
        rw [String.toList_append, Nat.toList_repr]
        rfl
      rw [text]
      exact Makes.minus.append (.nat fits stops)
  · next positive =>
    cases value : i.toInt with
    | negSucc n => omega
    | ofNat n =>
      have fits : narrow? ((n : Nat) : Int) = some i := by
        rw [← narrow?_toInt i, value]
        rfl
      have text : (toString (Int.ofNat n)).toList = Nat.toDigits 10 n := Nat.toList_repr
      rw [text]
      exact .nat fits stops

/-- What stands behind an item delimits it. -/
theorem delimits_charsOfAll (items : List Datum) {rest : List Char} (stops : Delimits rest) :
    Delimits (charsOfAll false items ++ rest) := by
  cases items with
  | nil => exact stops
  | cons d items => exact .cons (by decide) _

theorem delimits_charsOfEntries (entries : List (Datum × Datum)) {rest : List Char} (stops : Delimits rest) :
    Delimits (charsOfEntries false entries ++ rest) := by
  cases entries with
  | nil => exact stops
  | cons entry entries => exact .cons (by decide) _

theorem makes_all {items : List Datum} (each : ∀ d ∈ items, ∀ rest, Delimits rest → Makes d.chars d.kinds rest)
    (first : Bool) {rest : List Char} (stops : Delimits rest) :
    Makes (charsOfAll first items) (kindsOfAll first items) rest := by
  induction items generalizing first with
  | nil => exact .nil rest
  | cons d items ih =>
    rw [List.forall_mem_cons] at each
    rw [charsOfAll, kindsOfAll, List.append_assoc]
    refine (makes_comma first).append ((each.1 _ ?_).append (ih each.2 false))
    exact delimits_charsOfAll items stops

theorem makes_entries {entries : List (Datum × Datum)} (each : ∀ entry ∈ entries,
      (∀ rest, Delimits rest → Makes entry.1.chars entry.1.kinds rest) ∧
        ∀ rest, Delimits rest → Makes entry.2.chars entry.2.kinds rest)
    (first : Bool) {rest : List Char} (stops : Delimits rest) :
    Makes (charsOfEntries first entries) (kindsOfEntries first entries) rest := by
  induction entries generalizing first with
  | nil => exact .nil rest
  | cons entry entries ih =>
    rw [List.forall_mem_cons] at each
    have colon {more : List Char} : Makes [':', ' '] [.symbol .colon] more :=
      (Makes.symbol (s := .colon) (by decide)).append Makes.space
    rw [charsOfEntries, kindsOfEntries]
    simp only [List.append_assoc]
    refine (makes_comma first).append ((each.1.1 _ (.cons (by decide) _)).append ?_)
    refine colon.append ((each.1.2 _ ?_).append (ih each.2 false))
    exact delimits_charsOfEntries entries stops

/-- A datum is scanned as its tokens. -/
theorem makes (d : Datum) (least : Int64.minValue ∉ d.ints) {rest : List Char} (stops : Delimits rest) :
    Makes d.chars d.kinds rest := by
  induction d using induct generalizing rest with
  | none => exact @Makes.name 'N' ['o', 'n', 'e'] _ (by decide) (by decide) stops
  | bool b =>
    cases b
    · exact @Makes.name 'F' ['a', 'l', 's', 'e'] _ (by decide) (by decide) stops
    · exact @Makes.name 'T' ['r', 'u', 'e'] _ (by decide) (by decide) stops
  | int i => exact makes_int (fun same => least (List.mem_singleton.2 same.symm)) stops
  | str text => exact .quoted text stops
  | list items ih =>
    have each (d : Datum) (mem : d ∈ items) (rest : List Char) (stops : Delimits rest) :=
      ih d mem (fun inside => least (ints_subset_of_mem mem inside)) stops
    rw [chars, kinds]
    refine (Makes.symbol (s := .openBracket) (by decide)).append ?_
    exact (makes_all each true (.cons (by decide) _)).append (Makes.symbol (s := .closeBracket) (by decide))
  | tuple items ih =>
    have each (d : Datum) (mem : d ∈ items) (rest : List Char) (stops : Delimits rest) :=
      ih d mem (fun inside => least (ints_subset_of_mem mem inside)) stops
    have close {rest : List Char} : Makes [')'] [.symbol .closeParen] rest :=
      Makes.symbol (s := .closeParen) (by decide)
    rw [chars, kinds]
    refine (Makes.symbol (s := .openParen) (by decide)).append ?_
    by_cases one : items.length = 1
    · rw [if_pos one, decide_eq_false (not_not_intro one)]
      refine (makes_all each true (.cons (by decide) _)).append ?_
      exact (Makes.symbol (s := .comma) (by decide)).append close
    · rw [if_neg one, decide_eq_true one]
      exact (makes_all each true (.cons (by decide) _)).append close
  | dict entries ih =>
    have each (entry : Datum × Datum) (mem : entry ∈ entries) :
        (∀ rest, Delimits rest → Makes entry.1.chars entry.1.kinds rest) ∧
          ∀ rest, Delimits rest → Makes entry.2.chars entry.2.kinds rest := by
      obtain ⟨key, value⟩ := ints_subset_of_mem_entries mem
      exact ⟨fun _ stops => (ih entry mem).1 (fun inside => least (key inside)) stops,
        fun _ stops => (ih entry mem).2 (fun inside => least (value inside)) stops⟩
    rw [chars, kinds]
    refine (Makes.symbol (s := .openBrace) (by decide)).append ?_
    exact (makes_entries each true (.cons (by decide) _)).append (Makes.symbol (s := .closeBrace) (by decide))

/-! ### What is refused -/

theorem refused_least {rest : List Char} (stops : Delimits rest) :
    Refused (int Int64.minValue).chars (tooLarge 1) rest := by
  have outside : narrow? ((9223372036854775808 : Nat) : Int) = Option.none := by decide
  exact .after (@Makes.minus 9223372036854775808 rest) (.nat outside stops)

theorem refused_all {items : List Datum} (least : Int64.minValue ∈ intsOfAll items)
    (each : ∀ d ∈ items, Int64.minValue ∈ d.ints → ∀ rest, Delimits rest → Refused d.chars (tooLarge 1) rest)
    (first : Bool) {rest : List Char} (stops : Delimits rest) :
    Refused (charsOfAll first items) (tooLarge 1) rest := by
  induction items generalizing first with
  | nil => exact absurd least List.not_mem_nil
  | cons d items ih =>
    rw [List.forall_mem_cons] at each
    have delimited := delimits_charsOfAll items stops
    rw [charsOfAll, List.append_assoc]
    by_cases here : Int64.minValue ∈ d.ints
    · exact .after (makes_comma first) (.before (each.1 here _ delimited))
    · have later := ih ((List.mem_append.1 least).resolve_left here) each.2 false
      exact .after (makes_comma first) (.after (d.makes here delimited) later)

theorem refused_entries {entries : List (Datum × Datum)} (least : Int64.minValue ∈ intsOfEntries entries)
    (each : ∀ entry ∈ entries,
      (Int64.minValue ∈ entry.1.ints → ∀ rest, Delimits rest → Refused entry.1.chars (tooLarge 1) rest) ∧
        (Int64.minValue ∈ entry.2.ints → ∀ rest, Delimits rest → Refused entry.2.chars (tooLarge 1) rest))
    (first : Bool) {rest : List Char} (stops : Delimits rest) :
    Refused (charsOfEntries first entries) (tooLarge 1) rest := by
  induction entries generalizing first with
  | nil => exact absurd least List.not_mem_nil
  | cons entry entries ih =>
    rw [List.forall_mem_cons] at each
    have colon {more : List Char} : Makes [':', ' '] [.symbol .colon] more :=
      (Makes.symbol (s := .colon) (by decide)).append Makes.space
    have delimited := delimits_charsOfEntries entries stops
    have separated (more : List Char) : Delimits ([':', ' '] ++ more) := .cons (by decide) _
    rw [charsOfEntries]
    simp only [List.append_assoc]
    refine .after (makes_comma first) ?_
    by_cases in_key : Int64.minValue ∈ entry.1.ints
    · exact .before (each.1.1 in_key _ (separated _))
    refine .after (entry.1.makes in_key (separated _)) (.after colon ?_)
    by_cases in_value : Int64.minValue ∈ entry.2.ints
    · exact .before (each.1.2 in_value _ delimited)
    have later : Int64.minValue ∈ intsOfEntries entries := by
      rw [intsOfEntries, List.mem_append, List.mem_append] at least
      exact least.resolve_left (not_or.2 ⟨in_key, in_value⟩)
    exact .after (entry.2.makes in_value delimited) (ih later each.2 false)

/-- A datum with the least integer in it cannot even be scanned. -/
theorem refused (d : Datum) (least : Int64.minValue ∈ d.ints) {rest : List Char} (stops : Delimits rest) :
    Refused d.chars (tooLarge 1) rest := by
  induction d using induct generalizing rest with
  | none => exact absurd least List.not_mem_nil
  | bool b => exact absurd least List.not_mem_nil
  | int i =>
    rw [ints, List.mem_singleton] at least
    exact least ▸ refused_least stops
  | str text => exact absurd least List.not_mem_nil
  | list items ih =>
    have inside := refused_all least (fun d mem inside _ stops => ih d mem inside stops) true
      (Delimits.cons (c := ']') (by decide) rest)
    exact .after (Makes.symbol (s := .openBracket) (by decide)) (.before inside)
  | tuple items ih =>
    have inside (more : List Char) (stops : Delimits more) :=
      refused_all least (fun d mem inside _ stops => ih d mem inside stops) true stops
    rw [chars]
    refine .after (Makes.symbol (s := .openParen) (by decide)) (.before (inside _ ?_))
    split <;> exact .cons (by decide) _
  | dict entries ih =>
    have inside := refused_entries least (fun entry mem =>
      ⟨fun inside _ stops => (ih entry mem).1 inside stops, fun inside _ stops => (ih entry mem).2 inside stops⟩)
      true (Delimits.cons (c := '\x7d') (by decide) rest)
    exact .after (Makes.symbol (s := .openBrace) (by decide)) (.before inside)

/-! ### Expressions -/

open Source.Parser Grammar

/-- No datum begins like what could end a list, with a plus or with `not`. -/
theorem first_kind (d : Datum) : ∃ kind more, d.kinds = kind :: more ∧ kind ∉ closers ∧
    kind ≠ .symbol .plus ∧ kind ≠ .name "not" := by
  cases d with
  | none => exact ⟨_, _, rfl, by decide⟩
  | bool b => cases b <;> exact ⟨_, _, rfl, by decide⟩
  | int i =>
    rw [kinds]
    split
    · exact ⟨_, _, rfl, by decide⟩
    · exact ⟨_, _, rfl, by simp [closers]⟩
  | str text => exact ⟨_, _, rfl, by simp [closers]⟩
  | list items => exact ⟨_, _, rfl, by decide⟩
  | tuple items => exact ⟨_, _, rfl, by decide⟩
  | dict entries => exact ⟨_, _, rfl, by decide⟩

/-- With enough fuel and room, the tokens of the datum are read as its expression. -/
def Parses (d : Datum) : Prop :=
  ∀ template fuel room (c : Cursor) rest, 2 * d.depth + 2 ≤ fuel → 2 * d.depth + 1 ≤ room →
    d.kinds.length ≤ c.size → (c.on rest).peek ∈ closers →
    Grammar.read template fuel room .expr (c.on (onFirst d.kinds ++ rest)) = .ok (d.expr, c.on rest)

section

variable {template : TemplateReader} {k : Level} {c : Cursor} {tokens rest : List Token} {kind : TokenKind}
  {e : Expr}

/-- An atom that is an expression by itself. -/
theorem conditional_of_atom {line : Nat} (sign : kind ≠ .symbol .minus ∧ kind ≠ .symbol .plus)
    (negated : kind ≠ .name "not") (read : atom template k (c.on (⟨kind, line⟩ :: tokens)) = .ok (e, c.on rest))
    (closes : (c.on rest).peek ∈ closers) :
    conditional template k (c.on (⟨kind, line⟩ :: tokens)) = .ok (e, c.on rest) :=
  conditional_of_factor negated (factor_of_postfixed sign.1 sign.2 (postfixed_of_atom read closes) closes) closes

theorem atom_str {text : String} {line : Nat} (closes : (c.on rest).peek ∈ closers) :
    atom template k (c.on (⟨.str text, line⟩ :: rest)) = .ok (.literal (.str text), c.on rest) := by
  have alone : adjacentStrings template line text Option.none (c.on rest) = .ok (.literal (.str text), c.on rest) := by
    refine repeatFrom_done (before_closer closes fun kind mem => ?_)
    simp only [closers, List.mem_cons, List.not_mem_nil, or_false] at mem
    rcases mem with rfl | rfl | rfl | rfl | rfl | rfl | rfl | rfl | rfl <;> rfl
  exact alone

end

theorem parses_int {i : Int64} (least : i ≠ Int64.minValue) : (int i).Parses := by
  intro template fuel room c rest fueled roomy _ closes
  obtain ⟨fuel, rfl⟩ := Nat.exists_eq_add_of_le' (Nat.le_trans (Nat.le_add_left 2 _) fueled)
  obtain ⟨room, rfl⟩ := Nat.exists_eq_add_of_le' (Nat.le_trans (Nat.le_add_left 1 _) roomy)
  rw [kinds]
  split
  · have opposite : negate (.literal (.int (-i))) = .literal (.int i) := by
      rw [negate, toInt_neg least, Int.neg_neg, narrow?_toInt]
    have inner {k : Level} : factor template k (c.on (⟨.int (-i), 1⟩ :: rest)) =
        .ok (.literal (.int (-i)), c.on rest) :=
      factor_of_postfixed nofun nofun (postfixed_of_atom rfl closes) closes
    refine conditional_of_factor nofun ?_ closes
    refine (bind_of_ok eat_cons).trans ?_
    refine (bind_of_ok inner).trans ?_
    rw [opposite]
    rfl
  · exact conditional_of_atom ⟨nofun, nofun⟩ nofun rfl closes

/-- At this level the tokens of the datum are read as its expression, before anything that closes it. -/
def ReadAt (k : Level) (c : Cursor) (d : Datum) : Prop :=
  ∀ rest, (c.on rest).peek ∈ closers → k.expr (c.on (onFirst d.kinds ++ rest)) = .ok (d.expr, c.on rest)

section

variable {k : Level} {c : Cursor} {rest : List Token} {items : List Datum} {entries : List (Datum × Datum)}

theorem onFirst_append (kinds kinds' : List TokenKind) :
    onFirst (kinds ++ kinds') = onFirst kinds ++ onFirst kinds' := List.map_append

theorem peek_datum (c : Cursor) (d : Datum) (rest : List Token) : (c.on (onFirst d.kinds ++ rest)).peek ∉ closers := by
  obtain ⟨kind, more, same, other, -⟩ := d.first_kind
  rw [same]
  exact other

/-- Behind an item comes a comma, or what ends the list. -/
theorem peek_all (items : List Datum) (closes : (c.on rest).peek ∈ closers) :
    (c.on (onFirst (kindsOfAll false items) ++ rest)).peek ∈ closers := by
  cases items with
  | nil => exact closes
  | cons d items => exact List.mem_cons_self

theorem peek_entries (entries : List (Datum × Datum)) (closes : (c.on rest).peek ∈ closers) :
    (c.on (onFirst (kindsOfEntries false entries) ++ rest)).peek ∈ closers := by
  cases entries with
  | nil => exact closes
  | cons entry entries => exact List.mem_cons_self

theorem length_le_kindsOfEntries (first : Bool) (entries : List (Datum × Datum)) :
    entries.length ≤ (kindsOfEntries first entries).length := by
  induction entries generalizing first with
  | nil => exact Nat.zero_le _
  | cons entry entries ih =>
    have rest := ih false
    simp only [kindsOfEntries, List.length_cons, List.length_append]
    omega

theorem length_le_kindsOfAll (first : Bool) (items : List Datum) :
    items.length ≤ (kindsOfAll first items).length := by
  induction items generalizing first with
  | nil => exact Nat.zero_le _
  | cons d items ih =>
    obtain ⟨kind, more, same, -⟩ := d.first_kind
    have rest := ih false
    rw [kindsOfAll, same]
    simp only [List.length_cons, List.length_append]
    omega

theorem ne_of_not_closer {kind : TokenKind} (opens : c.peek ∉ closers) (closer : kind ∈ closers) :
    c.peek ≠ kind := fun same => opens (same ▸ closer)

/-- One turn of reading the items behind the first one. -/
def itemTurn (k : Level) (s : Symbol) (done : List Expr) : Parser (List Expr ⊕ List Expr) := do
  if ← eatSymbol .comma then
    if ← checkSymbol s then return .inr done.reverse
    return .inl ((← k.expr) :: done)
  return .inr done.reverse

/-- Behind the first item, each has a comma in front. -/
theorem kindsOfAll_false (d : Datum) (items : List Datum) (rest : List Token) :
    onFirst (kindsOfAll false (d :: items)) ++ rest =
      ⟨.symbol .comma, 1⟩ :: (onFirst d.kinds ++ (onFirst (kindsOfAll false items) ++ rest)) := by
  rw [kindsOfAll, onFirst_append, onFirst_append, List.append_assoc, List.append_assoc]
  rfl

theorem turns_items {s : Symbol} (each : ∀ d ∈ items, d.ReadAt k c) (closer : TokenKind.symbol s ∈ closers)
    (last : (c.on rest).peek = .symbol s) (other : s ≠ .comma) (n : Nat) (done : List Expr)
    (room : items.length ≤ n) :
    turns (itemTurn k s) (n + 1) done (c.on (onFirst (kindsOfAll false items) ++ rest)) =
      .ok (done.reverse ++ exprs items, c.on rest) := by
  have closes : (c.on rest).peek ∈ closers := last ▸ closer
  induction items generalizing n done with
  | nil =>
    have no_comma : (c.on rest).peek ≠ .symbol .comma := by
      rw [last]
      exact fun same => other (TokenKind.symbol.inj same)
    refine turns_done ((bind_of_ok (eat_other no_comma)).trans ?_)
    rw [exprs, List.append_nil]
    rfl
  | cons d items ih =>
    rw [List.forall_mem_cons] at each
    obtain ⟨n, rfl⟩ := Nat.exists_eq_add_of_le' (Nat.le_trans (Nat.le_add_left 1 _) room)
    have first := each.1 (onFirst (kindsOfAll false items) ++ rest) (peek_all items closes)
    have goes_on := ne_of_not_closer (peek_datum c d (onFirst (kindsOfAll false items) ++ rest)) closer
    rw [kindsOfAll_false]
    refine (turns_more ((bind_of_ok eat_cons).trans ?_)).trans
      ((ih each.2 n (d.expr :: done) (Nat.le_of_succ_le_succ room)).trans ?_)
    · exact (bind_of_ok (check_other goes_on)).trans ((bind_of_ok first).trans rfl)
    · rw [exprs, List.reverse_cons, List.append_assoc]
      rfl

theorem moreItems_all {s : Symbol} (each : ∀ d ∈ items, d.ReadAt k c) (closer : TokenKind.symbol s ∈ closers)
    (last : (c.on rest).peek = .symbol s) (other : s ≠ .comma) (room : items.length ≤ c.size) (e : Expr) :
    moreItems k.expr (checkSymbol s) [e] (c.on (onFirst (kindsOfAll false items) ++ rest)) =
      .ok (e :: exprs items, c.on rest) :=
  turns_items each closer last other c.size [e] room

theorem kindsOfAll_cons (d : Datum) (items : List Datum) :
    onFirst (kindsOfAll true (d :: items)) ++ rest =
      onFirst d.kinds ++ (onFirst (kindsOfAll false items) ++ rest) := by
  rw [kindsOfAll, onFirst_append, onFirst_append, List.append_assoc, List.append_assoc]
  rfl

/-- Behind an item there is no `for`. -/
theorem peek_all_ne_for (items : List Datum) {s : Symbol} (last : (c.on rest).peek = .symbol s) :
    (c.on (onFirst (kindsOfAll false items) ++ rest)).peek ≠ .name "for" := by
  cases items with
  | nil =>
    change (c.on rest).peek ≠ _
    rw [last]
    nofun
  | cons d items => nofun

theorem listTail_all (each : ∀ d ∈ items, d.ReadAt k c) (room : items.length ≤ c.size) :
    listTail k (c.on (onFirst (kindsOfAll true items) ++ ⟨.symbol .closeBracket, 1⟩ :: rest)) =
      .ok (.list (exprs items), c.on rest) := by
  cases items with
  | nil => exact (bind_of_ok eat_cons).trans rfl
  | cons d items =>
    rw [List.forall_mem_cons] at each
    have last : (c.on (⟨.symbol .closeBracket, 1⟩ :: rest)).peek = .symbol .closeBracket := rfl
    have closes : (c.on (⟨.symbol .closeBracket, 1⟩ :: rest)).peek ∈ closers := closes_cons (by decide) 1 rest
    have more := moreItems_all each.2 (by decide) last (by decide) (Nat.le_of_succ_le room) d.expr
    rw [kindsOfAll_cons]
    refine (bind_of_ok (eat_other (ne_of_not_closer (peek_datum c d _) (by decide)))).trans ?_
    refine (bind_of_ok (each.1 _ (peek_all items closes))).trans ?_
    refine (bind_of_ok (check_other (peek_all_ne_for items last))).trans ?_
    refine (bind_of_ok more).trans ((bind_of_ok expectSymbol_cons).trans ?_)
    rw [exprs]
    rfl

theorem parenTail_all (each : ∀ d ∈ items, d.ReadAt k c) (room : items.length ≤ c.size) :
    parenTail k (c.on (onFirst (kindsOfAll true items) ++
      (onFirst (commaKind (items.length ≠ 1)) ++ ⟨.symbol .closeParen, 1⟩ :: rest))) =
      .ok (.tuple (exprs items), c.on rest) := by
  match items with
  | [] => exact (bind_of_ok eat_cons).trans rfl
  | [d] =>
    have one := each d List.mem_cons_self (⟨.symbol .comma, 1⟩ :: ⟨.symbol .closeParen, 1⟩ :: rest)
      List.mem_cons_self
    have more : moreItems k.expr (checkSymbol .closeParen) [d.expr]
        (c.on (⟨.symbol .comma, 1⟩ :: ⟨.symbol .closeParen, 1⟩ :: rest)) =
        .ok ([d.expr], c.on (⟨.symbol .closeParen, 1⟩ :: rest)) :=
      repeatFrom_done ((bind_of_ok eat_cons).trans ((bind_of_ok check_cons).trans rfl))
    rw [kindsOfAll_cons]
    refine (bind_of_ok (eat_other (ne_of_not_closer (peek_datum c d _) (by decide)))).trans ?_
    refine (bind_of_ok one).trans ((bind_of_ok (check_other (by simp [Cursor.on, Cursor.peek]))).trans ?_)
    refine (bind_of_ok (eat_cons_of_ne (by decide))).trans ((bind_of_ok more).trans ?_)
    exact (bind_of_ok expectSymbol_cons).trans rfl
  | d :: d' :: items =>
    rw [List.forall_mem_cons] at each
    have closes : (c.on (⟨.symbol .closeParen, 1⟩ :: rest)).peek ∈ closers := closes_cons (by decide) 1 rest
    have last : (c.on (⟨.symbol .closeParen, 1⟩ :: rest)).peek = .symbol .closeParen := rfl
    have more := moreItems_all each.2 (by decide) last (by decide) (Nat.le_of_succ_le room) d.expr
    have goes_on : (c.on (onFirst (kindsOfAll false (d' :: items)) ++ ⟨.symbol .closeParen, 1⟩ :: rest)).peek ≠
        .symbol .closeParen := nofun
    have plural : commaKind ((d :: d' :: items).length ≠ 1) = [] := by simp [commaKind]
    rw [plural, kindsOfAll_cons]
    refine (bind_of_ok (eat_other (ne_of_not_closer (peek_datum c d _) (by decide)))).trans ?_
    refine (bind_of_ok (each.1 _ (peek_all (d' :: items) closes))).trans ?_
    refine (bind_of_ok (check_other (peek_all_ne_for (d' :: items) rfl))).trans ?_
    refine (bind_of_ok (eat_other goes_on)).trans ((bind_of_ok more).trans ?_)
    refine (bind_of_ok expectSymbol_cons).trans ?_
    rw [exprs]
    rfl

theorem kindsOfEntries_cons (first : Bool) (entry : Datum × Datum) (entries : List (Datum × Datum)) :
    onFirst (kindsOfEntries first (entry :: entries)) ++ rest =
      onFirst (commaKind first) ++ (onFirst entry.1.kinds ++ (⟨.symbol .colon, 1⟩ ::
        (onFirst entry.2.kinds ++ (onFirst (kindsOfEntries false entries) ++ rest)))) := by
  simp only [kindsOfEntries, onFirst, List.map_append, List.map_cons, List.append_assoc, List.cons_append]

/-- Between entries is a comma. -/
theorem kindsOfEntries_false (entry : Datum × Datum) (entries : List (Datum × Datum)) :
    onFirst (kindsOfEntries false (entry :: entries)) ++ rest =
      ⟨.symbol .comma, 1⟩ :: (onFirst (kindsOfEntries true (entry :: entries)) ++ rest) := by
  rw [kindsOfEntries_cons, kindsOfEntries_cons]
  rfl

/-- One turn of reading the entries of a dict. -/
def entryTurn (k : Level) (done : List (Expr × Expr)) :
    Parser (List (Expr × Expr) ⊕ List (Expr × Expr)) := do
  if ← checkSymbol .closeBrace then return .inr done
  let key ← k.expr
  unless ← eatSymbol .colon do fail "set literals are not supported"
  let value ← k.expr
  let done := (key, value) :: done
  if ← eatSymbol .comma then return .inl done else return .inr done

/-- One entry, and the comma behind it if there is one. -/
theorem entryTurn_entry {key value : Datum} (key_read : key.ReadAt k c) (value_read : value.ReadAt k c)
    (done : List (Expr × Expr)) (closes : (c.on rest).peek ∈ closers) :
    entryTurn k done (c.on (onFirst key.kinds ++ ⟨.symbol .colon, 1⟩ :: (onFirst value.kinds ++ rest))) =
      (do if ← eatSymbol .comma then return .inl ((key.expr, value.expr) :: done)
          else return .inr ((key.expr, value.expr) :: done) :
        Parser (List (Expr × Expr) ⊕ List (Expr × Expr))) (c.on rest) := by
  have opens := ne_of_not_closer (peek_datum c key (⟨.symbol .colon, 1⟩ :: (onFirst value.kinds ++ rest)))
    (show TokenKind.symbol .closeBrace ∈ closers by decide)
  refine (bind_of_ok (check_other opens)).trans ?_
  refine (bind_of_ok (key_read _ (closes_cons (by decide) 1 _))).trans ?_
  refine (bind_of_ok eat_cons).trans ?_
  exact bind_of_ok (value_read rest closes)

theorem turns_entries (each : ∀ entry ∈ entries, entry.1.ReadAt k c ∧ entry.2.ReadAt k c) (n : Nat)
    (done : List (Expr × Expr)) (room : entries.length ≤ n) :
    turns (entryTurn k) (n + 1) done
      (c.on (onFirst (kindsOfEntries true entries) ++ ⟨.symbol .closeBrace, 1⟩ :: rest)) =
      .ok ((exprsOfEntries entries).reverse ++ done, c.on (⟨.symbol .closeBrace, 1⟩ :: rest)) := by
  induction entries generalizing n done with
  | nil => exact turns_done ((bind_of_ok check_cons).trans rfl)
  | cons entry entries ih =>
    rw [List.forall_mem_cons] at each
    have closes : (c.on (onFirst (kindsOfEntries false entries) ++ ⟨.symbol .closeBrace, 1⟩ :: rest)).peek ∈
        closers := peek_entries entries (closes_cons (by decide) 1 rest)
    have turn := entryTurn_entry each.1.1 each.1.2 done closes
    rw [kindsOfEntries_cons, exprsOfEntries, List.reverse_cons, List.append_assoc]
    cases entries with
    | nil => exact turns_done (turn.trans ((bind_of_ok (eat_cons_of_ne (by decide))).trans rfl))
    | cons next entries =>
      obtain ⟨n, rfl⟩ := Nat.exists_eq_add_of_le' (Nat.le_trans (Nat.le_add_left 1 _) room)
      rw [kindsOfEntries_false] at turn ⊢
      refine (turns_more (turn.trans ((bind_of_ok eat_cons).trans rfl))).trans ?_
      exact ih each.2 n ((entry.1.expr, entry.2.expr) :: done) (Nat.le_of_succ_le_succ room)

theorem dictTail_all (each : ∀ entry ∈ entries, entry.1.ReadAt k c ∧ entry.2.ReadAt k c)
    (room : entries.length ≤ c.size) :
    dictTail k (c.on (onFirst (kindsOfEntries true entries) ++ ⟨.symbol .closeBrace, 1⟩ :: rest)) =
      .ok (.dict (exprsOfEntries entries), c.on rest) := by
  have listed : Parser.repeatFrom [] (entryTurn k)
      (c.on (onFirst (kindsOfEntries true entries) ++ ⟨.symbol .closeBrace, 1⟩ :: rest)) =
      .ok ((exprsOfEntries entries).reverse ++ [], c.on (⟨.symbol .closeBrace, 1⟩ :: rest)) :=
    turns_entries each c.size [] room
  refine (bind_of_ok listed).trans ((bind_of_ok expectSymbol_cons).trans ?_)
  rw [List.append_nil, List.reverse_reverse]
  rfl

theorem length_kinds_le {d : Datum} (mem : d ∈ items) (first : Bool) :
    d.kinds.length ≤ (kindsOfAll first items).length := by
  induction mem generalizing first with
  | head =>
    simp only [kindsOfAll, List.length_append]
    omega
  | tail _ _ ih =>
    have rest := ih false
    simp only [kindsOfAll, List.length_append]
    omega

theorem length_kinds_le_entries {entry : Datum × Datum} (mem : entry ∈ entries) (first : Bool) :
    entry.1.kinds.length ≤ (kindsOfEntries first entries).length ∧
      entry.2.kinds.length ≤ (kindsOfEntries first entries).length := by
  induction mem generalizing first with
  | head =>
    simp only [kindsOfEntries, List.length_append, List.length_cons]
    omega
  | tail _ _ ih =>
    have rest := ih false
    simp only [kindsOfEntries, List.length_append, List.length_cons]
    omega

theorem depthOfAll_le {n : Nat} (each : ∀ d ∈ items, d.depth ≤ n) : depthOfAll items ≤ n := by
  induction items with
  | nil => exact Nat.zero_le _
  | cons d items ih =>
    rw [List.forall_mem_cons] at each
    exact Nat.max_le.2 ⟨each.1, ih each.2⟩

theorem depthOfEntries_le {n : Nat} (each : ∀ entry ∈ entries, entry.1.depth ≤ n ∧ entry.2.depth ≤ n) :
    depthOfEntries entries ≤ n := by
  induction entries with
  | nil => exact Nat.zero_le _
  | cons entry entries ih =>
    rw [List.forall_mem_cons] at each
    exact Nat.max_le.2 ⟨Nat.max_le.2 each.1, ih each.2⟩

/-- Every container has two brackets. -/
theorem depth_le_length (d : Datum) : d.depth ≤ d.kinds.length / 2 := by
  induction d using induct with
  | none => exact Nat.zero_le _
  | bool b => exact Nat.zero_le _
  | int i => exact Nat.zero_le _
  | str text => exact Nat.zero_le _
  | list items ih =>
    have inside := depthOfAll_le fun d mem =>
      Nat.le_trans (ih d mem) (Nat.div_le_div_right (length_kinds_le mem true))
    simp only [depth, kinds, List.length_cons, List.length_append, List.length_nil]
    omega
  | tuple items ih =>
    have inside := depthOfAll_le fun d mem =>
      Nat.le_trans (ih d mem) (Nat.div_le_div_right (length_kinds_le mem true))
    simp only [depth, kinds, List.length_cons, List.length_append, List.length_nil]
    omega
  | dict entries ih =>
    have inside := depthOfEntries_le fun entry mem =>
      ⟨Nat.le_trans (ih entry mem).1 (Nat.div_le_div_right (length_kinds_le_entries mem true).1),
        Nat.le_trans (ih entry mem).2 (Nat.div_le_div_right (length_kinds_le_entries mem true).2)⟩
    simp only [depth, kinds, List.length_cons, List.length_append, List.length_nil]
    omega

/-! ### Nested readings -/

theorem read_expr (template : TemplateReader) (fuel room : Nat) :
    Grammar.read template (fuel + 1) room .expr =
      conditional template (levelWith (Grammar.read template fuel) room) := by
  rw [Grammar.read]

theorem read_bracket (template : TemplateReader) (fuel room : Nat) (s : Symbol) :
    Grammar.read template (fuel + 1) room (.bracket s) =
      bracketTail (levelWith (Grammar.read template fuel) room) s := by
  rw [Grammar.read]

/-- A bracket and what is in it. -/
theorem read_bracketed {s : Symbol} (opens : s.opens) {template : TemplateReader} {fuel room : Nat}
    {tokens : List Token} {e : Expr}
    (inner : bracketTail (levelWith (Grammar.read template fuel) room) s (c.on tokens) = .ok (e, c.on rest))
    (closes : (c.on rest).peek ∈ closers) :
    Grammar.read template (fuel + 2) (room + 1) .expr (c.on (⟨.symbol s, 1⟩ :: tokens)) = .ok (e, c.on rest) := by
  have sign : TokenKind.symbol s ≠ .symbol .minus ∧ TokenKind.symbol s ≠ .symbol .plus := by
    constructor <;> rintro ⟨⟩ <;> cases opens
  rw [read_expr]
  refine conditional_of_atom sign nofun ?_ closes
  rw [← read_bracket] at inner
  change (if s.opens then _ else _ : Parser Expr) _ = _
  rw [if_pos opens]
  exact inner

/-- A container is read if what is between its brackets is, as soon as the data there are. -/
theorem parses_bracketed {d : Datum} {s : Symbol} {inside : List TokenKind} {n : Nat} (opens : s.opens)
    (begins : d.kinds = .symbol s :: inside) (deeper : d.depth = n + 1)
    (tail : ∀ (k : Level) (c : Cursor) (rest : List Token),
      (∀ e : Datum, e.Parses → e.depth ≤ n → e.kinds.length ≤ inside.length → e.ReadAt k c) →
      inside.length ≤ c.size → bracketTail k s (c.on (onFirst inside ++ rest)) = .ok (d.expr, c.on rest)) :
    d.Parses := by
  intro template fuel room c rest fueled roomy sized closes
  rw [begins, List.length_cons] at sized
  obtain ⟨fuel, rfl⟩ := Nat.exists_eq_add_of_le' (show 2 ≤ fuel by omega)
  obtain ⟨room, rfl⟩ := Nat.exists_eq_add_of_le' (show 2 ≤ room by omega)
  rw [begins]
  refine read_bracketed opens (tail _ c rest (fun e parses shallow short more closes => ?_) (by omega)) closes
  exact parses template fuel room c more (by omega) (by omega) (by omega) closes

/-- A datum without the least integer is read back. -/
theorem parses (d : Datum) (least : Int64.minValue ∉ d.ints) : d.Parses := by
  induction d using induct with
  | none =>
    intro template fuel room c rest fueled _ _ closes
    obtain ⟨fuel, rfl⟩ := Nat.exists_eq_add_of_le' (Nat.le_trans (Nat.le_add_left 1 _) fueled)
    rw [read_expr]
    exact conditional_of_atom (by decide) (by decide) rfl closes
  | bool b =>
    intro template fuel room c rest fueled _ _ closes
    obtain ⟨fuel, rfl⟩ := Nat.exists_eq_add_of_le' (Nat.le_trans (Nat.le_add_left 1 _) fueled)
    rw [read_expr]
    cases b <;> exact conditional_of_atom (by decide) (by decide) rfl closes
  | int i => exact parses_int fun same => least (List.mem_singleton.2 same.symm)
  | str text =>
    intro template fuel room c rest fueled _ _ closes
    obtain ⟨fuel, rfl⟩ := Nat.exists_eq_add_of_le' (Nat.le_trans (Nat.le_add_left 1 _) fueled)
    rw [read_expr]
    exact conditional_of_atom ⟨nofun, nofun⟩ nofun (atom_str closes) closes
  | list items ih =>
    refine parses_bracketed rfl rfl rfl fun k c rest reads sized => ?_
    simp only [List.length_append] at reads sized
    have each (d : Datum) (mem : d ∈ items) : d.ReadAt k c := by
      have short := length_kinds_le mem true
      exact reads d (ih d mem fun inside => least (ints_subset_of_mem mem inside)) (depth_le_of_mem mem) (by omega)
    have long := length_le_kindsOfAll true items
    rw [onFirst_append, List.append_assoc, expr]
    exact listTail_all each (by omega)
  | tuple items ih =>
    refine parses_bracketed rfl rfl rfl fun k c rest reads sized => ?_
    simp only [List.length_append] at reads sized
    have each (d : Datum) (mem : d ∈ items) : d.ReadAt k c := by
      have short := length_kinds_le mem true
      exact reads d (ih d mem fun inside => least (ints_subset_of_mem mem inside)) (depth_le_of_mem mem) (by omega)
    have long := length_le_kindsOfAll true items
    rw [onFirst_append, onFirst_append, List.append_assoc, List.append_assoc, expr]
    exact parenTail_all each (by omega)
  | dict entries ih =>
    refine parses_bracketed rfl rfl rfl fun k c rest reads sized => ?_
    simp only [List.length_append] at reads sized
    have each (entry : Datum × Datum) (mem : entry ∈ entries) : entry.1.ReadAt k c ∧ entry.2.ReadAt k c := by
      have shallow := depth_le_of_mem_entries mem
      have short := length_kinds_le_entries mem true
      have apart := ints_subset_of_mem_entries mem
      constructor
      · exact reads _ ((ih entry mem).1 fun inside => least (apart.1 inside)) shallow.1 (by omega)
      · exact reads _ ((ih entry mem).2 fun inside => least (apart.2 inside)) shallow.2 (by omega)
    have long := length_le_kindsOfEntries true entries
    rw [onFirst_append, List.append_assoc, expr]
    exact dictTail_all each (by omega)

/-! ### Assignments -/

/-- A datum ends within its line. -/
theorem last_kind (d : Datum) : ∃ front last, d.kinds = front ++ [last] ∧
    last ≠ .newline ∧ last ≠ .indent ∧ last ≠ .dedent := by
  cases d with
  | none => exact ⟨[], _, rfl, by decide⟩
  | bool b => cases b <;> exact ⟨[], _, rfl, by decide⟩
  | int i =>
    rw [kinds]
    split
    · exact ⟨[_], _, rfl, nofun, nofun, nofun⟩
    · exact ⟨[], _, rfl, nofun, nofun, nofun⟩
  | str text => exact ⟨[], _, rfl, nofun, nofun, nofun⟩
  | list items => exact ⟨.symbol .openBracket :: kindsOfAll true items, _, rfl, by decide⟩
  | tuple items =>
    refine ⟨.symbol .openParen :: (kindsOfAll true items ++ commaKind (items.length ≠ 1)), .symbol .closeParen, ?_,
      by decide⟩
    rw [kinds, List.cons_append, List.append_assoc]
  | dict entries => exact ⟨.symbol .openBrace :: kindsOfEntries true entries, _, rfl, by decide⟩

/-- The text `y = ` and the datum. -/
def assignment (d : Datum) : List Char := 'y' :: ' ' :: '=' :: ' ' :: d.chars

theorem tokenize_assignment (d : Datum) (least : Int64.minValue ∉ d.ints) :
    tokenize (String.ofList d.assignment) =
      .ok (onFirst (.name "y" :: .symbol .assign :: (d.kinds ++ [.newline, .eof]))) := by
  obtain ⟨front, last, kinds, plain⟩ := d.last_kind
  have value : Makes d.chars (front ++ [last]) [] := kinds ▸ d.makes least .nil
  have name : Makes ['y'] [.name "y"] (' ' :: '=' :: ' ' :: (d.chars ++ [])) :=
    .name (by decide) rfl (.cons (by decide) _)
  have all : Makes d.assignment (([.name "y", .symbol .assign] ++ front) ++ [last]) [] :=
    name.append (Makes.space.append (Makes.assign.append (Makes.space.append value)))
  rw [assignment, tokenize_of_makes (by decide) all plain, kinds]
  simp

/-- An assignment of what is read as a value up to the end of the line. -/
theorem fromExpr_assign {k : Level} {c : Cursor} {tokens : List Token} {e : Expr}
    (name : k.expr (c.on (⟨.name "y", 1⟩ :: ⟨.symbol .assign, 1⟩ :: tokens)) =
      .ok (.name "y", c.on (⟨.symbol .assign, 1⟩ :: tokens)))
    (value : k.expr (c.on tokens) = .ok (e, c.on lineEnd)) (long : 0 < c.size) :
    Statement.fromExpr k (c.on (⟨.name "y", 1⟩ :: ⟨.symbol .assign, 1⟩ :: tokens)) =
      .ok (.assign [.name "y"] e, c.on lineEnd) := by
  obtain ⟨n, size⟩ := Nat.exists_eq_succ_of_ne_zero (Nat.ne_of_gt long)
  have no_comma (rest : List Token) : (c.on (⟨.symbol .assign, 1⟩ :: rest)).peek ≠ .symbol .comma := by rintro ⟨⟩
  have at_end : (c.on lineEnd).peek ≠ .symbol .comma := by rintro ⟨⟩
  refine (bind_of_ok (exprList_alone name (no_comma _))).trans ((bind_of_ok rfl).trans ?_)
  refine (bind_of_ok check_cons).trans
    ((bind_of_ok (x := (e, [.name "y"])) (r := c.on lineEnd) ?_).trans rfl)
  rw [repeatFrom_eq]
  change Parser.turns _ (c.size + 1) _ _ = _
  rw [size]
  refine (turns_more ((bind_of_ok eat_cons).trans (bind_of_ok (exprList_alone value at_end)))).trans ?_
  exact turns_done ((bind_of_ok (eat_cons_of_ne (by decide))).trans rfl)

/-- The assignment of a datum is read as a program of one statement. -/
theorem parse_assignment (d : Datum) (least : Int64.minValue ∉ d.ints) (shallow : 2 * d.depth + 2 ≤ maxNesting) :
    parse (String.ofList d.assignment) = .ok [.mk 1 (.assign [.name "y"] d.expr)] := by
  let c := Cursor.ofTokens (onFirst (.name "y" :: .symbol .assign :: (d.kinds ++ [.newline, .eof])))
  have size : c.size = d.kinds.length + 4 := by simp [c, Cursor.ofTokens, onFirst]
  have tokens : c = c.on (⟨.name "y", 1⟩ :: ⟨.symbol .assign, 1⟩ :: (onFirst d.kinds ++ lineEnd)) := by
    simp [c, Cursor.ofTokens, Cursor.on, onFirst, lineEnd]
  have nested := d.depth_le_length
  have name (template : TemplateReader) : (outermost template c.size).expr
      (c.on (⟨.name "y", 1⟩ :: ⟨.symbol .assign, 1⟩ :: (onFirst d.kinds ++ lineEnd))) =
      .ok (.name "y", c.on (⟨.symbol .assign, 1⟩ :: (onFirst d.kinds ++ lineEnd))) := by
    change Grammar.read template (2 * c.size + 1 + 1) (maxNesting - 1) .expr _ = _
    rw [read_expr]
    exact conditional_of_atom (by decide) (by decide) rfl (closes_cons (by decide) 1 _)
  have value (template : TemplateReader) : (outermost template c.size).expr (c.on (onFirst d.kinds ++ lineEnd)) =
      .ok (d.expr, c.on lineEnd) :=
    d.parses least template (2 * c.size + 2) (maxNesting - 1) c lineEnd (by omega) (by omega) (by omega)
      (closes_cons (by decide) 1 _)
  have read (template : TemplateReader) :
      program template c = .ok ([.mk 1 (.assign [.name "y"] d.expr)], c.on [⟨.eof, 1⟩]) := by
    have assigns := fromExpr_assign (name template) (value template) (by omega)
    rw [tokens]
    exact program_line (fun _ _ => rfl) rfl (by omega) assigns
  exact parse_ok.2 ⟨_, _, d.tokenize_assignment least, read _⟩

theorem parse_least (d : Datum) (least : Int64.minValue ∈ d.ints) :
    parse (String.ofList d.assignment) = .error (tooLarge 1) := by
  have name : Makes ['y'] [.name "y"] (' ' :: '=' :: ' ' :: (d.chars ++ [])) :=
    .name (by decide) rfl (.cons (by decide) _)
  have all : Refused d.assignment (tooLarge 1) [] :=
    .after name (.after Makes.space (.after Makes.assign (.after Makes.space (d.refused least .nil))))
  rw [parse, assignment, tokenize_of_refused (by decide) all]
  rfl

end

end Datum

end SnippetKernel
