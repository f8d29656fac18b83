import SnippetKernel.Proofs.Program.FormattingPaths
import SnippetKernel.Proofs.Program.IntegerTexts
import SnippetKernel.Proofs.Value.Specifications

/-! Integers that are formatted and read again. A sign, filling in front of it or behind it, and underscores among the
digits do not keep a text from denoting the integer that it was made of. -/
namespace SnippetKernel

open IntText

/-! ### Digits -/

theorem digitOf_digitChar : ∀ d < 16, DigitOf (Nat.digitChar d) d := by
  unfold DigitOf
  decide

theorem digitsDenote_toDigits {radix : Nat} (two : 2 ≤ radix) (sixteen : radix ≤ 16) (n : Nat) :
    DigitsDenote radix (Nat.toDigits radix n) n := by
  induction n using Nat.strongRecOn with
  | ind n ih =>
    by_cases small : n < radix
    · rw [Nat.toDigits_of_lt_base small]
      refine ⟨[n], List.cons_ne_nil _ _, .cons (digitOf_digitChar n (by omega)) .nil, by simpa using small, ?_⟩
      rw [List.reverse_singleton, Nat.ofDigits_singleton]
    · have less : n / radix < n := Nat.div_lt_self (by omega) two
      obtain ⟨ds, -, digits, smalls, value⟩ := ih _ less
      have last : n % radix < radix := Nat.mod_lt _ (by omega)
      rw [Nat.toDigits_of_base_le two (Nat.le_of_not_lt small)]
      refine ⟨ds ++ [n % radix], by simp, ?_, ?_, ?_⟩
      · exact List.rel_append digits (.cons (digitOf_digitChar _ (by omega)) .nil)
      · simp only [List.forall_mem_append, List.forall_mem_singleton]
        exact ⟨smalls, last⟩
      · rw [List.reverse_append, List.reverse_singleton, List.singleton_append, Nat.ofDigits_cons, ← value]
        exact (Nat.mod_add_div n radix).symm

/-- Zeros in front change nothing. -/
theorem DigitsDenote.zeros {radix n : Nat} {cs : List Char} (denote : DigitsDenote radix cs n) (k : Nat) :
    DigitsDenote radix (List.replicate k '0' ++ cs) n := by
  induction k with
  | zero => exact denote
  | succ k ih =>
    obtain ⟨ds, some_, digits, smalls, value⟩ := ih
    have positive : 0 < radix := by
      cases ds with
      | nil => exact absurd rfl some_
      | cons d ds => exact Nat.zero_lt_of_lt (smalls d List.mem_cons_self)
    have zero : DigitOf '0' 0 := digitOf_digitChar 0 (by decide)
    refine ⟨0 :: ds, List.cons_ne_nil _ _, .cons zero digits, List.forall_mem_cons.2 ⟨positive, smalls⟩, ?_⟩
    rw [ofDigits_reverse_cons, Nat.zero_mul, Nat.zero_add, value]

theorem toLower_toUpper (c : Char) : c.toUpper.toLower = c.toLower := by
  by_cases lower : 'a'.val ≤ c.val ∧ c.val ≤ 'z'.val
  · have ascii : ∀ n < 128, (Char.ofNat n).toUpper.toLower = (Char.ofNat n).toLower := by decide +kernel
    have small : c.toNat ≤ 122 := lower.2
    have known := ascii c.toNat (by omega)
    rwa [Char.ofNat_toNat] at known
  · have same : c.toUpper = c := dif_neg lower
    rw [same]

/-- Digits denote the same in either case. -/
theorem DigitsDenote.upperHex {radix n : Nat} {cs : List Char} (denote : DigitsDenote radix cs n) :
    DigitsDenote radix (FormatSpec.upperHex cs) n := by
  obtain ⟨ds, some_, digits, more⟩ := denote
  refine ⟨ds, some_, ?_, more⟩
  rw [FormatSpec.upperHex, List.forall₂_map_left_iff]
  refine digits.imp fun c d digit => ?_
  rw [DigitOf, toLower_toUpper]
  exact digit

theorem DigitsDenote.plain {radix n : Nat} {cs : List Char} (denote : DigitsDenote radix cs n) : '_' ∉ cs := by
  obtain ⟨ds, -, digits, -⟩ := denote
  intro mem
  obtain ⟨d, digit⟩ := digitOf_of_mem digits mem
  rw [← digitValue?_eq_some_iff] at digit
  cases digit

/-! ### Groups -/

namespace FormatSpec

theorem filter_group {c : Char} {cs : List Char} (plain : c ∉ cs) : (group (some c) cs).filter (· ≠ c) = cs := by
  change (group.go c cs).filter (· ≠ c) = cs
  induction cs with
  | nil => rfl
  | cons d rest ih =>
    rw [List.mem_cons, not_or] at plain
    have other : d ≠ c := fun same => plain.1 same.symm
    have kept (cs : List Char) : (d :: cs).filter (· ≠ c) = d :: cs.filter (· ≠ c) :=
      List.filter_cons_of_pos (decide_eq_true other)
    have dropped (cs : List Char) : (c :: cs).filter (· ≠ c) = cs.filter (· ≠ c) :=
      List.filter_cons_of_neg (by simp)
    rw [group.go]
    split
    · rw [kept, dropped, ih plain.2]
    · rw [kept, ih plain.2]

theorem head?_group (c : Char) (cs : List Char) : (group (some c) cs).head? = cs.head? := by
  cases cs with
  | nil => rfl
  | cons d rest =>
    change (group.go c (d :: rest)).head? = _
    rw [group.go]
    split <;> rfl

theorem getLast?_group (c : Char) (cs : List Char) : (group (some c) cs).getLast? = cs.getLast? := by
  change (group.go c cs).getLast? = cs.getLast?
  induction cs with
  | nil => rfl
  | cons d rest ih =>
    rw [group.go]
    split
    · next turn =>
      have last := List.getLast?_eq_some_getLast turn.2
      simp only [List.getLast?_cons, ih, last, Option.getD_some]
    · simp only [List.getLast?_cons, ih]

end FormatSpec

namespace IntText

/-- Digits of the base that `int` takes: neither the first nor the last is an underscore. -/
structure Numeral (radix : Nat) (cs : List Char) (n : Nat) : Prop extends Digits radix cs n where
  first : cs.head? ≠ some '_'

variable {radix n : Nat} {cs : List Char}

theorem Numeral.of_denote (denote : DigitsDenote radix cs n) : Numeral radix cs n where
  first same := denote.plain (List.mem_of_head? same)
  last same := denote.plain (List.mem_of_getLast? same)
  denote := by
    have kept : cs.filter (· ≠ '_') = cs := List.filter_eq_self.2 fun c mem => by
      simpa using fun same : c = '_' => denote.plain (same ▸ mem)
    rwa [kept]

theorem Numeral.group (denote : DigitsDenote radix cs n) : Numeral radix (FormatSpec.group (some '_') cs) n where
  first same := denote.plain (List.mem_of_head? (FormatSpec.head?_group _ _ ▸ same))
  last same := denote.plain (List.mem_of_getLast? (FormatSpec.getLast?_group _ _ ▸ same))
  denote := by rwa [FormatSpec.filter_group denote.plain]

theorem Numeral.ne_nil (numeral : Numeral radix cs n) : cs ≠ [] := by
  rintro rfl
  obtain ⟨_, some_, digits, -⟩ := numeral.denote
  cases digits
  exact some_ rfl

/-- Zeros in front of digits are digits too. -/
theorem Numeral.zeros (numeral : Numeral radix cs n) (k : Nat) : Numeral radix (List.replicate k '0' ++ cs) n where
  first := by
    cases k with
    | zero => exact numeral.first
    | succ k => simp [List.replicate_succ]
  last := by
    rw [List.getLast?_append_of_ne_nil _ numeral.ne_nil]
    exact numeral.last
  denote := by
    have kept : (List.replicate k '0').filter (· ≠ '_') = List.replicate k '0' := by
      simp
    rw [List.filter_append, kept]
    exact numeral.denote.zeros k

theorem Numeral.digit (numeral : Numeral radix cs n) {c : Char} (mem : c ∈ cs) : c = '_' ∨ ∃ d, DigitOf c d := by
  by_cases other : c = '_'
  · exact .inl other
  · obtain ⟨d, -, digit⟩ := digit_of_mem numeral.toDigits mem other
    exact .inr ⟨d, digit⟩

theorem Numeral.not_blank (numeral : Numeral radix cs n) {c : Char} (mem : c ∈ cs) : Text.isBlank c = false := by
  obtain rfl | ⟨d, digit⟩ := numeral.digit mem
  · decide
  · exact digit.not_blank

theorem Numeral.not_sign (numeral : Numeral radix cs n) {c : Char} (mem : c ∈ cs) :
    FormatSpec.isSignChar c = false := by
  obtain rfl | ⟨d, digit⟩ := numeral.digit mem
  · decide
  · rw [← digitValue?_eq_some_iff] at digit
    have other (s : Char) (unlisted : digitValue? s = none) : c ≠ s := by
      rintro rfl
      cases digit.symm.trans unlisted
    simp [FormatSpec.isSignChar, other '+' (by decide), other '-' (by decide), other ' ' (by decide)]

end IntText

/-! ### Filling -/

theorem Text.dropEnds_of_ends {drop : Char → Bool} {front cs : List Char} (dropped : ∀ c ∈ front, drop c = true)
    (first : ∀ c ∈ cs.head?, drop c = false) (last : ∀ c ∈ cs.getLast?, drop c = false) :
    dropEnds drop (front ++ cs) = cs := by
  have cut := dropEnds_append dropped (List.forall_mem_nil _) first last
  rwa [List.append_nil] at cut

namespace IntText

variable {radix n : Nat} {sign digits : List Char} {negative : Bool}

/-- What stands in front of the digits of a number that is written, and whether the number is negative. -/
inductive Written : List Char → Bool → Prop
  | none : Written [] false
  | plus : Written ['+'] false
  | space : Written [' '] false
  | minus : Written ['-'] true

/-- Blanks in front of a number do not count. -/
theorem Numeral.denotes (numeral : Numeral radix digits n) (positive : radix ≠ 0) (written : Written sign negative)
    (k : Nat) : Denotes radix (Text.dropEnds Text.isBlank (List.replicate k ' ' ++ (sign ++ digits)))
      (if negative then -n else n) := by
  have named : Prefix radix [] radix := by
    have bare : Prefix radix [] (if radix = 0 then 10 else radix) := .none
    rwa [if_neg positive] at bare
  have blanks : ∀ c ∈ List.replicate k ' ', Text.isBlank c = true := fun c mem => (List.eq_of_mem_replicate mem) ▸ rfl
  have first : ∀ c ∈ digits.head?, Text.isBlank c = false := fun c mem => numeral.not_blank (List.mem_of_head? mem)
  have last : ∀ c ∈ digits.getLast?, Text.isBlank c = false := fun c mem => numeral.not_blank (List.mem_of_getLast? mem)
  have behind (c : Char) : (c :: digits).getLast? = digits.getLast? := List.getLast?_cons_of_ne_nil numeral.ne_nil
  cases written with
  | none =>
    rw [List.nil_append, Text.dropEnds_of_ends blanks first last]
    exact .spelled .none named numeral.first numeral.toDigits
  | space =>
    have more : ∀ c ∈ List.replicate k ' ' ++ [' '], Text.isBlank c = true :=
      List.forall_mem_append.2 ⟨blanks, List.forall_mem_singleton.2 rfl⟩
    rw [← List.append_assoc, Text.dropEnds_of_ends more first last]
    exact .spelled .none named numeral.first numeral.toDigits
  | plus =>
    rw [Text.dropEnds_of_ends blanks (by simp; decide) ((behind '+').symm ▸ last)]
    exact .spelled .plus named numeral.first numeral.toDigits
  | minus =>
    rw [Text.dropEnds_of_ends blanks (by simp; decide) ((behind '-').symm ▸ last)]
    exact .spelled .minus named numeral.first numeral.toDigits

theorem Written.signs (written : Written sign negative) : ∀ c ∈ sign, FormatSpec.isSignChar c = true := by
  cases written <;> simp [FormatSpec.isSignChar]

/-- Zeros are filled in behind the sign. -/
theorem Numeral.split_sign (numeral : Numeral radix digits n) (written : Written sign negative) :
    (sign ++ digits).all FormatSpec.isSignChar = false ∧ (sign ++ digits).takeWhile FormatSpec.isSignChar = sign ∧
      (sign ++ digits).dropWhile FormatSpec.isSignChar = digits := by
  have stops : ∀ c ∈ digits.head?, FormatSpec.isSignChar c = false :=
    fun c mem => numeral.not_sign (List.mem_of_head? mem)
  obtain ⟨c, first⟩ := Option.isSome_iff_exists.1 (List.isSome_head?.2 numeral.ne_nil)
  refine ⟨?_, Source.takeWhile_append_of_stops written.signs stops⟩
  rw [List.all_append, Bool.and_eq_false_iff]
  exact .inr (List.all_eq_false.2 ⟨c, List.mem_of_head? first, by simp [stops c first]⟩)

/-- What is filled in does not change the number. -/
theorem Numeral.pad {spec : FormatSpec} (plain : spec.align = none)
    (allocated : spec.width.getD 0 ≤ FormatSpec.maxFilling) (numeral : Numeral radix digits n)
    (written : Written sign negative) : ∃ k digits', Numeral radix digits' n ∧
      spec.pad true (sign ++ digits) = .ok (List.replicate k ' ' ++ (sign ++ digits')) := by
  unfold FormatSpec.pad
  simp only [plain]
  generalize missing_is : spec.width.getD 0 - (sign ++ digits).length = missing
  have fits : ¬FormatSpec.maxFilling < missing := by omega
  by_cases enough : missing = 0
  · refine ⟨0, digits, numeral, ?_⟩
    simp only [enough, if_true]
    rfl
  · by_cases zero : spec.zero
    · obtain ⟨more, before, behind⟩ := numeral.split_sign written
      refine ⟨0, _, numeral.zeros missing, ?_⟩
      simp only [enough, zero, if_true, if_false, FormatSpec.filling, fits, more, before, behind]
      exact congrArg Except.ok (List.append_assoc _ _ _)
    · refine ⟨missing, digits, numeral, ?_⟩
      simp only [enough, zero, if_true, if_false, FormatSpec.filling, fits]
      rfl

end IntText

/-! ### Specifications -/

/-- The types that show an integer by its digits. -/
inductive IntegerType where
  | decimal | hex | capitals | octal | binary
  deriving DecidableEq

namespace IntegerType

def char : IntegerType → Char
  | decimal => 'd'
  | hex => 'x'
  | capitals => 'X'
  | octal => 'o'
  | binary => 'b'

/-- The base of the digits; ten without a type. -/
def radix : Option IntegerType → Nat
  | some hex | some capitals => 16
  | some octal => 8
  | some binary => 2
  | _ => 10

theorem radix_bounds (type : Option IntegerType) : 2 ≤ radix type ∧ radix type ≤ 16 := by
  rcases type with _ | _ | _ | _ | _ | _ <;> decide

/-- The base as an argument of `int`. -/
def base (type : Option IntegerType) : Int64 := Int64.ofNat (radix type)

theorem toNat_base (type : Option IntegerType) : (base type).toInt.toNat = radix type := by
  rcases type with _ | _ | _ | _ | _ | _ <;> decide

theorem valid_base (type : Option IntegerType) : Valid (base type) := by
  rcases type with _ | _ | _ | _ | _ | _ <;> exact .inr (by decide)

end IntegerType

/-- What stands in front of the digits. -/
def FormatSpec.signText (negative : Bool) (sign : Option SignOption) : List Char :=
  if negative then ['-']
  else
    match sign with
    | some .plus => ['+']
    | some .space => [' ']
    | _ => []

theorem FormatSpec.written_signText (negative : Bool) (sign : Option SignOption) :
    Written (signText negative sign) negative := by
  cases negative with
  | true => exact .minus
  | false => rcases sign with _ | _ | _ | _ <;> constructor

/-- A specification that shows an integer by its digits, with no alignment of its own. -/
structure FormatSpec.ShowsDigits (spec : FormatSpec) (type : Option IntegerType) : Prop where
  type : spec.type = type.map IntegerType.char
  plain : spec.align = none
  grouping : spec.grouping = none ∨ spec.grouping = some '_'
  allocated : spec.width.getD 0 ≤ FormatSpec.maxFilling

namespace FormatSpec.ShowsDigits

variable {spec : FormatSpec} {type : Option IntegerType} (shows : spec.ShowsDigits type) (i : Int64)

include shows

theorem integerText (v : Value) : ∃ digits, Numeral (IntegerType.radix type) digits i.toInt.natAbs ∧
    spec.integerText v i = .ok (decide (i.toInt < 0), digits) := by
  obtain ⟨two, sixteen⟩ := IntegerType.radix_bounds type
  have denote := digitsDenote_toDigits two sixteen i.toInt.natAbs
  have grouped : ∃ digits, Numeral (IntegerType.radix type) digits i.toInt.natAbs ∧
      group spec.grouping (Nat.toDigits (IntegerType.radix type) i.toInt.natAbs) = digits := by
    refine ⟨_, ?_, rfl⟩
    rcases shows.grouping with none | some
    · exact none ▸ .of_denote denote
    · exact some ▸ .group denote
  unfold FormatSpec.integerText
  rw [shows.type]
  rcases type with _ | _ | _ | _ | _ | _
  · obtain ⟨digits, numeral, rfl⟩ := grouped
    exact ⟨_, numeral, rfl⟩
  · obtain ⟨digits, numeral, rfl⟩ := grouped
    exact ⟨_, numeral, rfl⟩
  · exact ⟨_, .of_denote denote, rfl⟩
  · exact ⟨_, .of_denote denote.upperHex, rfl⟩
  · exact ⟨_, .of_denote denote, rfl⟩
  · exact ⟨_, .of_denote denote, rfl⟩

theorem numberText : ∃ digits, Numeral (IntegerType.radix type) digits i.toInt.natAbs ∧
    spec.numberText (.int i) = .ok (signText (decide (i.toInt < 0)) spec.sign ++ digits) := by
  obtain ⟨digits, numeral, shown⟩ := shows.integerText i (.int i)
  have whole : spec.type.any isFloatType = false := by
    rw [shows.type]
    rcases type with _ | _ | _ | _ | _ | _ <;> rfl
  refine ⟨digits, numeral, ?_⟩
  unfold FormatSpec.numberText
  simp only [Value.int?, Option.getD_some, whole, shown]
  rfl

theorem apply_int (h : Cells) : spec.apply h (.int i) =
    (do return String.ofList (← spec.pad true (← spec.numberText (.int i)))) := by
  unfold FormatSpec.apply
  rw [shows.type]
  rcases type with _ | _ | _ | _ | _ | _ <;> cases spec.numberText (.int i) <;> rfl

/-- The text of an integer denotes this integer. -/
theorem denotes (h : Cells) : ∃ text, spec.apply h (.int i) = .ok text ∧
    Denotes (IntegerType.radix type) (Text.dropEnds Text.isBlank text.toList) i.toInt := by
  obtain ⟨digits, numeral, shown⟩ := shows.numberText i
  have written := written_signText (decide (i.toInt < 0)) spec.sign
  obtain ⟨k, digits', numeral', padded⟩ := numeral.pad shows.plain shows.allocated written
  refine ⟨String.ofList (List.replicate k ' ' ++ (signText (decide (i.toInt < 0)) spec.sign ++ digits')), ?_, ?_⟩
  · rw [shows.apply_int, shown]
    change (spec.pad true _ >>= fun body => pure (String.ofList body)) = _
    rw [padded]
    rfl
  · have two := (IntegerType.radix_bounds type).1
    have whole : (if decide (i.toInt < 0) then -(i.toInt.natAbs : Int) else i.toInt.natAbs) = i.toInt := by
      simp only [decide_eq_true_eq]
      omega
    have denotes := numeral'.denotes (by omega) written k
    rw [whole] at denotes
    rwa [String.toList_ofList]

end FormatSpec.ShowsDigits

/-! ### Texts of specifications -/

/-- A specification `[sign][0][width][_][type]`. The width is no larger than any memory. -/
structure IntegerSpec where
  sign : Option SignOption
  zero : Bool
  width : List Char
  grouped : Bool
  type : Option IntegerType
  digits : ∀ c ∈ width, c.isDigit = true
  allocated : ∀ n, natOfDigits? 10 width = some n → n ≤ FormatSpec.maxFilling

namespace IntegerSpec

def typeText (type : Option IntegerType) : List Char := (type.map IntegerType.char).toList

/-- What comes behind the width. -/
def tail (grouped : Bool) (type : Option IntegerType) : List Char := (if grouped then ['_'] else []) ++ typeText type

/-- What comes behind the sign. -/
def block (s : IntegerSpec) : List Char := (if s.zero then ['0'] else []) ++ s.width ++ tail s.grouped s.type

def text (s : IntegerSpec) : String := String.ofList ((s.sign.map SignOption.char).toList ++ s.block)

/-- The characters that come behind the width. -/
def tailChars : List Char := ['_', 'd', 'x', 'X', 'o', 'b']

theorem mem_tail (grouped : Bool) (type : Option IntegerType) : ∀ c ∈ tail grouped type, c ∈ tailChars := by
  cases grouped <;> rcases type with _ | _ | _ | _ | _ | _ <;> simp [tail, typeText, tailChars, IntegerType.char]

/-- A property that holds of none of the characters there holds of none behind the width. -/
theorem not_of_tail {p : Char → Bool} (none : tailChars.any p = false) (grouped : Bool)
    (type : Option IntegerType) : ∀ c ∈ tail grouped type, p c = false :=
  fun c mem => Bool.eq_false_iff.2 (List.any_eq_false.1 none c (mem_tail grouped type c mem))

end IntegerSpec

namespace FormatSpec

theorem natOfDigits?_of_isDigit {cs : List Char} (some_ : cs ≠ []) (all : ∀ c ∈ cs, c.isDigit = true) :
    ∃ n, natOfDigits? 10 cs = some n := by
  refine ⟨_, natOfDigits?_eq_some_iff.2 ⟨cs.map fun c => c.toNat - '0'.toNat, by simpa using some_, ?_, ?_, rfl⟩⟩
  · rw [List.forall₂_map_right_iff, List.forall₂_same]
    exact fun c mem => digitValue?_eq_some_iff.1 (Source.digitValue?_of_isDigit (all c mem)).1
  · simp only [List.forall_mem_map]
    exact fun c mem => (Source.digitValue?_of_isDigit (all c mem)).2

/-- A number is read up to what is no digit. -/
theorem readNumber_append {digits rest : List Char} (all : ∀ c ∈ digits, c.isDigit = true)
    (stops : ∀ c ∈ rest.head?, c.isDigit = false) (allocated : ∀ n, natOfDigits? 10 digits = some n → n ≤ maxFilling)
    (text : String) : ∃ width, readNumber text (digits ++ rest) = .ok (width, rest) ∧ width.getD 0 ≤ maxFilling := by
  obtain ⟨front, behind⟩ := Source.takeWhile_append_of_stops all stops
  unfold readNumber
  rw [front, behind]
  cases digits with
  | nil => exact ⟨none, rfl, Nat.zero_le _⟩
  | cons d digits =>
    obtain ⟨n, value⟩ := natOfDigits?_of_isDigit (List.cons_ne_nil _ _) all
    have fits := allocated n value
    have small : n < Nat.pow 2 64 := Nat.lt_of_le_of_lt fits (by decide)
    refine ⟨some n, ?_, fits⟩
    simp only [value, small, if_true]

end FormatSpec

namespace IntegerSpec

open FormatSpec

variable (s : IntegerSpec)

/-- A zero in front of the width is taken for the flag, also if it was meant as a part of the width. -/
theorem readWidth (text : String) : ∃ zero rest width,
    readFlag '0' s.block = (zero, rest) ∧
      readNumber text rest = .ok (width, tail s.grouped s.type) ∧ width.getD 0 ≤ maxFilling := by
  have stops : ∀ c ∈ (tail s.grouped s.type).head?, c.isDigit = false := fun c mem =>
    not_of_tail (by decide) _ _ c (List.mem_of_head? mem)
  have number {digits : List Char} := @readNumber_append digits (tail s.grouped s.type)
  unfold block
  cases flagged : s.zero with
  | true =>
    obtain ⟨width, read, fits⟩ := number s.digits stops s.allocated text
    exact ⟨true, _, width, rfl, read, fits⟩
  | false =>
    have all := s.digits
    have allocated := s.allocated
    simp only [Bool.false_eq_true, if_false, List.nil_append]
    cases shown : s.width with
    | nil =>
      obtain ⟨width, read, fits⟩ := number (shown ▸ all) stops (shown ▸ allocated) text
      refine ⟨false, _, width, readFlag_none fun c mem same => ?_, read, fits⟩
      subst same
      exact absurd (stops _ mem) (by decide)
    | cons c digits =>
      rw [shown] at all allocated
      by_cases zero : c = '0'
      · subst zero
        have shorter : ∀ n, natOfDigits? 10 digits = some n → n ≤ maxFilling := by
          intro n value
          apply allocated n
          rw [natOfDigits?_eq_some_iff] at value ⊢
          exact value.zeros 1
        obtain ⟨width, read, fits⟩ := number (List.forall_mem_cons.1 all).2 stops shorter text
        exact ⟨true, _, width, rfl, read, fits⟩
      · obtain ⟨width, read, fits⟩ := number all stops allocated text
        exact ⟨false, _, width, if_neg zero, read, fits⟩

/-- A property that holds of no digit and of none of the characters behind these holds of nothing there. -/
theorem not_of_block {p : Char → Bool} (none : ("0123456789".toList ++ tailChars).any p = false) :
    ∀ c ∈ s.block, p c = false := by
  rw [List.any_append, Bool.or_eq_false_iff] at none
  have digit {c : Char} (digit : c.isDigit = true) : p c = false :=
    Bool.eq_false_iff.2 (List.any_eq_false.1 none.1 c (mem_of_isDigit digit))
  intro c mem
  simp only [block, List.mem_append] at mem
  obtain (mem | mem) | mem := mem
  · split at mem
    · exact digit (List.mem_singleton.1 mem ▸ rfl)
    · cases mem
  · exact digit (s.digits c mem)
  · exact not_of_tail none.2 _ _ c mem

theorem parse : ∃ zero width, FormatSpec.parse s.text =
    .ok ⟨none, none, s.sign, zero, width, if s.grouped then some '_' else none, none, s.type.map IntegerType.char⟩ ∧
      width.getD 0 ≤ maxFilling := by
  obtain ⟨zero, rest, width, flag, number, fits⟩ := s.readWidth s.text
  refine ⟨zero, width, ?_, fits⟩
  have align : readAlign s.text.toList = (none, none, (s.sign.map SignOption.char).toList ++ s.block) := by
    rw [text, String.toList_ofList]
    apply readAlign_none
    rw [List.forall_mem_append]
    constructor
    · rcases s.sign with _ | _ | _ | _ <;> simp [SignOption.char, Alignment.ofChar?, Alignment.char]
    · have none := s.not_of_block (p := fun c => (Alignment.ofChar? c).isSome) (by decide)
      exact fun c mem => Option.isNone_iff_eq_none.1 (Option.isSome_eq_false_iff.1 (none c mem))
  have sign : readSign ((s.sign.map SignOption.char).toList ++ s.block) = (s.sign, s.block) := by
    have none := s.not_of_block (p := fun c => (SignOption.ofChar? c).isSome) (by decide)
    apply readSign_append
    exact fun c mem => Option.isNone_iff_eq_none.1 (Option.isSome_eq_false_iff.1 (none c (List.mem_of_head? mem)))
  have plain : readFlag '#' s.block = (false, s.block) := by
    have none := s.not_of_block (p := (· == '#')) (by decide)
    exact readFlag_none fun c mem => beq_eq_false_iff_ne.1 (none c (List.mem_of_head? mem))
  have grouping : readGrouping (tail s.grouped s.type) = (if s.grouped then some '_' else none, typeText s.type) := by
    generalize s.grouped = grouped
    generalize s.type = type
    cases grouped <;> rcases type with _ | _ | _ | _ | _ | _ <;> decide
  have precision : readPrecision s.text (typeText s.type) = .ok (none, typeText s.type) := by
    rcases s.type with _ | _ | _ | _ | _ | _ <;> rfl
  unfold FormatSpec.parse
  simp only [align, sign, plain, flag, number, grouping, precision, bind, Except.bind]
  rcases s.type with _ | _ | _ | _ | _ | _ <;> rfl

end IntegerSpec

/-! ### Formatting and reading back -/

/-- The plain text of an integer denotes it. -/
theorem Value.denotes_display (h : Cells) (i : Int64) :
    Denotes 10 (Text.dropEnds Text.isBlank ((Value.int i).display h).toList) i.toInt := by
  have numeral (n : Nat) : Numeral 10 (Nat.toDigits 10 n) n :=
    .of_denote (digitsDenote_toDigits (by decide) (by decide) n)
  change Denotes 10 (Text.dropEnds Text.isBlank (toString i.toInt).toList) i.toInt
  cases i.toInt with
  | ofNat n =>
    have text : (toString (Int.ofNat n)).toList = Nat.toDigits 10 n := Nat.toList_repr
    rw [text]
    exact (numeral n).denotes (by decide) .none 0
  | negSucc n =>
    have text : (toString (Int.negSucc n)).toList = ['-'] ++ Nat.toDigits 10 (n + 1) := by
      change ("-" ++ Nat.repr (n + 1)).toList = _
      rw [String.toList_append, Nat.toList_repr]
      rfl
    rw [text]
    exact (numeral (n + 1)).denotes (by decide) .minus 0

theorem IntegerSpec.type_of_isEmpty {s : IntegerSpec} (empty : s.text.isEmpty = true) : s.type = none := by
  rw [String.isEmpty_iff, text, String.ofList_eq_empty_iff] at empty
  simp only [List.append_eq_nil_iff, block, tail, typeText, Option.toList_eq_nil_iff, Option.map_eq_none_iff] at empty
  exact empty.2.2.2

/-- What the specification makes of an integer denotes it in the base of the type. -/
theorem IntegerSpec.format (s : IntegerSpec) (h : Cells) (i : Int64) :
    ∃ text, (Value.int i).format h s.text = .ok text ∧
      Denotes (IntegerType.radix s.type) (Text.dropEnds Text.isBlank text.toList) i.toInt := by
  unfold Value.format
  by_cases empty : s.text.isEmpty
  · rw [if_pos empty, s.type_of_isEmpty empty]
    exact ⟨_, rfl, Value.denotes_display h i⟩
  · rw [if_neg empty]
    obtain ⟨zero, width, parsed, fits⟩ := s.parse
    rw [parsed]
    apply FormatSpec.ShowsDigits.denotes
    constructor
    · rfl
    · rfl
    · cases s.grouped with
      | false => exact .inl rfl
      | true => exact .inr rfl
    · exact fits

example : (Value.int (-1234567)).format .empty "+012_" = .ok "-001_234_567" := by rfl

namespace Call

variable {function : FunctionCaller} {m : Machine} {i : Int64}

theorem value_int {text : String} {base : Int64} (valid : Valid base)
    (denotes : Denotes base.toInt.toNat (Text.dropEnds Text.isBlank text.toList) i.toInt) :
    value function (.type .int) [.str text, .int base] [] m = .ok (.int i) m := by
  change Run.ofWork (Construct.apply .int [.str text, .int base] []) m = _
  apply Run.ofWork_of_still
  intro r _
  rw [construct_int rfl, (parse_eq_ok_iff valid).2 (.inl denotes)]

/-- An integer that is formatted and then read in the base of its digits is the same integer, whatever the sign option,
the filling, the width and the grouping are; so is one whose plain text is read. -/
theorem int_of_format (function : FunctionCaller) (i : Int64) (s : IntegerSpec) (m : Machine) :
    (∃ text, value function (.builtin .format) [.int i, .str s.text] [] m = .ok (.str text) m ∧
      value function (.type .int) [.str text, .int (IntegerType.base s.type)] [] m = .ok (.int i) m ∧
      (IntegerType.base s.type = 10 → value function (.type .int) [.str text] [] m = .ok (.int i) m)) ∧
    ∃ text, value function (.type .str) [.int i] [] m = .ok (.str text) m ∧
      value function (.type .int) [.str text] [] m = .ok (.int i) m := by
  have ten (text : String) : value function (.type .int) [.str text] [] m =
      value function (.type .int) [.str text, .int 10] [] m := rfl
  constructor
  · obtain ⟨text, formatted, denotes⟩ := s.format m.heap.toCells i
    rw [← IntegerType.toNat_base] at denotes
    have read := @value_int function m i text _ (IntegerType.valid_base s.type) denotes
    refine ⟨text, ?_, read, fun same => ?_⟩
    · rw [value_format, formatted]
      rfl
    · rw [same] at read
      exact (ten text).trans read
  · refine ⟨(Value.int i).display m.heap.toCells, ?_, ?_⟩
    · change Run.ofWork (Construct.apply .str [.int i] []) m = _
      apply Run.ofWork_of_still
      intro r same
      rw [← same]
      rfl
    · rw [ten]
      exact value_int (.inr (by decide)) (Value.denotes_display _ i)

end Call

end SnippetKernel
