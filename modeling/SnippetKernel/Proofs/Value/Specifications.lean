import SnippetKernel.Proofs.Source.Lexing
import SnippetKernel.Value.FormatSpec

/-! Format specifications that are written and read again. Every part may be missing, and the reader looks no further
than one character ahead. It still finds where a part ends: the characters that parts begin with have their places in
the order of the grammar, and what is written behind a part begins at a later place. The alignment is apart from this,
since any character may be its fill: there the reader looks at the second character of the text, and behind the
alignment there is nothing that it could take for one. -/
namespace SnippetKernel.FormatSpec

open Text

/-! ### Places in the grammar -/

/-- The characters that each part begins with, from the alignment to the precision. The type begins with any other. -/
def firsts : List (List Char) :=
  [['<', '>', '^', '='], ['+', '-', ' '], ['#'], ['0'], ['1', '2', '3', '4', '5', '6', '7', '8', '9'], [',', '_'],
    ['.']]

/-- The place of the part that begins with this character. -/
def place (c : Char) : Nat := firsts.findIdx (·.contains c)

theorem place_char_align (align : Alignment) : place align.char = 0 := by cases align <;> decide

theorem place_char_sign (sign : SignOption) : place sign.char = 1 := by cases sign <;> decide

theorem mem_of_isDigit {c : Char} (digit : c.isDigit = true) : c ∈ "0123456789".toList := by
  have known : ∀ n < 58, 48 ≤ n → Char.ofNat n ∈ "0123456789".toList := by decide
  simp only [Char.isDigit, Bool.and_eq_true, decide_eq_true_eq] at digit
  have low : 48 ≤ c.toNat := digit.1
  have high : c.toNat ≤ 57 := digit.2
  exact Char.ofNat_toNat c ▸ known c.toNat (by omega) low

theorem ofChar?_align_of_place {c : Char} (later : 0 < place c) : Alignment.ofChar? c = none := by
  cases taken : Alignment.ofChar? c with
  | none => rfl
  | some align =>
    have same : align.char = c := by simpa using List.find?_some taken
    rw [← same, place_char_align] at later
    cases later

theorem place_of_isDigit {c : Char} (digit : c.isDigit = true) : place c = if c = '0' then 3 else 4 := by
  have known : ("0123456789".toList.all fun d => place d = if d = '0' then 3 else 4) = true := by decide
  exact of_decide_eq_true (List.all_eq_true.1 known c (mem_of_isDigit digit))

theorem place_of_type {c : Char} (type : isLetter c = true ∨ c = '%') : place c = 7 := by
  obtain letter | rfl := type
  · have other : firsts.flatten.any isLetter = false := by decide
    have none : c ∉ firsts.flatten := fun mem => List.any_eq_false.1 other c mem letter
    rw [List.mem_flatten, not_exists] at none
    refine List.findIdx_eq_length.2 fun part mem => ?_
    simpa using fun inside => none part ⟨mem, inside⟩
  · decide

/-- The text goes on with a part behind the one at place `k`, if it goes on. -/
def Onward (k : Nat) (cs : List Char) : Prop := ∀ c ∈ cs.head?, k < place c

namespace Onward

variable {k : Nat} {part rest : List Char}

/-- Where a part is missing, what is behind it comes next. -/
theorem append {j : Nat} (first : Onward k part) (onward : Onward j rest) (le : k ≤ j) : Onward k (part ++ rest) := by
  cases part with
  | nil => exact fun c mem => Nat.lt_of_le_of_lt le (onward c mem)
  | cons c part => exact first

theorem ne (onward : Onward k rest) {d : Char} (early : place d ≤ k) : ∀ c ∈ rest.head?, c ≠ d := by
  rintro c mem rfl
  exact Nat.not_le_of_lt (onward c mem) early

theorem not_sign (onward : Onward k rest) (behind : 1 ≤ k) : ∀ c ∈ rest.head?, SignOption.ofChar? c = none := by
  intro c mem
  cases taken : SignOption.ofChar? c with
  | none => rfl
  | some sign =>
    have same : sign.char = c := by simpa using List.find?_some taken
    have at_sign := place_char_sign sign
    have later := onward c mem
    rw [← same] at later
    omega

theorem not_digit (onward : Onward k rest) (behind : 4 ≤ k) : ∀ c ∈ rest.head?, c.isDigit = false := by
  intro c mem
  by_contra digit
  have at_digit := place_of_isDigit (Bool.eq_true_of_not_eq_false digit)
  have later := onward c mem
  split at at_digit <;> omega

end Onward

/-! ### What is written -/

def alignChars (fill : Option Char) (align : Option Alignment) : List Char :=
  fill.toList ++ (align.map Alignment.char).toList

def zeroChars (zero : Bool) : List Char := if zero then ['0'] else []

/-- A number in base ten, if there is one. -/
def decimal (n : Option Nat) : List Char := (n.map (Nat.toDigits 10)).getD []

def precisionChars : Option Nat → List Char
  | none => []
  | some n => '.' :: decimal (some n)

/-- What is written behind the alignment. -/
def afterAlign (spec : FormatSpec) : List Char :=
  (spec.sign.map SignOption.char).toList ++ (zeroChars spec.zero ++ (decimal spec.width ++
    (spec.grouping.toList ++ (precisionChars spec.precision ++ spec.type.toList))))

/-- The parts of the specification in the order of the grammar. -/
def text (spec : FormatSpec) : String := String.ofList (alignChars spec.fill spec.align ++ spec.afterAlign)

/-- The parts that the grammar has. A width of zero is none of them: it would be written like the flag. -/
structure Grammatical (spec : FormatSpec) : Prop where
  filled : spec.align = none → spec.fill = none
  width : ∀ n ∈ spec.width, 0 < n ∧ n < 2 ^ 64
  grouping : ∀ c ∈ spec.grouping, c = ',' ∨ c = '_'
  precision : ∀ n ∈ spec.precision, n < 2 ^ 64
  type : ∀ c ∈ spec.type, isLetter c = true ∨ c = '%'

theorem isDigit_of_mem_decimal {n : Option Nat} {c : Char} (mem : c ∈ decimal n) : c.isDigit = true := by
  cases n with
  | none => cases mem
  | some n => exact Nat.isDigit_of_mem_toDigits (by decide) (by decide) mem

/-! ### Reading a part -/

section

variable {rest : List Char}

theorem readAlign_none {cs : List Char} (none_ : ∀ c ∈ cs, Alignment.ofChar? c = none) :
    readAlign cs = (none, none, cs) := by
  match cs with
  | [] => rfl
  | [c] => simp [readAlign, none_ c]
  | c :: d :: rest => simp [readAlign, none_ c, none_ d]

theorem ofChar?_char_align (align : Alignment) : Alignment.ofChar? align.char = some align := by
  cases align <;> rfl

theorem readAlign_append {fill : Option Char} {align : Option Alignment} (filled : align = none → fill = none)
    (none_ : ∀ c ∈ rest, Alignment.ofChar? c = none) :
    readAlign (alignChars fill align ++ rest) = (fill, align, rest) := by
  cases align with
  | none =>
    rw [filled rfl]
    exact readAlign_none none_
  | some align =>
    have found := ofChar?_char_align align
    cases fill with
    | some c => simp [alignChars, readAlign, found]
    | none =>
      -- The character behind an alignment decides whether the alignment is a fill.
      cases rest with
      | nil => simp [alignChars, readAlign, found]
      | cons d rest =>
        have plain := none_ d List.mem_cons_self
        simp [alignChars, readAlign, found, plain]

theorem readSign_append (sign : Option SignOption) {cs : List Char}
    (other : ∀ c ∈ cs.head?, SignOption.ofChar? c = none) :
    readSign ((sign.map SignOption.char).toList ++ cs) = (sign, cs) := by
  cases sign with
  | none =>
    cases cs with
    | nil => rfl
    | cons c rest =>
      have plain : SignOption.ofChar? c = none := other c rfl
      simp [readSign, plain]
  | some sign => cases sign <;> rfl

theorem readFlag_none {flag : Char} {cs : List Char} (other : ∀ c ∈ cs.head?, c ≠ flag) :
    readFlag flag cs = (false, cs) := by
  cases cs with
  | nil => rfl
  | cons c rest => exact if_neg (other c rfl)

theorem readFlag_zeroChars (zero : Bool) (onward : Onward 3 rest) :
    readFlag '0' (zeroChars zero ++ rest) = (zero, rest) := by
  cases zero with
  | true => rfl
  | false => exact readFlag_none (onward.ne (by decide))

theorem readNumber_decimal {n : Option Nat} (fits : ∀ m ∈ n, m < 2 ^ 64)
    (stops : ∀ c ∈ rest.head?, c.isDigit = false) (text : String) :
    readNumber text (decimal n ++ rest) = .ok (n, rest) := by
  have digits (c : Char) (mem : c ∈ decimal n) : c.isDigit = true := isDigit_of_mem_decimal mem
  obtain ⟨front, behind⟩ := Source.takeWhile_append_of_stops digits stops
  unfold readNumber
  rw [front, behind]
  cases n with
  | none => rfl
  | some n =>
    have value : natOfDigits? 10 (decimal (some n)) = some n := Source.natOfDigits?_toDigits n
    have small : n < Nat.pow 2 64 := fits n rfl
    split
    · next empty => exact absurd empty Nat.toDigits_ne_nil
    · simp only [value, small, if_true]

theorem readGrouping_append {grouping : Option Char} (separator : ∀ c ∈ grouping, c = ',' ∨ c = '_')
    (onward : Onward 5 rest) : readGrouping (grouping.toList ++ rest) = (grouping, rest) := by
  cases grouping with
  | some c => exact if_pos (separator c rfl)
  | none =>
    cases rest with
    | nil => rfl
    | cons c rest =>
      have other (d : Char) (early : place d ≤ 5) : c ≠ d := onward.ne early c rfl
      exact if_neg (not_or.2 ⟨other ',' (by decide), other '_' (by decide)⟩)

theorem readPrecision_append {precision : Option Nat} (fits : ∀ n ∈ precision, n < 2 ^ 64) (onward : Onward 6 rest)
    (text : String) : readPrecision text (precisionChars precision ++ rest) = .ok (precision, rest) := by
  unfold readPrecision
  cases precision with
  | none =>
    have none : readFlag '.' (precisionChars none ++ rest) = (false, rest) := readFlag_none (onward.ne (by decide))
    rw [none]
  | some n =>
    have point : readFlag '.' (precisionChars (some n) ++ rest) = (true, decimal (some n) ++ rest) := rfl
    have number := readNumber_decimal fits (onward.not_digit (by decide)) text
    simp only [point, number]

end

/-! ### Reading all parts -/

theorem onward_zeroChars (zero : Bool) : Onward 2 (zeroChars zero) := by
  cases zero with
  | false => exact nofun
  | true =>
    rintro c ⟨⟩
    decide

/-- A number that is not zero does not begin with a zero. -/
theorem onward_decimal {n : Option Nat} (positive : ∀ m ∈ n, 0 < m) : Onward 3 (decimal n) := by
  cases n with
  | none => exact nofun
  | some n =>
    intro c mem
    have other : c ≠ '0' := by
      rintro rfl
      exact Wire.head_toDigits (positive n rfl) mem
    rw [place_of_isDigit (isDigit_of_mem_decimal (List.mem_of_head? mem)), if_neg other]
    decide

theorem onward_precisionChars (precision : Option Nat) : Onward 5 (precisionChars precision) := by
  cases precision with
  | none => exact nofun
  | some n =>
    rintro c ⟨⟩
    decide

namespace Grammatical

variable {spec : FormatSpec} (grammatical : spec.Grammatical)

include grammatical

theorem onward_grouping : Onward 4 spec.grouping.toList := by
  intro c mem
  obtain rfl | rfl := grammatical.grouping c (by simpa using mem) <;> decide

theorem onward_type : Onward 6 spec.type.toList := by
  intro c mem
  rw [place_of_type (grammatical.type c (by simpa using mem))]
  decide

/-- Behind the alignment nothing looks like one. -/
theorem not_align : ∀ c ∈ spec.afterAlign, Alignment.ofChar? c = none := by
  have digits (n : Option Nat) (c : Char) (mem : c ∈ decimal n) : 0 < place c := by
    rw [place_of_isDigit (isDigit_of_mem_decimal mem)]
    split <;> decide
  have places : ∀ c ∈ spec.afterAlign, 0 < place c := by
    simp only [afterAlign, List.forall_mem_append]
    refine ⟨?sign, ?zero, digits _, ?grouping, ?precision, ?type⟩
    case sign =>
      cases spec.sign with
      | none => exact List.forall_mem_nil _
      | some sign => exact List.forall_mem_singleton.2 (place_char_sign sign ▸ Nat.one_pos)
    case zero =>
      cases spec.zero with
      | false => exact List.forall_mem_nil _
      | true => exact List.forall_mem_singleton.2 (by decide)
    case grouping =>
      intro c mem
      obtain rfl | rfl := grammatical.grouping c (by simpa using mem) <;> decide
    case precision =>
      cases spec.precision with
      | none => exact List.forall_mem_nil _
      | some n => exact List.forall_mem_cons.2 ⟨by decide, digits _⟩
    case type =>
      intro c mem
      rw [place_of_type (grammatical.type c (by simpa using mem))]
      decide
  exact fun c mem => ofChar?_align_of_place (places c mem)

/-- The parser finds exactly the parts that were written, whichever there are and whatever character is the fill. -/
theorem parse_text : parse spec.text = .ok spec := by
  have type := grammatical.onward_type
  have precision := (onward_precisionChars spec.precision).append type (by decide)
  have grouping := grammatical.onward_grouping.append precision (by decide)
  have width := (onward_decimal fun n mem => (grammatical.width n mem).1).append grouping (by decide)
  have zero := (onward_zeroChars spec.zero).append width (by decide)
  have read_align : readAlign spec.text.toList = (spec.fill, spec.align, spec.afterAlign) := by
    rw [text, String.toList_ofList]
    exact readAlign_append grammatical.filled grammatical.not_align
  have read_sign := readSign_append spec.sign (zero.not_sign (by decide))
  have no_alternate := readFlag_none (zero.ne (show place '#' ≤ 2 by decide))
  have read_zero := readFlag_zeroChars spec.zero width
  have read_width :=
    readNumber_decimal (fun n mem => (grammatical.width n mem).2) (grouping.not_digit (by decide)) spec.text
  have read_grouping := readGrouping_append grammatical.grouping precision
  have read_precision := readPrecision_append grammatical.precision type spec.text
  unfold parse
  simp only [read_align, afterAlign, read_sign, no_alternate, read_zero, read_width, read_grouping, read_precision,
    bind, Except.bind]
  rcases spec with ⟨_, _, _, _, _, _, _, _ | c⟩ <;> rfl

omit grammatical

/-- An alignment that is filled with another one, in front of every other part. -/
theorem parse_text_of_all_parts :
    let spec : FormatSpec := ⟨some '<', some .center, some .space, true, some 10, some ',', some 0, some 'e'⟩
    spec.Grammatical ∧ spec.text = "<^ 010,.0e" ∧ parse spec.text = .ok spec := by
  intro spec
  have grammatical : spec.Grammatical :=
    { filled := nofun
      width := by rintro _ ⟨⟩; decide
      grouping := by rintro _ ⟨⟩; exact .inl rfl
      precision := by rintro _ ⟨⟩; decide
      type := by rintro _ ⟨⟩; exact .inl (by decide) }
  exact ⟨grammatical, by decide, grammatical.parse_text⟩

/-- A zero where the width could begin is the flag. -/
example : parse "0" = .ok ⟨none, none, none, true, none, none, none, none⟩ := by rfl

end Grammatical

end SnippetKernel.FormatSpec
