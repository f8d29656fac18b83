import Mathlib.Data.List.Forall2
import Mathlib.Data.List.Nodup
import Mathlib.Data.Nat.Digits.Defs
import SnippetKernel.Program.Construct
import SnippetKernel.Proofs.Number.Words

/-! Texts that denote integers: a sign, a prefix that names the base, digits with underscores between them. These are
read, as far as the number has no more than 128 bits, and besides them texts with one more sign in front of the
digits. -/
namespace SnippetKernel

/-! ### Digits -/

/-- The digits of all bases, in order. -/
def alphabet : List Char := "0123456789abcdefghijklmnopqrstuvwxyz".toList

/-- The character is a digit of this value, in either case. -/
def DigitOf (c : Char) (d : Nat) : Prop := alphabet[d]? = some c.toLower

/-- One or more digits of the base denote the number. -/
def DigitsDenote (radix : Nat) (cs : List Char) (n : Nat) : Prop :=
  ∃ ds : List Nat, ds ≠ [] ∧ List.Forall₂ DigitOf cs ds ∧ (∀ d ∈ ds, d < radix) ∧ n = Nat.ofDigits radix ds.reverse

theorem digitValue?_ascii : ∀ n < 128, digitValue? (Char.ofNat n) = alphabet.idxOf? (Char.ofNat n).toLower := by
  decide +kernel

theorem digitValue?_eq (c : Char) : digitValue? c = alphabet.idxOf? c.toLower := by
  by_cases ascii : c.toNat < 128
  · have known := digitValue?_ascii c.toNat ascii
    rwa [Char.ofNat_toNat] at known
  · have beyond (d : Char) (small : d.toNat < 128) : ¬ c ≤ d := by
      intro le
      have le : c.toNat ≤ d.toNat := le
      omega
    have same : c.toLower = c := by
      unfold Char.toLower
      exact dif_neg fun upper => beyond 'Z' (by decide) upper.2
    have unlisted : c ∉ alphabet := by
      have small : alphabet.all (·.toNat < 128) := by decide
      exact fun mem => ascii (of_decide_eq_true (List.all_eq_true.mp small c mem))
    rw [same, List.idxOf?_eq_none_iff.mpr unlisted, digitValue?, if_neg, if_neg, if_neg]
    · exact fun within => beyond 'Z' (by decide) within.2
    · exact fun within => beyond 'z' (by decide) within.2
    · exact fun within => beyond '9' (by decide) within.2

theorem digitValue?_eq_some_iff {c : Char} {d : Nat} : digitValue? c = some d ↔ DigitOf c d := by
  have distinct : List.Nodup alphabet := by decide
  rw [digitValue?_eq, List.idxOf?_eq_some_iff, DigitOf, List.getElem?_eq_some_iff]
  refine exists_congr fun inside => and_iff_left_of_imp fun here j before there => ?_
  exact Nat.ne_of_lt before (distinct.getElem_inj_iff.mp (there.trans here.symm))

theorem digitOf_of_mem {cs : List Char} {ds : List Nat} (digits : List.Forall₂ DigitOf cs ds) {c : Char}
    (mem : c ∈ cs) : ∃ d, DigitOf c d := by
  induction digits with
  | nil => cases mem
  | cons first _ ih =>
    cases mem with
    | head => exact ⟨_, first⟩
    | tail _ mem => exact ih mem

theorem DigitOf.bounds {c : Char} {d : Nat} (digit : DigitOf c d) : 48 ≤ c.toNat ∧ c.toNat ≤ 122 := by
  have value := digitValue?_eq_some_iff.mpr digit
  have within {low high : Char} (inside : low ≤ c ∧ c ≤ high) : low.toNat ≤ c.toNat ∧ c.toNat ≤ high.toNat := inside
  unfold digitValue? at value
  split at value
  · next inside => exact ⟨(within inside).1, (within inside).2.trans (by decide)⟩
  · split at value
    · next inside => exact ⟨le_trans (by decide) (within inside).1, (within inside).2⟩
    · split at value
      · next inside => exact ⟨le_trans (by decide) (within inside).1, (within inside).2.trans (by decide)⟩
      · cases value

theorem DigitOf.not_blank {c : Char} {d : Nat} (digit : DigitOf c d) : Text.isBlank c = false := by
  obtain ⟨low, high⟩ := digit.bounds
  simp only [Text.isBlank, Bool.or_eq_false_iff, Bool.and_eq_false_iff, decide_eq_false_iff_not, beq_eq_false_iff_ne]
  omega

/-- The first digit counts most. -/
theorem ofDigits_reverse_cons (radix d : Nat) (ds : List Nat) :
    Nat.ofDigits radix (d :: ds).reverse = d * radix ^ ds.length + Nat.ofDigits radix ds.reverse := by
  rw [List.reverse_cons, Nat.ofDigits_append, Nat.ofDigits_singleton, List.length_reverse]
  ring

/-- The number so far counts as many times more as digits follow. -/
theorem foldlM_digits_eq_some_iff {radix n : Nat} {cs : List Char} (start : Nat) :
    cs.foldlM (fun n c => (digitValue? c).bind fun d => if d < radix then some (n * radix + d) else none) start =
        some n ↔
      ∃ ds : List Nat, List.Forall₂ DigitOf cs ds ∧ (∀ d ∈ ds, d < radix) ∧
        n = start * radix ^ ds.length + Nat.ofDigits radix ds.reverse := by
  induction cs generalizing start with
  | nil => simp [eq_comm]
  | cons c cs ih =>
    have place (d : Nat) (ds : List Nat) : (start * radix + d) * radix ^ ds.length + Nat.ofDigits radix ds.reverse =
        start * radix ^ (d :: ds).length + Nat.ofDigits radix (d :: ds).reverse := by
      rw [ofDigits_reverse_cons, List.length_cons]
      ring
    simp only [List.foldlM_cons, Option.bind_eq_bind, Option.bind_eq_some_iff, Option.ite_none_right_eq_some,
      Option.some.injEq, digitValue?_eq_some_iff, List.forall₂_cons_left_iff]
    constructor
    · rintro ⟨next, ⟨d, digit, small, rfl⟩, rest⟩
      obtain ⟨ds, digits, smalls, rfl⟩ := (ih _).mp rest
      exact ⟨d :: ds, ⟨d, ds, digit, digits, rfl⟩, List.forall_mem_cons.mpr ⟨small, smalls⟩, place d ds⟩
    · rintro ⟨-, ⟨d, ds, digit, digits, rfl⟩, smalls, value⟩
      obtain ⟨small, smalls⟩ := List.forall_mem_cons.mp smalls
      exact ⟨_, ⟨d, digit, small, rfl⟩, (ih _).mpr ⟨ds, digits, smalls, value.trans (place d ds).symm⟩⟩

theorem natOfDigits?_eq_some_iff {radix n : Nat} {cs : List Char} :
    natOfDigits? radix cs = some n ↔ DigitsDenote radix cs n := by
  unfold natOfDigits? DigitsDenote
  cases cs with
  | nil => simp
  | cons c cs =>
    rw [if_neg (by simp), foldlM_digits_eq_some_iff]
    refine exists_congr fun ds => ?_
    simp only [Nat.zero_mul, Nat.zero_add]
    constructor
    · rintro ⟨digits, more⟩
      refine ⟨?_, digits, more⟩
      rintro rfl
      cases digits
    · exact fun denoted => denoted.2

namespace IntText

/-! ### Grammar -/

/-- A sign or none, and whether it is a minus. -/
inductive Sign : List Char → Bool → Prop
  | none : Sign [] false
  | plus : Sign ['+'] false
  | minus : Sign ['-'] true

/-- The letters that name a base, after a zero. -/
def radixLetters : List (Char × Nat) := [('x', 16), ('X', 16), ('o', 8), ('O', 8), ('b', 2), ('B', 2)]

/-- The prefix and the base that the digits have. Base zero leaves it to the prefix; without one it is ten. -/
inductive Prefix (base : Nat) : List Char → Nat → Prop
  | none : Prefix base [] (if base = 0 then 10 else base)
  | named {letter : Char} {radix : Nat} (names : (letter, radix) ∈ radixLetters) (allowed : base = 0 ∨ base = radix) :
    Prefix base ['0', letter] radix

/-- Digits of the base with underscores among them, of which none comes last. -/
structure Digits (radix : Nat) (cs : List Char) (n : Nat) : Prop where
  last : cs.getLast? ≠ some '_'
  denote : DigitsDenote radix (cs.filter (· ≠ '_')) n

/-- The text denotes the integer. -/
inductive Denotes (base : Nat) : List Char → Int → Prop
  | spelled {sign pre digits : List Char} {minus : Bool} {radix n : Nat} (signed : Sign sign minus)
    (named : Prefix base pre radix) (first : digits.head? ≠ some '_') (denoted : Digits radix digits n) :
    Denotes base (sign ++ pre ++ digits) (if minus then -n else n)

/-- The text would denote the integer, but for a sign in front of the digits, behind another sign or a prefix. The
integer has the sign that both signs together make. -/
inductive Oversigned (base : Nat) : List Char → Int → Prop
  | spelled {sign pre inner digits : List Char} {minus turned : Bool} {radix n : Nat} (signed : Sign sign minus)
    (named : Prefix base pre radix) (more : Sign inner turned) (extra : sign ++ pre ≠ [] ∧ inner ≠ [])
    (denoted : Digits radix digits n) :
    Oversigned base (sign ++ pre ++ (inner ++ digits)) (if minus != turned then -n else n)

/-! ### Taking texts apart -/

variable {base radix n : Nat} {cs sign pre inner digits : List Char} {minus turned : Bool} {i : Int} {text : String}

def Unsigned (cs : List Char) : Prop := cs.head? ≠ some '+' ∧ cs.head? ≠ some '-'

theorem signed?_split (cs : List Char) : ∃ sign minus rest, cs = sign ++ rest ∧ signed? cs = (minus, rest) ∧
    Sign sign minus ∧ (sign = [] → Unsigned rest) := by
  unfold signed?
  split
  · exact ⟨['-'], true, _, rfl, rfl, .minus, nofun⟩
  · exact ⟨['+'], false, _, rfl, rfl, .plus, nofun⟩
  · next plain plain' =>
    refine ⟨[], false, cs, rfl, rfl, .none, fun _ => ⟨fun first => ?_, fun first => ?_⟩⟩
    · obtain ⟨rest, rfl⟩ := List.head?_eq_some_iff.mp first
      exact plain' rest rfl
    · obtain ⟨rest, rfl⟩ := List.head?_eq_some_iff.mp first
      exact plain rest rfl

theorem Sign.char (signed : Sign sign minus) : sign = [] ∨ sign = ['+'] ∨ sign = ['-'] := by
  cases signed with
  | none => exact .inl rfl
  | plus => exact .inr (.inl rfl)
  | minus => exact .inr (.inr rfl)

theorem signed?_append {rest : List Char} (signed : Sign sign minus) (bare : sign = [] → Unsigned rest) :
    signed? (sign ++ rest) = (minus, rest) := by
  cases signed with
  | none =>
    obtain ⟨plus, minus⟩ := bare rfl
    rw [List.nil_append]
    unfold signed?
    split
    · exact absurd rfl minus
    · exact absurd rfl plus
    · rfl
  | plus => rfl
  | minus => rfl

theorem radixOf_split (base : Nat) (cs : List Char) :
    ∃ pre radix rest, cs = pre ++ rest ∧ radixOf base cs = (radix, rest) ∧ Prefix base pre radix := by
  have named {letter : Char} {radix : Nat} (more : List Char) (names : (letter, radix) ∈ radixLetters) :
      ∃ pre radix' rest, '0' :: letter :: more = pre ++ rest ∧
        (if base = 0 ∨ base = radix then (radix, more) else (base, '0' :: letter :: more)) = (radix', rest) ∧
          Prefix base pre radix' := by
    split
    · next allowed => exact ⟨['0', letter], radix, more, rfl, rfl, .named names allowed⟩
    · next other =>
      have bare : Prefix base [] (if base = 0 then 10 else base) := .none
      rw [if_neg fun zero => other (.inl zero)] at bare
      exact ⟨[], base, _, rfl, rfl, bare⟩
  unfold radixOf
  split
  · exact named _ (by decide)
  · exact named _ (by decide)
  · exact named _ (by decide)
  · exact named _ (by decide)
  · exact named _ (by decide)
  · exact named _ (by decide)
  · exact ⟨[], _, cs, rfl, rfl, .none⟩

/-- No prefix that the base allows is in front. -/
def Bare (base : Nat) (cs : List Char) : Prop :=
  ∀ letter radix rest, (letter, radix) ∈ radixLetters → cs = '0' :: letter :: rest → ¬ (base = 0 ∨ base = radix)

theorem radixOf_append {rest : List Char} (named : Prefix base pre radix) (bare : pre = [] → Bare base rest) :
    radixOf base (pre ++ rest) = (radix, rest) := by
  cases named with
  | named names allowed =>
    simp only [radixLetters, List.mem_cons, Prod.mk.injEq, List.not_mem_nil, or_false] at names
    rcases names with ⟨rfl, rfl⟩ | ⟨rfl, rfl⟩ | ⟨rfl, rfl⟩ | ⟨rfl, rfl⟩ | ⟨rfl, rfl⟩ | ⟨rfl, rfl⟩ <;>
      exact if_pos allowed
  | none =>
    have other {letter : Char} {radix : Nat} {more : List Char} (names : (letter, radix) ∈ radixLetters)
        (here : rest = '0' :: letter :: more) :
        (if base = 0 ∨ base = radix then (radix, more) else (base, rest)) = (if base = 0 then 10 else base, rest) := by
      have refused := bare rfl letter radix more names here
      rw [if_neg refused, if_neg fun zero => refused (.inl zero)]
    rw [List.nil_append]
    unfold radixOf
    split
    · exact other (by decide) rfl
    · exact other (by decide) rfl
    · exact other (by decide) rfl
    · exact other (by decide) rfl
    · exact other (by decide) rfl
    · exact other (by decide) rfl
    · rfl

theorem intOfDigits?_append {rest : List Char} (signed : Sign sign minus) (bare : sign = [] → Unsigned rest)
    (radix : Nat) : intOfDigits? radix (sign ++ rest) =
      (natOfDigits? radix rest).map fun (n : Nat) => if minus then -(n : Int) else n := by
  simp only [intOfDigits?, signed?_append signed bare]
  cases natOfDigits? radix rest <;> rfl

/-! ### Digits are no signs and no prefixes -/

theorem digit_of_mem (denoted : Digits radix digits n) {c : Char} (mem : c ∈ digits) (other : c ≠ '_') :
    ∃ d < radix, DigitOf c d := by
  obtain ⟨ds, -, digits_, small, -⟩ := denoted.denote
  have kept : c ∈ digits.filter (· ≠ '_') := List.mem_filter.mpr ⟨mem, by simpa using other⟩
  obtain ⟨k, inside, rfl⟩ := List.getElem_of_mem kept
  have length := digits_.length_eq
  exact ⟨ds.get ⟨k, by omega⟩, small _ (List.getElem_mem _), List.Forall₂.get digits_ inside (by omega)⟩

theorem Digits.unsigned (denoted : Digits radix digits n) : Unsigned digits := by
  have no_digit (c : Char) (other : c ≠ '_') (unlisted : digitValue? c = none) : digits.head? ≠ some c := by
    intro first
    obtain ⟨d, -, digit⟩ := digit_of_mem denoted (List.mem_of_head? first) other
    rw [← digitValue?_eq_some_iff, unlisted] at digit
    cases digit
  exact ⟨no_digit '+' (by decide) (by decide), no_digit '-' (by decide) (by decide)⟩

theorem Digits.filter_unsigned (denoted : Digits radix digits n) : Unsigned (digits.filter (· ≠ '_')) := by
  have again : Digits radix (digits.filter (· ≠ '_')) n := by
    refine ⟨fun last => ?_, by simpa using denoted.denote⟩
    simpa using (List.mem_filter.mp (List.mem_of_getLast? last)).2
  exact again.unsigned

/-- The letters of prefixes are no digits of the bases that they name, nor of base ten. -/
theorem Digits.bare (denoted : Digits (if base = 0 then 10 else base) digits n) : Bare base digits := by
  rintro letter radix rest names rfl allowed
  have value : ∀ p ∈ radixLetters, p.1 ≠ '_' ∧ ∃ d, digitValue? p.1 = some d ∧ 10 ≤ d ∧ p.2 ≤ d := by decide
  obtain ⟨other, v, valued, ten, large⟩ := value _ names
  obtain ⟨d, small, digit⟩ := digit_of_mem denoted (c := letter) (by simp) other
  obtain rfl : v = d := Option.some.inj (valued.symm.trans (digitValue?_eq_some_iff.mpr digit))
  split at small <;> omega

/-! ### Reading -/

/-- What is read of a sign, a prefix and the rest, once these are known. -/
theorem denoted?_of_parts {rest : List Char} (parts : Text.dropEnds Text.isBlank text.toList = sign ++ (pre ++ rest))
    (signed : Sign sign minus) (unsigned : sign = [] → Unsigned (pre ++ rest)) (named : Prefix base pre radix)
    (bare : pre = [] → Bare base rest) (first : rest.head? ≠ some '_') (last : rest.getLast? ≠ some '_') :
    denoted? base text = (intOfDigits? radix (rest.filter (· ≠ '_'))).bind fun i =>
      if fitsWide i then some (if minus then -i else i) else none := by
  simp only [denoted?, parts, signed?_append signed unsigned, radixOf_append named bare, first, last, or_self, if_false]
  cases intOfDigits? radix (rest.filter (· ≠ '_')) <;> rfl

theorem fitsWide_iff {i : Int} : fitsWide i = true ↔ -2 ^ 127 ≤ i ∧ i < 2 ^ 127 := by
  have bound : Int.pow 2 127 = 2 ^ 127 := rfl
  rw [fitsWide, Bool.and_eq_true, decide_eq_true_iff, decide_eq_true_iff, bound]

theorem Prefix.append_unsigned {rest : List Char} (named : Prefix base pre radix) (bare : pre = [] → Unsigned rest) :
    Unsigned (pre ++ rest) := by
  cases named with
  | none => exact bare rfl
  | named => exact ⟨by simp, by simp⟩

/-- A text that denotes an integer is read as that integer, unless the number has more than 127 bits. -/
theorem denoted?_of_denotes (denotes : Denotes base (Text.dropEnds Text.isBlank text.toList) i) :
    denoted? base text = if i.natAbs < 2 ^ 127 then some i else none := by
  generalize trimmed : Text.dropEnds Text.isBlank text.toList = cs at denotes
  cases denotes with
  | @spelled sign pre digits minus radix n signed named first denoted =>
    have whole : intOfDigits? radix (digits.filter (· ≠ '_')) = some (n : Int) := by
      have plain := intOfDigits?_append .none (fun _ => denoted.filter_unsigned) radix
      rwa [natOfDigits?_eq_some_iff.mpr denoted.denote] at plain
    have bare (none_named : pre = []) : Bare base digits := by
      cases named with
      | none => exact denoted.bare
      | named => cases none_named
    rw [List.append_assoc] at trimmed
    rw [denoted?_of_parts trimmed signed (fun _ => named.append_unsigned fun _ => denoted.unsigned) named bare first
      denoted.last, whole, Option.bind_some]
    refine if_congr ?_ rfl rfl
    rw [fitsWide_iff]
    split <;> omega

theorem last_cons {c : Char} (other : c ≠ '_') : (c :: digits).getLast? = some '_' ↔ digits.getLast? = some '_' := by
  rw [List.getLast?_cons]
  cases digits.getLast? <;> simp [other]

theorem negate_both (minus turned : Bool) (n : Int) :
    (if minus then -(if turned then -n else n) else if turned then -n else n) = if minus != turned then -n else n := by
  cases minus <;> cases turned <;> simp

/-- What is read of a text with a sign too many. -/
theorem denoted?_of_oversigned (twice : Oversigned base (Text.dropEnds Text.isBlank text.toList) i) :
    (Word.InRange i → denoted? base text = some i) ∧ (denoted? base text = some i ∨ denoted? base text = none) := by
  generalize trimmed : Text.dropEnds Text.isBlank text.toList = cs at twice
  cases twice with
  | @spelled sign pre inner digits minus turned radix n signed named more extra denoted =>
    have one := more.char.resolve_left extra.2
    have kept : (inner ++ digits).filter (· ≠ '_') = inner ++ digits.filter (· ≠ '_') := by
      rcases one with rfl | rfl <;> rfl
    have whole : intOfDigits? radix ((inner ++ digits).filter (· ≠ '_')) = some (if turned then -(n : Int) else n) := by
      rw [kept, intOfDigits?_append more fun bare => absurd bare extra.2, natOfDigits?_eq_some_iff.mpr denoted.denote]
      rfl
    have first : (inner ++ digits).head? ≠ some '_' := by
      rcases one with rfl | rfl <;> simp
    have last : (inner ++ digits).getLast? ≠ some '_' := by
      rcases one with rfl | rfl
      · exact (last_cons (by decide)).not.mpr denoted.last
      · exact (last_cons (by decide)).not.mpr denoted.last
    have bare (_ : pre = []) : Bare base (inner ++ digits) := by
      rintro letter radix rest - here
      rcases one with rfl | rfl <;> cases here
    have unsigned (none_signed : sign = []) : Unsigned (pre ++ (inner ++ digits)) :=
      named.append_unsigned fun none_named => absurd (by rw [none_signed, none_named]; rfl) extra.1
    rw [List.append_assoc] at trimmed
    rw [denoted?_of_parts trimmed signed unsigned named bare first last, whole, Option.bind_some]
    rw [negate_both]
    refine ⟨fun inside => if_pos ?_, ite_eq_or_eq _ _ _⟩
    rw [fitsWide_iff]
    unfold Word.InRange at inside
    cases minus <;> cases turned <;> simp at inside ⊢ <;> omega

/-- A text begins with what it begins with without underscores, unless that is one. -/
theorem uncovered {rest ds : List Char} {c : Char} (kept : rest.filter (· ≠ '_') = [c] ++ ds)
    (first : rest.head? ≠ some '_') : ∃ digits, rest = c :: digits ∧ ds = digits.filter (· ≠ '_') := by
  cases rest with
  | nil => cases kept
  | cons e digits =>
    have other : e ≠ '_' := fun same => first (congrArg some same)
    rw [List.filter_cons_of_pos (by simpa using other)] at kept
    obtain ⟨rfl, rfl⟩ := List.cons_eq_cons.mp kept
    exact ⟨digits, rfl, rfl⟩

/-- Nothing else is read. -/
theorem spelled_of_denoted? (read : denoted? base text = some i) :
    Denotes base (Text.dropEnds Text.isBlank text.toList) i ∨
      Oversigned base (Text.dropEnds Text.isBlank text.toList) i := by
  generalize trimmed : Text.dropEnds Text.isBlank text.toList = cs
  obtain ⟨sign, minus, behind, outer, parts, signed, unsigned⟩ := signed?_split cs
  obtain ⟨pre, radix, rest, front, parts', named⟩ := radixOf_split base behind
  obtain ⟨inner, turned, ds, kept, -, more, plain⟩ := signed?_split (rest.filter (· ≠ '_'))
  simp only [denoted?, trimmed, parts, parts'] at read
  split at read
  · cases read
  · next ends =>
    rw [not_or] at ends
    split at read
    · next j whole =>
      rw [Option.ite_none_right_eq_some, Option.some.injEq] at read
      obtain ⟨-, rfl⟩ := read
      rw [kept, intOfDigits?_append more plain] at whole
      obtain ⟨n, value, rfl⟩ := Option.map_eq_some_iff.mp whole
      rw [natOfDigits?_eq_some_iff] at value
      rw [outer, front, ← List.append_assoc]
      obtain none_more | ⟨c, rfl⟩ : inner = [] ∨ ∃ c, inner = [c] :=
        more.char.imp id fun one => one.elim (⟨_, ·⟩) (⟨_, ·⟩)
      · subst none_more
        cases more
        exact .inl (.spelled signed named ends.1 ⟨ends.2, kept ▸ value⟩)
      · obtain ⟨digits, rfl, rfl⟩ := uncovered kept ends.1
        have extra : sign ++ pre ≠ [] ∧ [c] ≠ [] := by
          refine ⟨fun bare => ?_, nofun⟩
          obtain ⟨rfl, rfl⟩ := List.append_eq_nil_iff.mp bare
          have first := unsigned rfl
          rw [front] at first
          cases more with
          | plus => exact first.1 rfl
          | minus => exact first.2 rfl
        have other : c ≠ '_' := fun same => ends.1 (congrArg some same)
        rw [negate_both]
        exact .inr (.spelled signed named more extra ⟨(last_cons other).not.mp ends.2, value⟩)
    · cases read

/-- In a text that denotes an integer no sign follows the first. -/
theorem Denotes.one_sign (denotes : Denotes base cs i) : Unsigned (signed? cs).2 := by
  cases denotes with
  | spelled signed named first denoted =>
    have behind := named.append_unsigned fun _ => denoted.unsigned
    rwa [List.append_assoc, signed?_append signed fun _ => behind]

/-! ### Outcomes -/

def invalid (base : Int64) (text : String) : Exception :=
  .valueError ("invalid literal for int() with base " ++ toString base.toInt ++ ": " ++ Text.quoted text)

def tooLarge : Exception := ⟨.overflow, "int too large (integers are 64-bit)"⟩

/-- Bases that texts can have. -/
def Valid (base : Int64) : Prop := base.toInt = 0 ∨ 2 ≤ base.toInt ∧ base.toInt ≤ 36

section

variable {b : Int64}

theorem parse_of_none (valid : Valid b) (unread : denoted? b.toInt.toNat text = none) :
    parse b text = .error (invalid b text) := by
  unfold Valid at valid
  unfold parse
  simp only [unread]
  rw [if_neg (by omega)]
  rfl

theorem parse_of_some (valid : Valid b) (read : denoted? b.toInt.toNat text = some i) :
    parse b text = (narrow? i).elim (.error tooLarge) .ok := by
  unfold Valid at valid
  unfold parse
  simp only [read]
  rw [if_neg (by omega)]
  cases narrow? i <;> rfl

theorem parse_of_outside (valid : Valid b) (read : denoted? b.toInt.toNat text = some i) (outside : ¬ Word.InRange i) :
    parse b text = .error tooLarge := by
  rw [parse_of_some valid read, Word.narrow?_of_outside outside]
  rfl

/-- The integers that come out are those that the text denotes. -/
theorem parse_eq_ok_iff (valid : Valid b) {n : Int64} : parse b text = .ok n ↔
    Denotes b.toInt.toNat (Text.dropEnds Text.isBlank text.toList) n.toInt ∨
      Oversigned b.toInt.toNat (Text.dropEnds Text.isBlank text.toList) n.toInt := by
  constructor
  · intro parsed
    cases read : denoted? b.toInt.toNat text with
    | none =>
      rw [parse_of_none valid read] at parsed
      cases parsed
    | some i =>
      rw [parse_of_some valid read] at parsed
      cases fits : narrow? i with
      | none =>
        rw [fits] at parsed
        cases parsed
      | some m =>
        rw [fits] at parsed
        cases parsed
        rw [toInt_of_narrow? fits]
        exact spelled_of_denoted? read
  · intro spelled
    have read : denoted? b.toInt.toNat text = some n.toInt := by
      rcases spelled with denotes | twice
      · have inside := Word.inRange_toInt n
        unfold Word.InRange at inside
        rw [denoted?_of_denotes denotes, if_pos (by omega)]
      · exact (denoted?_of_oversigned twice).1 (Word.inRange_toInt n)
    rw [parse_of_some valid read, narrow?_toInt]
    rfl

end

end IntText

open IntText

theorem construct_int {v : Value} {base : Int64} (given : v.int? = some base) (text : String) (r : Reach) :
    Construct.apply .int [.str text, v] [] r = match IntText.parse base text with
      | .ok n => .ok (.int n) r
      | .error e => .error (.exception e) r := by
  have steps : Construct.apply .int [.str text, v] [] r =
      (Work.ofExcept (IntText.parse base text) >>= fun n => pure (.int n)) r := by
    cases v with
    | bool _ | int _ =>
      cases given
      rfl
    | _ => cases given
  rw [steps]
  cases IntText.parse base text <;> rfl

/-- A text is converted to the integers of 64 bits that it denotes, and to no others, but an additional sign in front of
the digits is taken as well. A number that does not fit is an `OverflowError`, unless it has more than 127 bits; such a
number is a `ValueError`, as is any text that denotes nothing. -/
theorem int_of_text {v : Value} {base : Int64} (given : v.int? = some base) (valid : Valid base) (text : String)
    (r : Reach) :
    let cs := Text.dropEnds Text.isBlank text.toList
    let result := Construct.apply .int [.str text, v] [] r
    (∀ n : Int64, result = .ok (.int n) r ↔
      Denotes base.toInt.toNat cs n.toInt ∨ Oversigned base.toInt.toNat cs n.toInt) ∧
    (∀ i, Denotes base.toInt.toNat cs i → i.natAbs < 2 ^ 127 → ¬ Word.InRange i →
      result = .error (.exception tooLarge) r) ∧
    (∀ i, Denotes base.toInt.toNat cs i → 2 ^ 127 ≤ i.natAbs → result = .error (.exception (invalid base text)) r) ∧
    (∀ i, Oversigned base.toInt.toNat cs i → ¬ Word.InRange i →
      result = .error (.exception tooLarge) r ∨ result = .error (.exception (invalid base text)) r) ∧
    ((∀ i, ¬ Denotes base.toInt.toNat cs i) → (∀ i, ¬ Oversigned base.toInt.toNat cs i) →
      result = .error (.exception (invalid base text)) r) := by
  intro cs result
  have outcome : result = _ := construct_int given text r
  refine ⟨fun n => ?_, fun i denotes small outside => ?_, fun i denotes large => ?_, fun i twice outside => ?_,
    fun plain single => ?_⟩
  · rw [outcome, ← parse_eq_ok_iff valid]
    cases parse base text <;> simp
  · have read := denoted?_of_denotes denotes
    rw [if_pos small] at read
    rw [outcome, parse_of_outside valid read outside]
  · have read := denoted?_of_denotes denotes
    rw [if_neg (Nat.not_lt.mpr large)] at read
    rw [outcome, parse_of_none valid read]
  · rcases (denoted?_of_oversigned twice).2 with read | read
    · left
      rw [outcome, parse_of_outside valid read outside]
    · right
      rw [outcome, parse_of_none valid read]
  · cases read : denoted? base.toInt.toNat text with
    | none => rw [outcome, parse_of_none valid read]
    | some i => exact ((spelled_of_denoted? read).elim (plain i) (single i)).elim

/-- A hexadecimal number with blanks around it, and one that does not fit. -/
theorem int_of_text_of_prefixed :
    (Value.int 0).int? = some 0 ∧ Valid 0 ∧ Denotes 0 "-0X1_f".toList (-31) ∧
      (∀ r, Construct.apply .int [.str " -0X1_f\n", .int 0] [] r = .ok (.int (-31)) r) ∧
      Denotes 0 "9223372036854775808".toList 9223372036854775808 ∧
      ∀ r, Construct.apply .int [.str "9223372036854775808", .int 0] [] r = .error (.exception tooLarge) r := by
  have valid : Valid 0 := .inl rfl
  have negative : Denotes 0 "-0X1_f".toList (-31) := by
    have named : Prefix 0 ['0', 'X'] 16 := .named (by decide) (.inl rfl)
    have denoted : IntText.Digits 16 ['1', '_', 'f'] 31 := ⟨by decide, natOfDigits?_eq_some_iff.mp (by decide)⟩
    exact .spelled .minus named (by decide) denoted
  have large : Denotes 0 "9223372036854775808".toList 9223372036854775808 := by
    have denoted : IntText.Digits 10 "9223372036854775808".toList 9223372036854775808 :=
      ⟨by decide, natOfDigits?_eq_some_iff.mp (by decide)⟩
    exact .spelled .none .none (by decide) denoted
  refine ⟨rfl, valid, negative, fun r => ?_, large, fun r => ?_⟩
  · have trimmed : Text.dropEnds Text.isBlank " -0X1_f\n".toList = "-0X1_f".toList := by decide
    obtain ⟨results, -⟩ := int_of_text (v := .int 0) rfl valid " -0X1_f\n" r
    rw [trimmed] at results
    exact (results (-31)).mpr (.inl negative)
  · have trimmed : Text.dropEnds Text.isBlank "9223372036854775808".toList = "9223372036854775808".toList := by decide
    obtain ⟨-, results, -⟩ := int_of_text (v := .int 0) rfl valid "9223372036854775808" r
    rw [trimmed] at results
    exact results _ large (by decide) (by decide)

/-- A text with two signs denotes no integer, yet it is converted to one. A number of 130 bits is an integer that does
not fit, yet it is said to be none. -/
theorem signs_and_sizes_missed :
    (∀ i, ¬ Denotes 10 "--5".toList i) ∧
      (∀ r, Construct.apply .int [.str "--5", .int 10] [] r = .ok (.int 5) r) ∧
      Denotes 10 "1000000000000000000000000000000000000000".toList 1000000000000000000000000000000000000000 ∧
      ∀ r, Construct.apply .int [.str "1000000000000000000000000000000000000000", .int 10] [] r =
        .error (.exception (invalid 10 "1000000000000000000000000000000000000000")) r := by
  refine ⟨fun i denotes => denotes.one_sign.2 (by decide), fun r => ?_, ?_, fun r => ?_⟩
  · rw [construct_int rfl, show IntText.parse 10 "--5" = .ok 5 by decide]
  · have denoted : IntText.Digits 10 "1000000000000000000000000000000000000000".toList
        1000000000000000000000000000000000000000 := ⟨by decide, natOfDigits?_eq_some_iff.mp (by decide)⟩
    exact .spelled .none .none (by decide) denoted
  · have valid : Valid 10 := .inr (by decide)
    have unread : denoted? (10 : Int64).toInt.toNat "1000000000000000000000000000000000000000" = none := by decide
    rw [construct_int rfl, parse_of_none valid unread]

end SnippetKernel
