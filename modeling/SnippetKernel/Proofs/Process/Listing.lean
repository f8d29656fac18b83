import Mathlib.Data.List.DropRight
import SnippetKernel.Process.Owners
import SnippetKernel.Proofs.Program.IntegerTexts

/-! The processes that a listing names, whatever it consists of. A line names a process if it is a number in base ten
that fits, with blanks around it; all other lines name none. Each process is among those of the listing once, and they
are in increasing order. -/
namespace SnippetKernel

/-! ### Numbers below a bound -/

namespace Bounded

variable {bound value n : Nat} {cs : List Char} {text : String}

theorem digits_eq_ok_iff (start : value < bound) : digits bound value cs = .ok n ↔
    n < bound ∧ ∃ ds : List Nat, List.Forall₂ DigitOf cs ds ∧ (∀ d ∈ ds, d < 10) ∧
      n = value * 10 ^ ds.length + Nat.ofDigits 10 ds.reverse := by
  rw [← foldlM_digits_eq_some_iff]
  induction cs generalizing value with
  | nil =>
    simp only [digits, List.foldlM_nil, Except.ok.injEq]
    constructor
    · rintro rfl
      exact ⟨start, rfl⟩
    · rintro ⟨-, same⟩
      exact Option.some.inj same
  | cons c rest ih =>
    simp only [digits, List.foldlM_cons]
    cases digitValue? c with
    | none => simp
    | some d =>
      by_cases small : d < 10
      · simp only [Option.bind_some, if_pos small, Nat.not_le.mpr small, if_false]
        by_cases fits : value * 10 + d < bound
        · rw [if_neg (Nat.not_le.mpr fits), ih fits]
          rfl
        · rw [if_pos (Nat.not_lt.mp fits)]
          constructor
          · intro refused
            cases refused
          · rintro ⟨below, denoted⟩
            obtain ⟨ds, -, -, rfl⟩ := (foldlM_digits_eq_some_iff (value * 10 + d)).mp denoted
            -- Further digits do not make a number less, so that one too large at any digit is so at the end.
            have grows : value * 10 + d ≤ (value * 10 + d) * 10 ^ ds.length :=
              Nat.le_mul_of_pos_right _ (Nat.pow_pos (by decide))
            omega
      · simp [small, Nat.not_lt.mp small]

theorem digits_zero_eq_ok_iff (positive : 0 < bound) (some_digit : cs ≠ []) :
    digits bound 0 cs = .ok n ↔ n < bound ∧ DigitsDenote 10 cs n := by
  rw [digits_eq_ok_iff positive]
  refine and_congr_right fun _ => exists_congr fun ds => ?_
  simp only [Nat.zero_mul, Nat.zero_add]
  constructor
  · rintro ⟨digits, more⟩
    refine ⟨?_, digits, more⟩
    rintro rfl
    cases digits
    exact some_digit rfl
  · exact fun denoted => denoted.2

theorem plus_not_digit (d : Nat) : ¬DigitOf '+' d := fun digit =>
  absurd (List.mem_of_getElem? digit) (by decide)

theorem not_denote_plus (radix : Nat) (rest : List Char) : ¬DigitsDenote radix ('+' :: rest) n := by
  rintro ⟨ds, -, digits, -⟩
  cases digits with
  | cons digit _ => exact plus_not_digit _ digit

/-- A number may have one plus sign in front. -/
theorem ofText?_eq_some_iff (positive : 0 < bound) : ofText? bound text = some n ↔
    n < bound ∧ ∃ sign digits, text.toList = sign ++ digits ∧ (sign = [] ∨ sign = ['+']) ∧ DigitsDenote 10 digits n := by
  have denotes_some {cs : List Char} (denoted : DigitsDenote 10 cs n) : cs ≠ [] := by
    rintro rfl
    obtain ⟨ds, some_digit, digits, -⟩ := denoted
    cases digits
    exact some_digit rfl
  have read {cs : List Char} (some_digit : cs ≠ []) :
      (digits bound 0 cs).toOption = some n ↔ n < bound ∧ DigitsDenote 10 cs n := by
    rw [← digits_zero_eq_ok_iff positive some_digit]
    cases digits bound 0 cs <;> simp [Except.toOption]
  rw [ofText?, ofText]
  constructor
  · intro taken
    split at taken
    · cases taken
    · cases taken
    · next rest more spelled =>
      obtain ⟨below, denoted⟩ := (read more).mp taken
      exact ⟨below, ['+'], rest, spelled, .inr rfl, denoted⟩
    · next some_digit _ _ =>
      obtain ⟨below, denoted⟩ := (read some_digit).mp taken
      exact ⟨below, [], text.toList, rfl, .inl rfl, denoted⟩
  · rintro ⟨below, sign, digits, spelled, rfl | rfl, denoted⟩
    · rw [List.nil_append] at spelled
      rw [spelled]
      split
      · exact absurd rfl (denotes_some denoted)
      · exact absurd denoted (not_denote_plus 10 [])
      · exact absurd denoted (not_denote_plus 10 _)
      · exact (read (denotes_some denoted)).mpr ⟨below, denoted⟩
    · rw [spelled]
      split
      · next none => cases none
      · next alone =>
        cases alone
        exact absurd rfl (denotes_some denoted)
      · next rest more same =>
        cases same
        exact (read (denotes_some denoted)).mpr ⟨below, denoted⟩
      · next more _ other => exact absurd rfl (other _)

end Bounded

/-! ### Lines -/

namespace Text

/-- What is cut off is blank. -/
theorem exists_of_dropEnds (drop : Char → Bool) (cs : List Char) :
    ∃ before after, cs = before ++ dropEnds drop cs ++ after ∧ (∀ c ∈ before, drop c) ∧ ∀ c ∈ after, drop c := by
  refine ⟨cs.takeWhile drop, ((cs.dropWhile drop).reverse.takeWhile drop).reverse, ?_, fun c => List.mem_takeWhile_imp,
    fun c mem => List.mem_takeWhile_imp (List.mem_reverse.mp mem)⟩
  rw [dropEnds, dropStart, dropEnd, List.append_assoc, ← List.reverse_append, List.takeWhile_append_dropWhile,
    List.reverse_reverse, List.takeWhile_append_dropWhile]

end Text

namespace Owners

variable {line : List UInt8} {pid : Pid}

/-- The line is a text, and this is a number in base ten between blanks. A plus sign and zeros may stand in front. -/
inductive Names (line : List UInt8) (pid : Pid) : Prop
  | spelled {before sign digits after : List Char}
      (text : Text.textOf? line = some (String.ofList (before ++ (sign ++ digits) ++ after)))
      (first : ∀ c ∈ before, Text.isBlank c) (last : ∀ c ∈ after, Text.isBlank c) (signed : sign = [] ∨ sign = ['+'])
      (denoted : DigitsDenote 10 digits pid.toNat)

theorem not_blank_of_denoted {sign digits : List Char} {n : Nat} (signed : sign = [] ∨ sign = ['+'])
    (denoted : DigitsDenote 10 digits n) : ∀ c ∈ sign ++ digits, Text.isBlank c = false := by
  obtain ⟨ds, -, spelled, -⟩ := denoted
  intro c mem
  rcases List.mem_append.mp mem with of_sign | of_digits
  · rcases signed with rfl | rfl
    · cases of_sign
    · cases List.mem_singleton.mp of_sign
      decide
  · obtain ⟨d, digit⟩ := digitOf_of_mem spelled of_digits
    exact digit.not_blank

theorem pid?_eq_some_iff : pid? line = some pid ↔ Names line pid := by
  have fits (n : Nat) : n < 4294967296 ∧ UInt32.ofNat n = pid ↔ n = pid.toNat := by
    constructor
    · rintro ⟨below, rfl⟩
      exact (UInt32.toNat_ofNat_of_lt' below).symm
    · rintro rfl
      exact ⟨pid.toNat_lt, UInt32.ofNat_toNat⟩
  unfold pid?
  simp only [Option.bind_eq_bind, Option.bind_eq_some_iff, Option.pure_def, Option.some.injEq,
    Bounded.ofText?_eq_some_iff (show 0 < 4294967296 by decide)]
  constructor
  · rintro ⟨text, decoded, n, ⟨below, sign, digits, trimmed, signed, denoted⟩, rfl⟩
    obtain ⟨before, after, whole, first, last⟩ := Text.exists_of_dropEnds Text.isBlank text.toList
    rw [Text.trim, String.toList_ofList] at trimmed
    rw [trimmed] at whole
    have spelled : Text.textOf? line = some (String.ofList (before ++ (sign ++ digits) ++ after)) := by
      rw [decoded, ← whole, String.ofList_toList]
    exact .spelled spelled first last signed ((fits n).mp ⟨below, rfl⟩ ▸ denoted)
  · rintro ⟨decoded, first, last, signed, denoted⟩
    obtain ⟨below, same⟩ := (fits pid.toNat).mpr rfl
    have visible := not_blank_of_denoted signed denoted
    refine ⟨_, decoded, pid.toNat, ⟨below, _, _, ?_, signed, denoted⟩, same⟩
    rw [Text.trim, String.toList_ofList, String.toList_ofList]
    exact Text.dropEnds_append first last (fun c mem => visible c (List.mem_of_head? mem))
      (fun c mem => visible c (List.mem_of_getLast? mem))

/-! ### All lines -/

theorem mem_ofListing {listing : ByteArray} :
    pid ∈ ofListing listing ↔ ∃ line ∈ Text.linesOf listing, Names line pid := by
  have mem_all (pids : List Pid) : pid ∈ pids.foldr insert [] ↔ pid ∈ pids := by
    induction pids with
    | nil => rfl
    | cons other rest ih => rw [List.foldr_cons, mem_insert, ih, List.mem_cons]
  simp only [ofListing, mem_all, List.mem_filterMap, pid?_eq_some_iff]

theorem increasing_insert {pids : List Pid} (increasing : pids.Pairwise (· < ·)) :
    (insert pid pids).Pairwise (· < ·) := by
  induction increasing with
  | nil => exact List.pairwise_singleton _ _
  | @cons other rest less increasing ih =>
    simp only [insert]
    split
    case isTrue below =>
      have all_below : ∀ p ∈ other :: rest, pid < p :=
        List.forall_mem_cons.mpr ⟨below, fun p mem => UInt32.lt_trans below (less p mem)⟩
      exact .cons all_below (.cons less increasing)
    case isFalse not_below =>
      split
      case isTrue => exact .cons less increasing
      case isFalse different =>
        refine .cons (fun p mem => ?_) ih
        rcases mem_insert.mp mem with rfl | mem
        · exact UInt32.lt_of_le_of_ne (UInt32.not_lt.mp not_below) (Ne.symm different)
        · exact less p mem

theorem increasing_ofListing (listing : ByteArray) : (ofListing listing).Pairwise (· < ·) := by
  have increasing (pids : List Pid) : (pids.foldr insert []).Pairwise (· < ·) := by
    induction pids with
    | nil => exact .nil
    | cons _ _ ih => exact increasing_insert ih
  exact increasing _

end Owners
end SnippetKernel
