import Mathlib.Algebra.Order.Ring.Int
import Mathlib.Tactic.Linarith
import Mathlib.Tactic.Ring
import SnippetKernel.Number.Reading

/-! Integers of 64 bits, step by step as a machine computes with them. Division cuts off and is corrected afterwards,
powers come from repeated squaring, and only some of the steps are checked. The results are those of exact arithmetic,
if these fit, with one exception among the remainders. -/
namespace SnippetKernel

namespace Word

def InRange (i : Int) : Prop := -2 ^ 63 ≤ i ∧ i < 2 ^ 63

instance (i : Int) : Decidable (InRange i) := inferInstanceAs (Decidable (_ ∧ _))

variable {i : Int} {a b : Int64}

theorem inRange_toInt (a : Int64) : InRange a.toInt := ⟨a.le_toInt, a.toInt_lt⟩

theorem narrow?_of_inRange (inside : InRange i) : narrow? i = some (Int64.ofInt i) := by
  have low : Int64.minValue.toInt = -2 ^ 63 := by decide
  have high : Int64.maxValue.toInt = 2 ^ 63 - 1 := by decide
  have last := inside.2
  rw [narrow?, low, high, if_pos ⟨inside.1, by omega⟩]

theorem narrow?_of_outside (outside : ¬ InRange i) : narrow? i = none := by
  have low : Int64.minValue.toInt = -2 ^ 63 := by decide
  have high : Int64.maxValue.toInt = 2 ^ 63 - 1 := by decide
  rw [narrow?, low, high, if_neg]
  rintro ⟨first, last⟩
  exact outside ⟨first, by omega⟩

theorem toInt_ofInt (inside : InRange i) : (Int64.ofInt i).toInt = i := Int64.toInt_ofInt_of_le inside.1 inside.2

/-! ### Powers -/

/-- What is out of range stays there when it is multiplied by a positive number. -/
theorem outside_mul {k : Int} (outside : ¬ InRange i) (positive : 1 ≤ k) : ¬ InRange (i * k) := by
  unfold InRange at outside ⊢
  rintro ⟨low, high⟩
  by_cases sign : 0 ≤ i
  · have grows : i * 1 ≤ i * k := Int.mul_le_mul_of_nonneg_left positive sign
    omega
  · have grows : i * k ≤ i * 1 := Int.mul_le_mul_of_nonpos_left (by omega) positive
    omega

/-- `2 ^ 63` is no square, so a square out of range is too large with either sign. -/
theorem square_outside {base : Int} (outside : ¬ InRange (base * base)) : 2 ^ 63 < base * base := by
  have positive := mul_self_nonneg base
  have large : 2 ^ 63 ≤ base * base := by
    unfold InRange at outside
    omega
  by_contra small
  have exact_ : base * base = 9223372036854775808 := by omega
  rcases Int.le_total 0 base with sign | sign
  · have above : 3037000500 ≤ base := by nlinarith
    nlinarith
  · have below : base ≤ -3037000500 := by nlinarith
    nlinarith

theorem square_pow_outside {base c : Int} {m : Nat} (outside : ¬ InRange (base * base)) (other : c ≠ 0)
    (some_ : m ≠ 0) : ¬ InRange (c * (base * base) ^ m) := by
  have large := square_outside outside
  have powers : base * base ≤ (base * base) ^ m := le_self_pow₀ (by omega) some_
  rintro ⟨low, high⟩
  rcases Int.lt_or_gt_of_ne other with sign | sign
  · nlinarith
  · nlinarith

def times? (a b : Int64) : Option Int64 := narrow? (a.toInt * b.toInt)

theorem times?_of_inRange (inside : InRange (a.toInt * b.toInt)) :
    ∃ c, times? a b = some c ∧ c.toInt = a.toInt * b.toInt := ⟨_, narrow?_of_inRange inside, toInt_ofInt inside⟩

theorem times?_of_outside (outside : ¬ InRange (a.toInt * b.toInt)) : times? a b = none := narrow?_of_outside outside

/-- `acc * base ^ n`, for which the base is squared while the exponent is halved. -/
def squaring? (base acc : Int64) (n : Nat) : Option Int64 := do
  let acc ← if n % 2 = 1 then times? acc base else some acc
  if _last : n / 2 = 0 then some acc
  else
    let square ← times? base base
    squaring? square acc (n / 2)
termination_by n
decreasing_by omega

def power? (a : Int64) (n : Nat) : Option Int64 := squaring? a 1 n

theorem squaring?_eq (base acc : Int64) (n : Nat) (zero : acc.toInt = 0 → base.toInt = 0) :
    squaring? base acc n = narrow? (acc.toInt * base.toInt ^ n) := by
  induction n using Nat.strong_induction_on generalizing base acc with
  | _ n ih =>
    -- what is left to do after the product for an odd exponent
    have rest (acc : Int64) (zero : acc.toInt = 0 → base.toInt = 0) :
        (if n / 2 = 0 then some acc else (times? base base).bind fun square => squaring? square acc (n / 2)) =
          narrow? (acc.toInt * (base.toInt * base.toInt) ^ (n / 2)) := by
      split
      · next last => rw [last, pow_zero, mul_one, narrow?_toInt]
      · next more =>
        by_cases inside : InRange (base.toInt * base.toInt)
        · obtain ⟨square, squared, value⟩ := times?_of_inRange inside
          rw [squared, Option.bind_some, ih _ (by omega), value]
          intro none_left
          rw [value, zero none_left, mul_zero]
        · have other : acc.toInt ≠ 0 := by
            intro none_left
            rw [zero none_left] at inside
            exact inside (by decide)
          rw [times?_of_outside inside, Option.bind_none, narrow?_of_outside (square_pow_outside inside other more)]
    have halves : base.toInt ^ n = base.toInt ^ (n % 2) * (base.toInt * base.toInt) ^ (n / 2) := by
      rw [← pow_two, ← pow_mul, ← pow_add, Nat.mod_add_div]
    unfold squaring?
    simp only [Option.bind_eq_bind, dite_eq_ite]
    rcases Nat.mod_two_eq_zero_or_one n with even | odd
    · rw [if_neg (by omega), Option.bind_some, rest acc zero, halves, even, pow_zero, one_mul]
    · rw [if_pos odd, halves, odd, pow_one, ← mul_assoc]
      by_cases inside : InRange (acc.toInt * base.toInt)
      · obtain ⟨product, multiplied, value⟩ := times?_of_inRange inside
        rw [multiplied, Option.bind_some, rest, value]
        intro none_left
        rw [value] at none_left
        exact (mul_eq_zero.mp none_left).elim zero id
      · have other : base.toInt ≠ 0 := by
          intro none_left
          rw [none_left, mul_zero] at inside
          exact inside (by decide)
        have positive : 1 ≤ (base.toInt * base.toInt) ^ (n / 2) := one_le_pow₀ (mul_self_pos.mpr other)
        rw [times?_of_outside inside, Option.bind_none, narrow?_of_outside (outside_mul inside positive)]

/-- Squaring notices every overflow, and no other. -/
theorem power?_eq (a : Int64) (n : Nat) : power? a n = narrow? (a.toInt ^ n) := by
  have one : (1 : Int64).toInt = 1 := rfl
  rw [power?, squaring?_eq a 1 n (by simp [one]), one, one_mul]

/-! ### Division -/

def quotient? (a b : Int64) : Option Int64 := if a = Int64.minValue ∧ b = -1 then none else some (a / b)

def remainder? (a b : Int64) : Option Int64 := if a = Int64.minValue ∧ b = -1 then none else some (a % b)

/-- The quotient that was cut off, less one if it was cut upwards. -/
def floorQuotient? (a b : Int64) : Option Int64 :=
  (quotient? a b).map fun q => if a % b ≠ 0 ∧ decide (a < 0) ≠ decide (b < 0) then q - 1 else q

/-- The remainder, with the sign of the divisor. -/
def floorRemainder? (a b : Int64) : Option Int64 :=
  (remainder? a b).map fun r => if r ≠ 0 ∧ decide (r < 0) ≠ decide (b < 0) then r + b else r

theorem fdiv_eq {x y : Int} (other : y ≠ 0) : x.fdiv y =
    if x.tmod y ≠ 0 ∧ decide (x < 0) ≠ decide (y < 0) then x.tdiv y - 1 else x.tdiv y := by
  rw [Int.fdiv_eq_tdiv]
  simp only [Int.dvd_iff_tmod_eq_zero]
  rcases Int.lt_or_gt_of_ne other with sign | sign
  · rw [Int.sign_eq_neg_one_of_neg sign]
    by_cases whole : x.tmod y = 0 <;> by_cases up : 0 ≤ x <;> simp [whole, up, sign]
  · rw [Int.sign_eq_one_of_pos sign]
    by_cases whole : x.tmod y = 0 <;> by_cases up : 0 ≤ x <;> simp [whole, up] <;> omega

theorem lt_zero_iff (a : Int64) : a < 0 ↔ a.toInt < 0 := Int64.lt_iff_toInt_lt

theorem eq_zero_iff (a : Int64) : a = 0 ↔ a.toInt = 0 := Int64.toInt_inj.symm

/-- A remainder has the sign of the dividend, and is no further from zero. -/
theorem tmod_within (x y : Int) : (0 ≤ x → 0 ≤ x.tmod y) ∧ (x ≤ 0 → x.tmod y ≤ 0) ∧ (x.tmod y).natAbs ≤ x.natAbs := by
  refine ⟨fun up => Int.tmod_nonneg y up, fun down => ?_, ?_⟩
  · have turned := Int.tmod_nonneg (a := -x) y (by omega)
    rw [Int.neg_tmod] at turned
    omega
  · rw [Int.natAbs_tmod]
    exact Nat.mod_le _ _

theorem toInt_quotient (room : ¬ (a = Int64.minValue ∧ b = -1)) : (a / b).toInt = a.toInt.tdiv b.toInt := by
  by_cases least : a = Int64.minValue
  · exact Int64.toInt_div_of_ne_right a b fun minus => room ⟨least, minus⟩
  · exact Int64.toInt_div_of_ne_left a b least

theorem floorQuotient?_eq (other : b ≠ 0) : floorQuotient? a b = narrow? (a.toInt.fdiv b.toInt) := by
  unfold floorQuotient?
  by_cases corner : a = Int64.minValue ∧ b = -1
  · obtain ⟨rfl, rfl⟩ := corner
    decide
  · have quotient := toInt_quotient corner
    have remainder := Int64.toInt_mod a b
    have back := Int.tmod_add_mul_tdiv a.toInt b.toInt
    have within := tmod_within a.toInt b.toInt
    have divides := (eq_zero_iff b).not.mp other
    rw [quotient?, if_neg corner, Option.map_some, ← narrow?_toInt, fdiv_eq divides]
    simp only [lt_zero_iff, ne_eq, eq_zero_iff, remainder]
    split
    · next cut =>
      have dividend := inRange_toInt a
      have one : (1 : Int64).toInt = 1 := rfl
      -- only a quotient without a remainder is the least integer
      have above : -2 ^ 63 < (a / b).toInt := by
        have least := (a / b).le_toInt
        unfold InRange at dividend
        by_contra bottom
        have bottom : a.toInt.tdiv b.toInt = -9223372036854775808 := by omega
        rw [bottom] at back
        omega
      have high := (a / b).toInt_lt
      rw [Int64.toInt_sub, one, Int.bmod_eq_of_le (by omega) (by omega), quotient]
    · rw [quotient]

theorem fmod_eq {x y : Int} (other : y ≠ 0) : x.fmod y =
    if x.tmod y ≠ 0 ∧ decide (x.tmod y < 0) ≠ decide (y < 0) then x.tmod y + y else x.tmod y := by
  have within := tmod_within x y
  have back := Int.tmod_add_mul_tdiv x y
  rw [Int.fmod_def, fdiv_eq other]
  by_cases whole : x.tmod y = 0
  · simp only [whole, ne_eq, not_true_eq_false, false_and, if_false]
    omega
  · have sign : x < 0 ↔ x.tmod y < 0 := by omega
    simp only [sign]
    split
    · rw [Int.mul_sub]
      omega
    · omega

/-- The least integer has a remainder by minus one, which is zero, but it is not computed. -/
theorem floorRemainder?_eq (other : b ≠ 0) : floorRemainder? a b =
    if a = Int64.minValue ∧ b = -1 then none else narrow? (a.toInt.fmod b.toInt) := by
  unfold floorRemainder? remainder?
  split
  · rfl
  · have remainder := Int64.toInt_mod a b
    have divides := (eq_zero_iff b).not.mp other
    rw [Option.map_some, ← narrow?_toInt, fmod_eq divides]
    simp only [lt_zero_iff, ne_eq, eq_zero_iff, remainder]
    split
    · next turned =>
      have rest := inRange_toInt (a % b)
      have divisor := inRange_toInt b
      unfold InRange at rest divisor
      have signs : a.toInt.tmod b.toInt < 0 ∧ 0 < b.toInt ∨ 0 < a.toInt.tmod b.toInt ∧ b.toInt < 0 := by
        obtain ⟨other, signs⟩ := turned
        rw [decide_eq_decide] at signs
        omega
      rw [Int64.toInt_add, Int.bmod_eq_of_le (by omega) (by omega), remainder]
    · rw [remainder]

end Word

end SnippetKernel
