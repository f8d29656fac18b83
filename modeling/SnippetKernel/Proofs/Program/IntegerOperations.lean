import Mathlib.Data.Rat.Floor
import SnippetKernel.Program.Builtins
import SnippetKernel.Proofs.Number.Words

/-! Arithmetic of integers. Whatever integer comes out of it is the exact one, as if there were no limit to integers,
and it is what the steps of a machine word come to. Where nothing comes out, the exact result does not fit, but for a
remainder by minus one and for powers of one, zero and minus one with long exponents. -/
namespace SnippetKernel

open Source (BinaryOp)

namespace Value

/-- What an operator gives without a limit to integers; nothing if that is no integer. Quotients are rounded down. -/
def exactly? : BinaryOp → Int → Int → Option Int
  | .add, x, y => some (x + y)
  | .sub, x, y => some (x - y)
  | .mul, x, y => some (x * y)
  | .div, _, _ => Option.none
  | .floorDiv, x, y => if y = 0 then Option.none else some ⌊(x / y : ℚ)⌋
  | .mod, x, y => if y = 0 then Option.none else some (x - y * ⌊(x / y : ℚ)⌋)
  | .pow, x, y => if y < 0 then Option.none else some (x ^ y.toNat)

/-- The result fits, and is not found all the same. -/
def Missed : BinaryOp → Int → Int → Prop
  | .mod, x, y => x = -2 ^ 63 ∧ y = -1
  | .pow, x, y => -1 ≤ x ∧ x ≤ 1 ∧ 2 ^ 32 ≤ y
  | _, _, _ => False

instance (op : BinaryOp) (x y : Int) : Decidable (Missed op x y) := by
  cases op <;> unfold Missed <;> infer_instance

/-- A word, if there was one. -/
def checked : Option Int64 → Except Exception Value
  | some n => .ok (int n)
  | Option.none => .error intOverflow

variable {i x y : Int} {a b : Int64} {op : BinaryOp}

/-! ### Exact results -/

theorem fdiv_eq_floor (x y : Int) : x.fdiv y = ⌊(x / y : ℚ)⌋ := by
  have upright (x y : Int) (sign : 0 ≤ y) : x.fdiv y = ⌊(x / y : ℚ)⌋ := by
    lift y to Nat using sign
    rw [Int.fdiv_eq_ediv_of_nonneg x (Int.natCast_nonneg _)]
    exact (Rat.floor_intCast_div_natCast x y).symm
  rcases Int.le_total 0 y with sign | sign
  · exact upright x y sign
  · simpa using upright (-x) (-y) (Int.neg_nonneg.mpr sign)

theorem fmod_eq_floor (x y : Int) : x.fmod y = x - y * ⌊(x / y : ℚ)⌋ := by rw [Int.fmod_def, fdiv_eq_floor]

theorem remainder_of_pos (x : Int) (positive : 0 < y) :
    0 ≤ x - y * ⌊(x / y : ℚ)⌋ ∧ x - y * ⌊(x / y : ℚ)⌋ < y := by
  rw [← fmod_eq_floor]
  exact ⟨Int.fmod_nonneg_of_pos x positive, Int.fmod_lt_of_pos x positive⟩

theorem remainder_of_neg (x : Int) (negative : y < 0) :
    y < x - y * ⌊(x / y : ℚ)⌋ ∧ x - y * ⌊(x / y : ℚ)⌋ ≤ 0 := by
  have turned := remainder_of_pos (-x) (Int.neg_pos.mpr negative)
  push_cast at turned
  rw [neg_div_neg_eq, Int.neg_mul] at turned
  omega

/-! ### What fits -/

theorem fit_eq (i : Int) : fit i = checked (narrow? i) := by
  unfold fit
  cases narrow? i <;> rfl

theorem fit_of_inRange (inside : Word.InRange i) : fit i = .ok (int (Int64.ofInt i)) := by
  rw [fit_eq, Word.narrow?_of_inRange inside]
  rfl

theorem fit_of_outside (outside : ¬ Word.InRange i) : fit i = .error intOverflow := by
  rw [fit_eq, Word.narrow?_of_outside outside]
  rfl

/-- A number other than these has powers out of range soon. -/
theorem pow_outside {n : Nat} (large : x < -1 ∨ 1 < x) (long : 64 < n) : ¬ Word.InRange (x ^ n) := by
  have grown : 2 ^ 65 ≤ x.natAbs ^ n :=
    (Nat.pow_le_pow_right (by decide) long).trans (Nat.pow_le_pow_left (by omega) n)
  rw [← Int.natAbs_pow] at grown
  unfold Word.InRange
  omega

theorem intPower_eq (a : Int64) (n : Nat) : intPower a n = fit (a.toInt ^ n) := by
  have minus : (-1 : Int64).toInt = -1 := by decide
  unfold intPower
  split
  · next small =>
    rcases small with rfl | rfl
    · rcases n with _ | n <;> rfl
    · have one : (1 : Int64).toInt = 1 := rfl
      rw [one, one_pow, ite_self]
  · next other =>
    split
    · next turns =>
      rw [turns, minus]
      rcases Nat.even_or_odd n with even | odd
      · rw [if_pos (Nat.even_iff.mp even), even.neg_one_pow]
      · rw [if_neg (by rw [Nat.odd_iff.mp odd]; decide), odd.neg_one_pow]
    · next notMinus =>
      split
      · next long =>
        have large : a.toInt < -1 ∨ 1 < a.toInt := by
          have zero : a.toInt ≠ 0 := fun same => other (.inl (Int64.toInt_inj.mp same))
          have one : a.toInt ≠ 1 := fun same => other (.inr (Int64.toInt_inj.mp same))
          have opposite : a.toInt ≠ -1 := fun same => notMinus (Int64.toInt_inj.mp (same.trans minus.symm))
          omega
        exact (fit_of_outside (pow_outside large long)).symm
      · rfl

/-! ### Operators on words -/

/-- Every operator with an exact integer for a result gives that, if it fits and is not missed. -/
theorem intOp_eq (exact_ : exactly? op a.toInt b.toInt = some i) :
    intOp op a b = if Missed op a.toInt b.toInt then .error intOverflow else fit i := by
  have zero : b = 0 ↔ b.toInt = 0 := Word.eq_zero_iff b
  cases op with
  | add | sub | mul =>
    cases exact_
    rfl
  | div => cases exact_
  | floorDiv =>
    simp only [exactly?, Option.ite_none_left_eq_some, Option.some.injEq] at exact_
    obtain ⟨other, rfl⟩ := exact_
    rw [intOp, if_neg (zero.not.mpr other), fdiv_eq_floor]
    rfl
  | mod =>
    simp only [exactly?, Option.ite_none_left_eq_some, Option.some.injEq] at exact_
    obtain ⟨other, rfl⟩ := exact_
    rw [intOp, if_neg (zero.not.mpr other), fmod_eq_floor]
    rfl
  | pow =>
    simp only [exactly?, Option.ite_none_left_eq_some, Option.some.injEq, Int.not_lt] at exact_
    obtain ⟨sign, rfl⟩ := exact_
    have bound : Int.pow 2 32 = 2 ^ 32 := rfl
    rw [intOp, if_neg (by rw [Word.lt_zero_iff]; omega), intPower_eq, bound]
    split
    · next short => rw [if_neg (by unfold Missed; omega)]
    · next long =>
      split
      · rfl
      · next large =>
        refine (fit_of_outside (pow_outside ?_ ?_)).symm
        · unfold Missed at large
          omega
        · omega

theorem inRange_of_missed (exact_ : exactly? op x y = some i) (missed : Missed op x y) : Word.InRange i := by
  cases op with
  | mod =>
    obtain ⟨rfl, rfl⟩ := missed
    rw [exactly?, if_neg (by decide), Option.some.injEq, ← fmod_eq_floor] at exact_
    rw [← exact_]
    decide
  | pow =>
    obtain ⟨low, high, long⟩ := missed
    rw [exactly?, if_neg (by omega), Option.some.injEq] at exact_
    have power : |x ^ y.toNat| ≤ 1 := by
      rw [abs_pow]
      exact pow_le_one₀ (abs_nonneg x) (abs_le.mpr ⟨low, high⟩)
    rw [exact_, abs_le] at power
    unfold Word.InRange
    omega
  | _ => exact missed.elim

theorem intOp_of_zero (zero : b.toInt = 0) (divides : op ∈ [.div, .floorDiv, .mod]) :
    ∃ e, intOp op a b = .error e ∧ e.kind = .zeroDivision := by
  obtain rfl := (Word.eq_zero_iff b).mpr zero
  simp only [List.mem_cons, List.not_mem_nil, or_false] at divides
  rcases divides with rfl | rfl | rfl
  · exact ⟨_, rfl, rfl⟩
  · exact ⟨_, rfl, rfl⟩
  · exact ⟨_, rfl, rfl⟩

theorem exactly?_of_int {n : Int64} (found : intOp op a b = .ok (int n)) :
    exactly? op a.toInt b.toInt = some n.toInt := by
  cases exact_ : exactly? op a.toInt b.toInt with
  | some i =>
    rw [intOp_eq exact_] at found
    split at found
    · cases found
    · unfold fit at found
      split at found
      · next m fits =>
        cases found
        rw [toInt_of_narrow? fits]
      · cases found
  | none =>
    have zero : b = 0 ↔ b.toInt = 0 := Word.eq_zero_iff b
    cases op with
    | add | sub | mul => cases exact_
    | div =>
      rw [intOp] at found
      split at found <;> cases found
    | floorDiv | mod =>
      simp only [exactly?, ite_eq_left_iff, reduceCtorEq, imp_false, not_not] at exact_
      simp [intOp, zero.mpr exact_] at found
    | pow =>
      simp only [exactly?, ite_eq_left_iff, reduceCtorEq, imp_false, not_not] at exact_
      rw [intOp, if_pos ((Word.lt_zero_iff b).mpr exact_)] at found
      split at found <;> cases found

/-! ### Operations on values -/

section

variable {v w : Value} {h : Cells} {r : Reach}

theorem number?_of_whole (whole : v.int? = some a) : v.number? = some (.int a) := by
  cases v with
  | bool _ | int _ => exact congrArg (Option.map Number.int) whole
  | _ => cases whole

theorem binary_of_whole (first : v.int? = some a) (second : w.int? = some b) (op : BinaryOp) (h : Cells) :
    binary op v w h = HeapM.ofExcept (intOp op a b) h := by
  unfold binary
  rw [number?_of_whole first, number?_of_whole second]
  rfl

theorem unary_of_whole (whole : v.int? = some a) (h : Cells) : unary h .neg v = fit (-a.toInt) := by
  unfold unary
  rw [number?_of_whole whole]

/-- The integer, or the error. -/
theorem fit_cases (i : Int) : (∃ n : Int64, n.toInt = i ∧ fit i = .ok (int n)) ∨ fit i = .error intOverflow := by
  by_cases inside : Word.InRange i
  · exact .inl ⟨_, Word.toInt_ofInt inside, fit_of_inRange inside⟩
  · exact .inr (fit_of_outside inside)

theorem intOp_cases (exact_ : exactly? op a.toInt b.toInt = some i) :
    (∃ n : Int64, n.toInt = i ∧ intOp op a b = .ok (int n)) ∨ intOp op a b = .error intOverflow := by
  rw [intOp_eq exact_]
  split
  · exact .inr rfl
  · exact fit_cases i

theorem binary_cases (first : v.int? = some a) (second : w.int? = some b)
    (exact_ : exactly? op a.toInt b.toInt = some i) (h : Cells) :
    (∃ n : Int64, n.toInt = i ∧ binary op v w h = .ok (int n) h) ∨ binary op v w h = .error intOverflow h := by
  rw [binary_of_whole first second]
  obtain ⟨n, value, result⟩ | result := intOp_cases exact_
  · exact .inl ⟨n, value, by rw [result]; rfl⟩
  · exact .inr (by rw [result]; rfl)

theorem exactly?_of_binary (first : v.int? = some a) (second : w.int? = some b) {n : Int64} {h' : Cells}
    (found : binary op v w h = .ok (int n) h') : exactly? op a.toInt b.toInt = some n.toInt := by
  rw [binary_of_whole first second] at found
  cases result : intOp op a b with
  | error e =>
    rw [result] at found
    cases found
  | ok u =>
    rw [result] at found
    cases found
    exact exactly?_of_int result

theorem binary_of_zero (first : v.int? = some a) (second : w.int? = some b) (zero : b.toInt = 0)
    (divides : op ∈ [.div, .floorDiv, .mod]) :
    ∃ e, e.kind = .zeroDivision ∧ ∀ h, binary op v w h = .error e h := by
  obtain ⟨e, raised, kind⟩ := intOp_of_zero (a := a) zero divides
  refine ⟨e, kind, fun h => ?_⟩
  rw [binary_of_whole first second, raised]
  rfl

theorem abs_of_whole (whole : v.int? = some a) (r : Reach) :
    (∃ n : Int64, n.toInt = |a.toInt| ∧ Builtins.abs v r = .ok (.int n) r) ∨
      Builtins.abs v r = .error (.exception ⟨.overflow, "integer overflow"⟩) r := by
  have steps : Builtins.abs v r = (match narrow? a.toInt.natAbs with
      | some n => pure (.int n)
      | Option.none => Work.raise .overflow "integer overflow" : Work Value) r := by
    cases v with
    | bool _ | int _ =>
      cases whole
      rfl
    | _ => cases whole
  rw [steps, Int.abs_eq_natAbs]
  cases fits : narrow? a.toInt.natAbs with
  | some n => exact .inl ⟨n, toInt_of_narrow? fits, rfl⟩
  | none => exact .inr rfl

/-- A division with its remainder. -/
theorem divmod_of_whole (first : v.int? = some a) (second : w.int? = some b) (r : Reach) :
    Builtins.divmod v w r = (Work.ofExcept (intOp .floorDiv a b) >>= fun q =>
      Work.ofExcept (intOp .mod a b) >>= fun m => Work.onHeap (HeapM.newTuple [q, m])) r := by
  have part (op : BinaryOp) : Work.onHeap (binary op v w) = Work.ofExcept (intOp op a b) := by
    funext r
    simp only [Work.onHeap, binary_of_whole first second]
    cases intOp op a b <;> rfl
  rw [Builtins.divmod, part, part]

theorem divmod_cases (first : v.int? = some a) (second : w.int? = some b) {q m : Int}
    (quotient : exactly? .floorDiv a.toInt b.toInt = some q) (rest : exactly? .mod a.toInt b.toInt = some m)
    (r : Reach) :
    (∃ q' m' : Int64, q'.toInt = q ∧ m'.toInt = m ∧
      ∃ id r', Builtins.divmod v w r = .ok (.tuple id [.int q', .int m']) r') ∨
        Builtins.divmod v w r = .error (.exception intOverflow) r := by
  rw [divmod_of_whole first second]
  obtain ⟨q', value, divided⟩ | divided := intOp_cases quotient
  · obtain ⟨m', value', left⟩ | left := intOp_cases rest
    · rw [divided, left]
      exact .inl ⟨q', m', value, value', _, _, rfl⟩
    · rw [divided, left]
      exact .inr rfl
  · rw [divided]
    exact .inr rfl

theorem divmod_of_zero (first : v.int? = some a) (second : w.int? = some b) (zero : b.toInt = 0) :
    ∃ e, e.kind = .zeroDivision ∧ ∀ r, Builtins.divmod v w r = .error (.exception e) r := by
  have divides : BinaryOp.floorDiv ∈ [.div, .floorDiv, .mod] := by decide
  obtain ⟨e, raised, kind⟩ := intOp_of_zero (a := a) zero divides
  refine ⟨e, kind, fun r => ?_⟩
  rw [divmod_of_whole first second, raised]
  rfl

theorem binary_overflow_iff (first : v.int? = some a) (second : w.int? = some b)
    (exact_ : exactly? op a.toInt b.toInt = some i) (h : Cells) :
    binary op v w h = .error intOverflow h ↔ ¬ Word.InRange i ∨ Missed op a.toInt b.toInt := by
  rw [binary_of_whole first second, intOp_eq exact_]
  constructor
  · intro raised
    by_contra! sound
    rw [if_neg sound.2, fit_of_inRange sound.1] at raised
    cases raised
  · rintro (outside | missed)
    · rw [fit_of_outside outside, ite_self]
      rfl
    · rw [if_pos missed]
      rfl

theorem unary_overflow_iff (whole : v.int? = some a) (h : Cells) :
    unary h .neg v = .error intOverflow ↔ ¬ Word.InRange (-a.toInt) := by
  rw [unary_of_whole whole]
  refine ⟨fun raised inside => ?_, fit_of_outside⟩
  rw [fit_of_inRange inside] at raised
  cases raised

end

/-! ### Steps of a machine word -/

theorem intOp_floorDiv (other : b ≠ 0) : intOp .floorDiv a b = checked (Word.floorQuotient? a b) := by
  rw [intOp, if_neg other, Word.floorQuotient?_eq other, fit_eq]

theorem intOp_mod (other : b ≠ 0) : intOp .mod a b = checked (Word.floorRemainder? a b) := by
  have least : a.toInt = Int64.minValue.toInt ↔ a = Int64.minValue := Int64.toInt_inj
  have minus : b.toInt = -1 ↔ b = -1 := Int64.toInt_inj (y := -1)
  simp only [intOp, if_neg other, Word.floorRemainder?_eq other, fit_eq, least, minus]
  split <;> rfl

theorem intOp_pow (sign : 0 ≤ b.toInt) : intOp .pow a b =
    if b.toInt < 2 ^ 32 then checked (Word.power? a b.toInt.toNat) else .error intOverflow := by
  have bound : Int.pow 2 32 = 2 ^ 32 := rfl
  rw [intOp, if_neg (by rw [Word.lt_zero_iff]; omega), intPower_eq, Word.power?_eq, fit_eq, bound]

end Value

section

variable {v w : Value} {a b : Int64}

open Value

/-- What comes out of operations on integers and truth values is the exact integer or an `OverflowError`, and no other
integer comes out of them. Quotients are rounded down, so a remainder lies between zero and the divisor. Nothing is
divided by zero. The steps of a machine word, of which not all are checked, come to the same. -/
theorem integer_results_exact (first : v.int? = some a) (second : w.int? = some b) :
    (∀ op i, exactly? op a.toInt b.toInt = some i → ∀ h,
      (∃ n : Int64, n.toInt = i ∧ binary op v w h = .ok (.int n) h) ∨ binary op v w h = .error intOverflow h) ∧
    (∀ op h n h', binary op v w h = .ok (.int n) h' → exactly? op a.toInt b.toInt = some n.toInt) ∧
    (∀ h, (∃ n : Int64, n.toInt = -a.toInt ∧ unary h .neg v = .ok (.int n)) ∨ unary h .neg v = .error intOverflow) ∧
    (∀ r, (∃ n : Int64, n.toInt = |a.toInt| ∧ Builtins.abs v r = .ok (.int n) r) ∨
      Builtins.abs v r = .error (.exception ⟨.overflow, "integer overflow"⟩) r) ∧
    (b.toInt ≠ 0 → ∀ r, (∃ q m : Int64, q.toInt = ⌊(a.toInt / b.toInt : ℚ)⌋ ∧
        m.toInt = a.toInt - b.toInt * ⌊(a.toInt / b.toInt : ℚ)⌋ ∧
        ∃ id r', Builtins.divmod v w r = .ok (.tuple id [.int q, .int m]) r') ∨
      Builtins.divmod v w r = .error (.exception intOverflow) r) ∧
    (∀ m, exactly? .mod a.toInt b.toInt = some m →
      (0 < b.toInt → 0 ≤ m ∧ m < b.toInt) ∧ (b.toInt < 0 → b.toInt < m ∧ m ≤ 0)) ∧
    (b.toInt = 0 →
      (∀ op ∈ [.div, .floorDiv, .mod], ∃ e, e.kind = .zeroDivision ∧ ∀ h, binary op v w h = .error e h) ∧
      ∃ e, e.kind = .zeroDivision ∧ ∀ r, Builtins.divmod v w r = .error (.exception e) r) ∧
    (b.toInt ≠ 0 → ∀ h,
      binary .floorDiv v w h = HeapM.ofExcept (checked (Word.floorQuotient? a b)) h ∧
      binary .mod v w h = HeapM.ofExcept (checked (Word.floorRemainder? a b)) h) ∧
    (0 ≤ b.toInt → b.toInt < 2 ^ 32 → ∀ h,
      binary .pow v w h = HeapM.ofExcept (checked (Word.power? a b.toInt.toNat)) h) := by
  refine ⟨fun op i => binary_cases first second, fun op h n h' => exactly?_of_binary first second, fun h => ?_,
    abs_of_whole first, fun other => divmod_cases first second (if_neg other) (if_neg other), fun m exact_ => ?_,
    fun zero => ⟨fun op => binary_of_zero first second zero, divmod_of_zero first second zero⟩,
    fun other h => ⟨?_, ?_⟩, fun sign short h => ?_⟩
  · rw [unary_of_whole first]
    exact fit_cases _
  · simp only [exactly?, Option.ite_none_left_eq_some, Option.some.injEq] at exact_
    obtain ⟨-, rfl⟩ := exact_
    exact ⟨remainder_of_pos a.toInt, remainder_of_neg a.toInt⟩
  · rw [binary_of_whole first second, intOp_floorDiv ((Word.eq_zero_iff b).not.mpr other)]
  · rw [binary_of_whole first second, intOp_mod ((Word.eq_zero_iff b).not.mpr other)]
  · rw [binary_of_whole first second, intOp_pow sign, if_pos short]

/-- The least integer by minus two, and minus seven by two. -/
theorem integer_results_exact_of_least :
    (Value.int Int64.minValue).int? = some Int64.minValue ∧ (Value.int (-2)).int? = some (-2) ∧
      (∀ h, binary .floorDiv (.int Int64.minValue) (.int (-2)) h = .ok (.int 4611686018427387904) h) ∧
      (∀ h, unary h .neg (.int Int64.minValue) = .error intOverflow) ∧
      ∀ h, binary .mod (.int (-7)) (.bool true) h = .ok (.int 0) h := by
  obtain ⟨-, -, negated, -, -, -, -, words, -⟩ :=
    integer_results_exact (v := .int Int64.minValue) (w := .int (-2)) rfl rfl
  obtain ⟨-, -, -, -, -, -, -, words', -⟩ := integer_results_exact (v := .int (-7)) (w := .bool true) rfl rfl
  refine ⟨rfl, rfl, fun h => ?_, fun h => ?_, fun h => ?_⟩
  · rw [(words (by decide) h).1, show Word.floorQuotient? Int64.minValue (-2) = some 4611686018427387904 by decide]
    rfl
  · refine (negated h).resolve_left ?_
    rintro ⟨n, value, -⟩
    have high := n.toInt_lt
    rw [value] at high
    exact absurd high (by decide)
  · rw [(words' (by decide) h).2, show Word.floorRemainder? (-7) (boolInt true) = some 0 by decide]
    rfl

/-- An exact integer is found if it fits, and an `OverflowError` is raised if it does not. There are two exceptions: the
least integer has no remainder by minus one, and one, zero and minus one have no powers with exponents of `2 ^ 32` and
more, although all of these would fit. -/
theorem overflow_iff_outside (first : v.int? = some a) (second : w.int? = some b) :
    (∀ op i, exactly? op a.toInt b.toInt = some i → ∀ h,
      (Word.InRange i → ¬ Missed op a.toInt b.toInt → ∃ n : Int64, n.toInt = i ∧ binary op v w h = .ok (.int n) h) ∧
      (binary op v w h = .error intOverflow h ↔ ¬ Word.InRange i ∨ Missed op a.toInt b.toInt) ∧
      (Missed op a.toInt b.toInt → Word.InRange i)) ∧
    ∀ h, (Word.InRange (-a.toInt) → ∃ n : Int64, n.toInt = -a.toInt ∧ unary h .neg v = .ok (.int n)) ∧
      (unary h .neg v = .error intOverflow ↔ ¬ Word.InRange (-a.toInt)) := by
  refine ⟨fun op i exact_ h => ⟨fun inside found => ?_, binary_overflow_iff first second exact_ h,
    inRange_of_missed exact_⟩, fun h => ⟨fun inside => ?_, unary_overflow_iff first h⟩⟩
  · refine (binary_cases first second exact_ h).resolve_right fun raised => ?_
    exact ((binary_overflow_iff first second exact_ h).mp raised).elim (· inside) found
  · rw [unary_of_whole first]
    exact ⟨_, Word.toInt_ofInt inside, fit_of_inRange inside⟩

/-- The greatest integer is found, and its successor is not. -/
theorem overflow_iff_outside_of_greatest :
    (Value.int 9223372036854775806).int? = some 9223372036854775806 ∧ (Value.bool true).int? = some 1 ∧
      (∀ h, binary .add (.int 9223372036854775806) (.bool true) h = .ok (.int 9223372036854775807) h) ∧
      ∀ h, binary .mul (.int 9223372036854775807) (.int 2) h = .error intOverflow h := by
  refine ⟨rfl, rfl, fun h => ?_, fun h => ?_⟩
  · obtain ⟨results, -⟩ := overflow_iff_outside (v := .int 9223372036854775806) (w := .bool true) rfl rfl
    obtain ⟨n, value, found⟩ := (results .add _ rfl h).1 (by decide) (by decide)
    have same : n = 9223372036854775807 := Int64.toInt_inj.mp (value.trans (by decide))
    rw [found, same]
  · obtain ⟨results, -⟩ := overflow_iff_outside (v := .int 9223372036854775807) (w := .int 2) rfl rfl
    exact (results .mul _ rfl h).2.1.mpr (.inl (by decide))

/-- Zero would be the remainder, and one the power. -/
theorem overflow_without_need :
    exactly? .mod Int64.minValue.toInt (-1) = some 0 ∧ exactly? .pow 1 4294967296 = some 1 ∧
      (∀ h, binary .mod (.int Int64.minValue) (.int (-1)) h = .error intOverflow h) ∧
      ∀ h, binary .pow (.int 1) (.int 4294967296) h = .error intOverflow h := by
  refine ⟨?_, ?_, fun h => rfl, fun h => rfl⟩
  · rw [exactly?, if_neg (by decide), ← fmod_eq_floor]
    decide
  · rw [exactly?, if_neg (by decide), one_pow]

end

end SnippetKernel
