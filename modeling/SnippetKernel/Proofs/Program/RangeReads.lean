import SnippetKernel.Program.Builtins
import SnippetKernel.Proofs.Program.Slicing

/-! What can be asked of a range: how long it is, what is at a place, and whether it has an integer. The answers are
those of the list of its elements, as long as the numbers they are computed with fit: lengths and places are integers
of 64 bits with a sign, and so is the distance of an integer from the start. -/
namespace SnippetKernel

namespace Slice

variable {step limit i j : Int}

/-- The walk comes to whatever is a number of steps away and before the limit. -/
theorem mem_walk_iff (moves : step ≠ 0) :
    j ∈ walk step limit i ↔ ∃ k : Nat, j = i + step * k ∧ Before step limit j := by
  fun_induction walk step limit i with
  | case1 i before ih =>
    rw [List.mem_cons, ih]
    constructor
    · rintro (rfl | ⟨k, rfl, ahead⟩)
      · exact ⟨0, by simp, before⟩
      · refine ⟨k + 1, ?_, ahead⟩
        rw [Int.natCast_add, Int.mul_add]
        omega
    · rintro ⟨_ | k, rfl, ahead⟩
      · exact .inl (by simp)
      · refine .inr ⟨k, ?_, ahead⟩
        rw [Int.natCast_add, Int.mul_add]
        omega
  | case2 i done =>
    refine ⟨fun mem => absurd mem List.not_mem_nil, ?_⟩
    rintro ⟨k, rfl, ahead⟩
    refine absurd ?_ done
    rcases Int.lt_or_gt_of_ne moves with down | up
    · have far := Int.mul_nonpos_of_nonpos_of_nonneg (Int.le_of_lt down) (Int.natCast_nonneg k)
      unfold Before at ahead ⊢
      omega
    · have far := Int.mul_nonneg (Int.le_of_lt up) (Int.natCast_nonneg k)
      unfold Before at ahead ⊢
      omega

end Slice

namespace Range

variable {r : Range} {x : Int64}

/-! ### Membership -/

theorem mem_toList_iff (steps : r.step ≠ 0) : x ∈ r.toList ↔
    ∃ k : Nat, x.toInt = r.element k ∧ Slice.Before r.step.toInt r.stop.toInt x.toInt := by
  have listed : x ∈ r.toList ↔ x.toInt ∈ r.walk := by
    rw [← toInt_toList steps, List.mem_map]
    constructor
    · exact fun mem => ⟨x, mem, rfl⟩
    · rintro ⟨y, mem, same⟩
      exact Int64.toInt_inj.mp same ▸ mem
  rw [listed, walk, Slice.mem_walk_iff (toInt_ne_zero steps)]
  rfl

/-- The integer lies between start and stop, and its distance from the start is a multiple of the step. -/
theorem mem_toList_iff_dvd (steps : r.step ≠ 0) : x ∈ r.toList ↔
    ((0 < r.step.toInt ∧ r.start.toInt ≤ x.toInt ∧ x.toInt < r.stop.toInt) ∨
      (r.step.toInt < 0 ∧ x.toInt ≤ r.start.toInt ∧ r.stop.toInt < x.toInt)) ∧
        r.step.toInt ∣ x.toInt - r.start.toInt := by
  rw [mem_toList_iff steps]
  constructor
  · rintro ⟨k, away, ahead⟩
    refine ⟨?_, k, by rw [away, element]; omega⟩
    unfold element at away
    rcases ahead with ⟨up, ahead⟩ | ⟨down, ahead⟩
    · have far := Int.mul_nonneg (Int.le_of_lt up) (Int.natCast_nonneg k)
      omega
    · have far := Int.mul_nonpos_of_nonpos_of_nonneg (Int.le_of_lt down) (Int.natCast_nonneg k)
      omega
  · rintro ⟨between, c, distance⟩
    -- The quotient has no sign, as the distance has that of the step.
    have positive : 0 ≤ c := by
      rcases Int.lt_or_le c 0 with negative | positive
      · rcases between with ⟨up, after, -⟩ | ⟨down, before, -⟩
        · have := Int.mul_neg_of_pos_of_neg up negative
          omega
        · have := Int.mul_pos_of_neg_of_neg down negative
          omega
      · exact positive
    obtain ⟨k, rfl⟩ := Int.eq_ofNat_of_zero_le positive
    refine ⟨k, by rw [element, ← distance]; omega, ?_⟩
    unfold Slice.Before
    omega

/-- If the integer lies between start and stop, its distance from the start is one of 64 bits. -/
def Near (r : Range) (x : Int64) : Prop :=
  (r.start.toInt ≤ x.toInt ∧ x.toInt < r.stop.toInt) ∨ (x.toInt ≤ r.start.toInt ∧ r.stop.toInt < x.toInt) →
    (x.toInt - r.start.toInt).natAbs < 2 ^ 63

theorem near_of_short (short : (r.stop.toInt - r.start.toInt).natAbs ≤ 2 ^ 63) (x : Int64) : r.Near x := by
  intro between
  omega

theorem contains_iff (steps : r.step ≠ 0) (near : r.Near x) : r.contains x = true ↔ x ∈ r.toList := by
  have distance : (r.start.toInt ≤ x.toInt ∧ x.toInt < r.stop.toInt) ∨
      (x.toInt ≤ r.start.toInt ∧ r.stop.toInt < x.toInt) →
      (x - r.start).toInt = x.toInt - r.start.toInt := by
    intro between
    have close := near between
    rw [Int64.toInt_sub, Int.bmod_eq_of_le] <;> omega
  have zero : (0 : Int64).toInt = 0 := rfl
  have other := toInt_ne_zero steps
  have bounds : (if 0 < r.step then decide (r.start ≤ x) && decide (x < r.stop)
        else decide (x ≤ r.start) && decide (r.stop < x)) = true ↔
      (0 < r.step.toInt ∧ r.start.toInt ≤ x.toInt ∧ x.toInt < r.stop.toInt) ∨
        (r.step.toInt < 0 ∧ x.toInt ≤ r.start.toInt ∧ r.stop.toInt < x.toInt) := by
    simp only [Int64.lt_iff_toInt_lt, Int64.le_iff_toInt_le, zero]
    split <;> simp only [Bool.and_eq_true, decide_eq_true_eq] <;> omega
  rw [mem_toList_iff_dvd steps, Int.dvd_iff_tmod_eq_zero, contains, Bool.and_eq_true, beq_iff_eq, bounds]
  refine and_congr_right fun between => ?_
  rw [distance (by omega)]

end Range

namespace Value

variable {r : Range} {i x : Int64} {h : Cells}

theorem contains_range (steps : r.step ≠ 0) (near : r.Near x) {v : Value}
    (whole : v.int? = some x) : contains h (range r) v = .ok (decide (x ∈ r.toList)) := by
  have same : r.contains x = decide (x ∈ r.toList) := by
    rw [Bool.eq_iff_iff, Range.contains_iff steps near, decide_eq_true_iff]
  have number : v.number? = some (.int x) := by
    cases v with
    | bool b => exact congrArg some (congrArg Number.int (Option.some.inj whole))
    | int i => exact congrArg some (congrArg Number.int (Option.some.inj whole))
    | _ => cases whole
  rw [← same]
  unfold contains
  simp only [number]

/-! ### Places -/

/-- The place that an index names: below zero it counts from the end. -/
def counted (length : Nat) (i : Int64) : Int64 := if i < 0 then i + Int64.ofNat length else i

theorem place?_eq (length : Nat) (i : Int64) : place? length i =
    if 0 ≤ (counted length i).toInt ∧ (counted length i).toInt < (Int64.ofNat length).toInt
      then some (counted length i).toInt.toNat else Option.none := by
  have zero : (0 : Int64).toInt = 0 := rfl
  rw [Int64.toNat_toInt, ← zero]
  simp only [← Int64.le_iff_toInt_le, ← Int64.lt_iff_toInt_lt]
  rfl

theorem toInt_counted {length : Nat} (short : length < 2 ^ 63) (i : Int64) :
    (counted length i).toInt = if i.toInt < 0 then i.toInt + length else i.toInt := by
  have size : (Int64.ofNat length).toInt = length := Int64.toInt_ofNat_of_lt short
  have zero : (0 : Int64).toInt = 0 := rfl
  have low := i.le_toInt
  simp only [counted, Int64.lt_iff_toInt_lt, zero]
  split
  · rw [Int64.toInt_add, size, Int.bmod_eq_of_le] <;> omega
  · rfl

/-- A place among fewer items than 64 bits with a sign can count. -/
theorem place?_of_place {length k : Nat} (short : length < 2 ^ 63) (inside : k < length)
    (named : i.toInt = k ∨ i.toInt = (k : Int) - length) : place? length i = some k := by
  have size : (Int64.ofNat length).toInt = length := Int64.toInt_ofNat_of_lt short
  have found : (counted length i).toInt = k := by
    rw [toInt_counted short]
    split <;> omega
  rw [place?_eq, found, size, if_pos (by omega), Int.toNat_natCast]

theorem place?_of_outside {length : Nat} (short : length < 2 ^ 63)
    (outside : i.toInt < -length ∨ (length : Int) ≤ i.toInt) : place? length i = Option.none := by
  have size : (Int64.ofNat length).toInt = length := Int64.toInt_ofNat_of_lt short
  rw [place?_eq, toInt_counted short, size]
  apply if_neg
  split <;> omega

theorem toInt_ofNat_of_long {length : Nat} (long : 2 ^ 63 ≤ length) (fits : length < UInt64.size) :
    (Int64.ofNat length).toInt = (length : Int) - 2 ^ 64 := by
  change length < 18446744073709551616 at fits
  have words : Int64.size = 18446744073709551616 := rfl
  rw [Int64.toInt_ofNat', Int.bmod_def, words]
  omega

/-- A length that is too long to be counted with a sign looks negative, and nothing is found. -/
theorem place?_of_long {length : Nat} (long : 2 ^ 63 ≤ length) (fits : length < UInt64.size) :
    place? length i = Option.none := by
  have size := toInt_ofNat_of_long long fits
  change length < 18446744073709551616 at fits
  rw [place?_eq, size]
  apply if_neg
  omega

theorem item_range (r : Range) (index : Value) (h : Cells) : item h (range r) index =
    placeOf index r.size "range object" >>= fun i =>
      (r.get? i).elim (.error (outOfRange "range object")) fun n => .ok (int n) := by
  simp only [item]
  congr
  funext i
  cases r.get? i <;> rfl

theorem item_of_place {k : Nat} {index : Value} (whole : index.int? = some i) (place : place? r.size i = some k)
    (there : r.toList[k]? = some x) (h : Cells) : item h (range r) index = .ok (int x) := by
  have found : placeOf index r.size "range object" = .ok k := by
    unfold placeOf
    simp only [whole, place]
  rw [Range.getElem?_toList] at there
  simp only [item_range, found, bind, Except.bind, there, Option.elim_some]

theorem item_of_nowhere {index : Value} (whole : index.int? = some i) (nowhere : place? r.size i = Option.none)
    (h : Cells) : item h (range r) index = .error (outOfRange "range object") := by
  have refused : placeOf index r.size "range object" = .error (outOfRange "range object") := by
    unfold placeOf
    simp only [whole, nowhere]
  simp only [item_range, refused, bind, Except.bind]

end Value

/-! ### One element as a slice -/

namespace Slice

/-- The slice that begins at an index and ends behind it. -/
def one (i : Int64) : Slice := ⟨some i, if i = -1 then none else some (i + 1), none⟩

theorem stride_one (i : Int64) : (one i).stride = 1 := rfl

theorem first_one (length : Nat) (i : Int64) : (one i).first length
    = max 0 (min (length : Int) (if i.toInt < 0 then i.toInt + length else i.toInt)) := rfl

/-- Behind the last index of all comes none. -/
theorem limit_one {length : Nat} {i : Int64} (more : i.toInt < 2 ^ 63 - 1) : (one i).limit length =
    if i.toInt = -1 then (length : Int)
    else max 0 (min (length : Int) (if i.toInt + 1 < 0 then i.toInt + 1 + length else i.toInt + 1)) := by
  have minus : i = -1 ↔ i.toInt = -1 := Int64.toInt_inj.symm
  have unit : (1 : Int64).toInt = 1 := rfl
  have low := i.le_toInt
  have next : (i + 1).toInt = i.toInt + 1 := by rw [Int64.toInt_add, unit, Int.bmod_eq_of_le] <;> omega
  rw [limit, if_pos (by rw [stride_one]; omega)]
  simp only [one, minus]
  split
  · rfl
  · simp only [bounded, next]

theorem walk_alone (i : Int) : walk 1 (i + 1) i = [i] := by
  rw [walk, if_pos (.inl ⟨by omega, by omega⟩), walk, if_neg]
  unfold Before
  omega

theorem walk_nowhere {limit i : Int} (past : limit ≤ i) : walk 1 limit i = [] := by
  rw [walk, if_neg]
  unfold Before
  omega

theorem positions_one {length k : Nat} {i : Int64} (short : length < 2 ^ 63) (inside : k < length)
    (named : i.toInt = k ∨ i.toInt = (k : Int) - length) : (one i).positions length = [k] := by
  have first : (one i).first length = k := by
    rw [first_one]
    split <;> omega
  have limit : (one i).limit length = (k : Int) + 1 := by
    rw [limit_one (by omega)]
    split
    · omega
    · split <;> omega
  rw [positions, stride_one, first, limit, walk_alone]
  rfl

theorem positions_one_of_outside {length : Nat} {i : Int64} (short : length < 2 ^ 63)
    (outside : i.toInt < -length ∨ (length : Int) ≤ i.toInt) : (one i).positions length = [] := by
  have past : (one i).limit length ≤ (one i).first length := by
    have within := limits_of_pos (s := one i) length (by rw [stride_one]; omega)
    rcases outside with before | behind
    · rw [limit_one (by omega), first_one]
      split
      · omega
      · split <;> omega
    · have first : (one i).first length = length := by
        rw [first_one]
        split <;> omega
      omega
  rw [positions, stride_one, walk_nowhere past]
  rfl

end Slice

namespace Range

variable {r : Range} {s : Slice}

theorem mem_toList_of_chosen {x : Int64} (mem : x ∈ r.chosen s) : x ∈ r.toList := by
  obtain ⟨k, -, there⟩ := List.mem_filterMap.mp mem
  exact List.mem_toArray.mp (Array.mem_of_getElem? there)

/-- An element and one more in the direction of the step is no further than the stop. -/
theorem narrow?_behind {x : Int64} (mem : x ∈ r.toList) : narrow? (x.toInt + r.step.toInt.sign) ≠ none := by
  obtain ⟨k, inside, same⟩ := mem_toList.mp mem
  have within := element_within inside
  have low := r.stop.le_toInt
  have high := r.stop.toInt_lt
  have start := r.start.le_toInt
  have start' := r.start.toInt_lt
  have least : Int64.minValue.toInt = -9223372036854775808 := by decide
  have greatest : Int64.maxValue.toInt = 9223372036854775807 := by decide
  rw [narrow?, if_pos]
  · exact Option.some_ne_none _
  rcases within with ⟨up, after, before⟩ | ⟨down, after, before⟩
  · rw [Int.sign_eq_one_of_pos up]
    omega
  · rw [Int.sign_eq_neg_one_of_neg down]
    omega

theorem fits_of_stride_one (unit : s.stride = 1) : ¬ r.Overflows s := by
  have stride : r.strideOf s = r.step.toInt := by rw [strideOf, unit, Int.mul_one]
  rintro ⟨last, ends, unfit⟩
  rw [stride, narrow?_toInt] at unfit
  have behind := narrow?_behind (mem_toList_of_chosen (List.mem_of_getLast? ends))
  exact unfit.elim behind (Option.some_ne_none _)

end Range

/-- The slice of one element is the range of that element. -/
theorem Value.slice_one {r : Range} (steps : r.step ≠ 0) (i : Int64) : ∃ part : Range,
    part.toList = ((Slice.one i).positions r.size).filterMap (r.toList[·]?) ∧
      ∀ h, (range r).slice (Slice.one i) h = .ok (.range part) h := by
  have moves : (Slice.one i).stride ≠ 0 := by
    rw [Slice.stride_one]
    decide
  obtain ⟨part, sliced, -, same⟩ :=
    Range.slice?_of_fits steps moves (Range.fits_of_stride_one (r := r) (Slice.stride_one i))
  refine ⟨part, ?_, fun h => ?_⟩
  · rw [same, Range.chosen, Value.picked, List.size_toArray, Range.length_toList]
    simp only [List.getElem?_toArray]
  · rw [Value.slice_range moves, sliced, Option.elim_some]

/-- What is asked of a range is answered as of the list of its elements, which is what a loop visits: how many there
are, if they are fewer than `2 ^ 63`; what is at a place, which is then also what the slice of one element at that
place has; and whether an integer is among them, if its distance from the start has 64 bits. Of a range with more
elements, the length wraps around, and nothing is found at any place. -/
theorem range_reads (r : Range) (steps : r.step ≠ 0) :
    r.toList.map Int64.toInt = r.walk ∧
    (∀ body : Value → Run Flow, Exec.visit (.range r) body = Run.forEach body (r.toList.map Value.int)) ∧
    (∃ n : Int64, (∀ reach, Builtins.len (.range r) reach = .ok (.int n) reach) ∧
      n.toInt = if r.toList.length < 2 ^ 63 then (r.toList.length : Int) else r.toList.length - 2 ^ 64) ∧
    (∀ (i : Int64) (index : Value), index.int? = some i →
      (r.toList.length < 2 ^ 63 → ∀ (k : Nat) (x : Int64), r.toList[k]? = some x →
        i.toInt = k ∨ i.toInt = (k : Int) - r.toList.length →
          (∀ h, Value.item h (.range r) index = .ok (.int x)) ∧
          ∃ part : Range, part.toList = [x] ∧ ∀ h, (Value.range r).slice (Slice.one i) h = .ok (.range part) h) ∧
      (r.toList.length < 2 ^ 63 → i.toInt < -r.toList.length ∨ r.toList.length ≤ i.toInt →
          (∀ h, Value.item h (.range r) index = .error ⟨.index, "range object index out of range"⟩) ∧
          ∃ part : Range, part.toList = [] ∧ ∀ h, (Value.range r).slice (Slice.one i) h = .ok (.range part) h) ∧
      (2 ^ 63 ≤ r.toList.length →
        ∀ h, Value.item h (.range r) index = .error ⟨.index, "range object index out of range"⟩)) ∧
    (∀ (x : Int64) (v : Value), v.int? = some x → r.Near x →
      ∀ h, Value.contains h (.range r) v = .ok (decide (x ∈ r.toList))) := by
  rw [Range.length_toList]
  refine ⟨Range.toInt_toList steps, Exec.visit_range r, ⟨Int64.ofNat r.size, fun _ => rfl, ?_⟩,
    fun i index whole => ⟨fun short k x there named => ?_, fun short outside => ?_, fun long => ?_⟩,
    fun x v whole near h => Value.contains_range steps near whole⟩
  · split
    · next short => exact Int64.toInt_ofNat_of_lt short
    · next long => exact Value.toInt_ofNat_of_long (Nat.le_of_not_lt long) r.size_lt
  · have inside : k < r.size := by
      rw [← Range.length_toList]
      exact (List.getElem?_eq_some_iff.mp there).1
    obtain ⟨part, listed, sliced⟩ := Value.slice_one steps i
    rw [Slice.positions_one short inside named, List.filterMap_cons_some there] at listed
    exact ⟨Value.item_of_place whole (Value.place?_of_place short inside named) there, part, listed, sliced⟩
  · obtain ⟨part, listed, sliced⟩ := Value.slice_one steps i
    rw [Slice.positions_one_of_outside short outside] at listed
    exact ⟨Value.item_of_nowhere whole (Value.place?_of_outside short outside), part, listed, sliced⟩
  · exact Value.item_of_nowhere whole (Value.place?_of_long long r.size_lt)

/-- A range that goes down, and its last element. -/
theorem range_reads_of_falling :
    let r : Range := ⟨10, 0, -3⟩
    r.step ≠ 0 ∧ (Value.int (-1)).int? = some (-1) ∧ r.Near 7 ∧
      (∀ h, Value.item h (.range r) (.int (-1)) = .ok (.int 1)) ∧
      ∀ h, Value.contains h (.range r) (.int 7) = .ok true := by
  intro r
  have steps : r.step ≠ 0 := by decide
  have near : r.Near 7 := Range.near_of_short (by decide) 7
  obtain ⟨-, -, -, places, members⟩ := range_reads r steps
  obtain ⟨there, -, -⟩ := places (-1) (.int (-1)) rfl
  refine ⟨steps, rfl, near, (there (by decide) 3 1 (by decide) (.inr (by decide))).1, fun h => ?_⟩
  have listed : decide ((7 : Int64) ∈ r.toList) = true := by decide
  rw [members 7 (.int 7) rfl near h, listed]

/-- A range of `2 ^ 64 - 2` elements: the first one is not found, and the length is said to be negative. -/
theorem first_of_wide_range :
    let r : Range := ⟨-9223372036854775807, 9223372036854775807, 1⟩
    r.step ≠ 0 ∧ r.walk.head? = some (-9223372036854775807) ∧ r.toList.length = 18446744073709551614 ∧
      (∀ h, Value.item h (.range r) (.int 0) = .error ⟨.index, "range object index out of range"⟩) ∧
      ∀ reach, Builtins.len (.range r) reach = .ok (.int (-2)) reach := by
  intro r
  have long : r.size = 18446744073709551614 := by decide
  refine ⟨by decide, ?_, by rw [Range.length_toList, long], fun h => ?_, fun reach => ?_⟩
  · rw [Range.walk, Slice.walk, if_pos (by decide)]
    rfl
  · exact Value.item_of_nowhere rfl (Value.place?_of_long (by rw [long]; decide) r.size_lt) h
  · have wrapped : Int64.ofNat r.size = -2 := by
      rw [long]
      decide
    exact congrArg (fun n => EStateM.Result.ok (Value.int n) reach) wrapped

end SnippetKernel
