import SnippetKernel.Value.Items

/-! What a slice selects. The number of positions is computed by a division; here the positions are walked one by one,
from the first bound to the second, and the two agree.

What a range consists of: the integers that a walk from its start comes to before it is at its stop. Their number
is computed by a division and each of them by a product, and none of them leaves the 64 bits that start and stop have. -/
namespace SnippetKernel.Slice

/-- The step; one if there is none. -/
def stride (s : Slice) : Int := (s.step.map (·.toInt)).getD 1

/-- A bound among `length` items, kept from `low` to `high`. Below zero it counts from the end, and without it there is
a default. -/
def bounded (length : Nat) (low high default : Int) : Option Int64 → Int
  | none => default
  | some i => max low (min high (if i.toInt < 0 then i.toInt + length else i.toInt))

/-- Where the walk begins. -/
def first (s : Slice) (length : Nat) : Int :=
  if 0 < s.stride then bounded length 0 length 0 s.start
  else bounded length (-1) (length - 1) (length - 1) s.start

/-- What the walk stays in front of. -/
def limit (s : Slice) (length : Nat) : Int :=
  if 0 < s.stride then bounded length 0 length length s.stop
  else bounded length (-1) (length - 1) (-1) s.stop

/-- `i` comes before `limit` in the direction of the step. -/
def Before (step limit i : Int) : Prop := (0 < step ∧ i < limit) ∨ (step < 0 ∧ limit < i)

instance (step limit i : Int) : Decidable (Before step limit i) := inferInstanceAs (Decidable (_ ∨ _))

/-- The integers `i`, `i + step`, … before `limit`. -/
def walk (step limit i : Int) : List Int :=
  if Before step limit i then i :: walk step limit (i + step) else []
  termination_by (if 0 < step then limit - i else i - limit).toNat
  decreasing_by
    rcases ‹Before step limit i› with ⟨up, before⟩ | ⟨down, before⟩
    · simp only [if_pos up]
      omega
    · simp only [if_neg (Int.not_lt.mpr (Int.le_of_lt down))]
      omega

/-! ### Counting -/

def span (step limit i : Int) : Int := if 0 < step then limit - i else i - limit

/-- How many steps of this size there are in a span. -/
def steps (span : Int) (size : Nat) : Nat := if 0 < span then ((span - 1) / size + 1).toNat else 0

section

variable {step limit i : Int} {size : Nat}

theorem before_iff (moves : step ≠ 0) : Before step limit i ↔ 0 < span step limit i := by
  unfold Before span
  split <;> omega

theorem span_add : span step limit (i + step) = span step limit i - step.natAbs := by
  unfold span
  split <;> omega

theorem steps_of_pos {span : Int} (positive : 0 < span) (moves : 0 < size) :
    steps span size = steps (span - size) size + 1 := by
  rw [steps, steps, if_pos positive]
  by_cases more : 0 < span - size
  · have one_more : (span - 1) / size = (span - size - 1) / size + 1 := by
      have split : span - 1 = span - size - 1 + 1 * size := by omega
      rw [split, Int.add_mul_ediv_right _ _ (by omega)]
    have counted : 0 ≤ (span - size - 1) / (size : Int) := Int.ediv_nonneg (by omega) (by omega)
    rw [if_pos more, one_more]
    omega
  · rw [if_neg more, Int.ediv_eq_zero_of_lt (by omega) (by omega)]
    rfl

/-- The positions that are computed are those of the walk. -/
theorem walk_eq_map (moves : step ≠ 0) :
    walk step limit i = (List.range (steps (span step limit i) step.natAbs)).map fun (k : Nat) => i + step * k := by
  -- One step of the walk takes one off the count.
  fun_induction walk step limit i with
  | case1 i before ih =>
    rw [steps_of_pos ((before_iff moves).mp before) (Int.natAbs_pos.mpr moves), List.range_succ_eq_map, ih,
      span_add]
    simp only [List.map_cons, List.map_map, Int.natCast_zero, Int.mul_zero, Int.add_zero, List.cons.injEq, true_and]
    refine List.map_congr_left fun k _ => ?_
    simp only [Function.comp_apply, Nat.succ_eq_add_one, Int.natCast_add, Int.natCast_one, Int.mul_add, Int.mul_one]
    omega
  | case2 i done =>
    rw [before_iff moves] at done
    rw [steps, if_neg done]
    rfl

theorem mem_walk {j : Int} (mem : j ∈ walk step limit i) :
    (0 < step ∧ i ≤ j ∧ j < limit) ∨ (step < 0 ∧ limit < j ∧ j ≤ i) := by
  fun_induction walk step limit i with
  | case1 i before ih =>
    rcases List.mem_cons.mp mem with rfl | later
    · unfold Before at before
      omega
    · have := ih later
      omega
  | case2 => cases mem

end

/-! ### Bounds -/

section

variable {length : Nat} {low high default : Int} {bound : Option Int64}

theorem clamp_eq_bounded (below : low ≤ default) (above : default ≤ high) :
    clamp ((bound.map (fromEnd length)).getD default) low high = bounded length low high default bound := by
  cases bound with
  | none =>
    simp only [Option.map_none, Option.getD_none, clamp, bounded]
    omega
  | some i =>
    simp only [Option.map_some, Option.getD_some, clamp, bounded, fromEnd]
    omega

theorem bounded_within (length : Nat) (bound : Option Int64) (below : low ≤ default) (above : default ≤ high) :
    low ≤ bounded length low high default bound ∧ bounded length low high default bound ≤ high := by
  cases bound with
  | none => exact ⟨below, above⟩
  | some i =>
    simp only [bounded]
    omega

end

variable {s : Slice}

theorem stride_ne_zero_iff : s.stride ≠ 0 ↔ s.step ≠ some 0 := by
  unfold stride
  cases s.step with
  | none => simp
  | some i =>
    simp only [Option.map_some, Option.getD_some, ne_eq, Option.some.injEq]
    exact not_congr (Int64.toInt_inj (y := 0))

theorem limits_of_pos (length : Nat) (up : 0 < s.stride) :
    0 ≤ s.first length ∧ s.first length ≤ length ∧ 0 ≤ s.limit length ∧ s.limit length ≤ length := by
  have first := bounded_within length s.start (Int.le_refl 0) (Int.natCast_nonneg length)
  have limit := bounded_within length s.stop (Int.natCast_nonneg length) (Int.le_refl _)
  rw [Slice.first, Slice.limit, if_pos up, if_pos up]
  exact ⟨first.1, first.2, limit⟩

theorem limits_of_neg (length : Nat) (down : s.stride < 0) :
    -1 ≤ s.first length ∧ s.first length < length ∧ -1 ≤ s.limit length ∧ s.limit length < length := by
  have room : (-1 : Int) ≤ length - 1 := by omega
  have first := bounded_within length s.start room (Int.le_refl _)
  have limit := bounded_within length s.stop (Int.le_refl _) room
  rw [Slice.first, Slice.limit, if_neg (by omega), if_neg (by omega)]
  omega

/-! ### Positions -/

theorem select?_of_moves (moves : s.stride ≠ 0) (length : Nat) :
    s.select? length = some ⟨s.first length, s.stride,
      steps (span s.stride (s.limit length) (s.first length)) s.stride.natAbs⟩ := by
  have step : (s.step.map (·.toInt)).getD 1 = s.stride := rfl
  unfold select?
  simp only [step, if_neg moves]
  by_cases up : 0 < s.stride
  · simp only [if_pos up, first, limit, span, steps]
    rw [clamp_eq_bounded (Int.le_refl 0) (Int.natCast_nonneg length),
      clamp_eq_bounded (Int.natCast_nonneg length) (Int.le_refl _)]
  · simp only [if_neg up, first, limit, span, steps]
    rw [clamp_eq_bounded (by omega) (Int.le_refl _), clamp_eq_bounded (Int.le_refl _) (by omega)]

/-- The positions that the walk comes to. -/
def positions (s : Slice) (length : Nat) : List Nat :=
  (walk s.stride (s.limit length) (s.first length)).map Int.toNat

theorem walk_within {length : Nat} {i : Int} (mem : i ∈ walk s.stride (s.limit length) (s.first length)) :
    0 ≤ i ∧ i < length := by
  rcases mem_walk mem with ⟨up, after, before⟩ | ⟨down, after, before⟩
  · have limits := limits_of_pos length up
    omega
  · have limits := limits_of_neg length down
    omega

theorem natCast_positions (s : Slice) (length : Nat) :
    (s.positions length).map (fun (i : Nat) => (i : Int)) = walk s.stride (s.limit length) (s.first length) := by
  rw [positions, List.map_map]
  refine (List.map_congr_left fun i mem => ?_).trans (List.map_id _)
  exact Int.toNat_of_nonneg (walk_within mem).1

theorem positions_lt {length i : Nat} (mem : i ∈ s.positions length) : i < length := by
  obtain ⟨j, inside, rfl⟩ := List.mem_map.mp mem
  have within := walk_within inside
  omega

/-- Without a step the positions are those from the first to the limit. -/
theorem positions_of_one (one : s.stride = 1) (length : Nat) :
    s.positions length = List.range' (s.first length).toNat (s.limit length - s.first length).toNat := by
  have limits := limits_of_pos length (one ▸ Int.one_pos)
  have count : steps (span 1 (s.limit length) (s.first length)) 1 = (s.limit length - s.first length).toNat := by
    rw [span, if_pos Int.zero_lt_one, steps, Int.natCast_one, Int.ediv_one]
    split <;> omega
  rw [positions, walk_eq_map (by omega), one, Int.natAbs_one, count, List.map_map, List.range'_eq_map_range]
  refine List.map_congr_left fun k _ => ?_
  simp only [Function.comp_apply]
  omega

theorem indices?_of_moves (moves : s.stride ≠ 0) (length : Nat) : s.indices? length = some (s.positions length) := by
  rw [indices?, select?_of_moves moves, positions, walk_eq_map moves, List.map_map]
  rfl

/-! ### Bounded arithmetic -/

/-- The least number that does not fit 128 bits with a sign. -/
abbrev wideSize : Nat := 170141183460469231731687303715884105728

example : wideSize = Nat.pow 2 127 := by decide

/-- An integer, if it fits 128 bits. -/
def wide? (i : Int) : Option Int := if -wideSize ≤ i ∧ i < wideSize then some i else none

def word? (i : Int) : Option Nat := if 0 ≤ i ∧ i < UInt64.size then some i.toNat else none

def boundedFromEnd? (length : Nat) (i : Int64) : Option Int :=
  if i.toInt < 0 then wide? (i.toInt + length) else some i.toInt

/-- How far it is from the first position to the limit; `last` is the last position. -/
def boundedSpan? (s : Slice) (length : Nat) (stop : Option Int) (first last : Int) : Option Int :=
  if 0 < s.stride then wide? (clamp (stop.getD length) 0 length - first)
  else wide? (first - clamp (stop.getD (-1)) (-1) last)

def boundedSteps? (span : Int) (size : Nat) : Option Nat :=
  if 0 < span then do
    let less ← wide? (span - 1)
    let size ← wide? size
    word? (← wide? (less / size + 1))
  else some 0

/-- The positions by arithmetic on 128 bits; nothing if any step of it does not fit. -/
def boundedIndices? (s : Slice) (length : Nat) : Option (List Nat) :=
  if s.stride = 0 then none
  else do
    let start ← s.start.mapM (boundedFromEnd? length)
    let stop ← s.stop.mapM (boundedFromEnd? length)
    let last ← wide? (length - 1)
    let first := if 0 < s.stride then clamp (start.getD 0) 0 length else clamp (start.getD last) (-1) last
    let span ← boundedSpan? s length stop first last
    let count ← boundedSteps? span s.stride.natAbs
    (List.range count).mapM fun (k : Nat) => do
      let far ← wide? (s.stride * k)
      let place ← wide? (first + far)
      word? place

/-- A length, a step and a bound together fit. -/
theorem sizes_fit : 3 * UInt64.size ≤ wideSize := by decide

theorem wide?_of_fits {i : Int} (low : -wideSize ≤ i) (high : i < wideSize) : wide? i = some i := if_pos ⟨low, high⟩

theorem word?_of_fits {i : Int} (low : 0 ≤ i) (high : i < UInt64.size) : word? i = some i.toNat := if_pos ⟨low, high⟩

theorem mapM_boundedFromEnd? {length : Nat} (fits : length < UInt64.size) (bound : Option Int64) :
    bound.mapM (boundedFromEnd? length) = some (bound.map (fromEnd length)) := by
  cases bound with
  | none => rfl
  | some i =>
    have low : -(UInt64.size : Int) ≤ i.toInt := Int.le_trans (by decide) i.le_toInt
    have room := sizes_fit
    simp only [Option.mapM_some, Option.map_some, boundedFromEnd?, fromEnd]
    split
    · rw [wide?_of_fits (by omega) (by omega)]
      rfl
    · rfl

theorem mapM_of_forall {α β : Type} {f : α → Option β} {g : α → β} {l : List α} (given : ∀ a ∈ l, f a = some (g a)) :
    l.mapM f = some (l.map g) := by
  induction l with
  | nil => rfl
  | cons a l ih =>
    obtain ⟨first, rest⟩ := List.forall_mem_cons.mp given
    rw [List.mapM_cons, first, ih rest]
    rfl

theorem span_within (moves : s.stride ≠ 0) (length : Nat) :
    -(length : Int) ≤ span s.stride (s.limit length) (s.first length) ∧
      span s.stride (s.limit length) (s.first length) ≤ length := by
  unfold span
  by_cases up : 0 < s.stride
  · have limits := limits_of_pos length up
    rw [if_pos up]
    omega
  · have limits : -1 ≤ s.first length ∧ _ := limits_of_neg length (by omega)
    rw [if_neg up]
    omega

theorem stride_within (s : Slice) : s.stride.natAbs ≤ UInt64.size := by
  unfold stride
  cases s.step with
  | none => decide
  | some i =>
    have low := i.le_toInt
    have high := i.toInt_lt
    change i.toInt.natAbs ≤ 18446744073709551616
    omega

theorem boundedSteps?_of_fits {span : Int} (size : Nat) (positive : 0 < size) (short : size ≤ UInt64.size)
    (fits : span < UInt64.size) : boundedSteps? span size = some (steps span size) := by
  have room := sizes_fit
  unfold boundedSteps? steps
  split
  · next some_steps =>
    have counted : 0 ≤ (span - 1) / (size : Int) := Int.ediv_nonneg (by omega) (by omega)
    have few : (span - 1) / (size : Int) ≤ span - 1 := Int.ediv_le_self _ (by omega)
    rw [wide?_of_fits (i := span - 1) (by omega) (by omega), wide?_of_fits (i := size) (by omega) (by omega)]
    simp only [Option.bind_eq_bind, Option.bind_some]
    rw [wide?_of_fits (by omega) (by omega), Option.bind_some, word?_of_fits (by omega) (by omega)]
  · rfl

theorem boundedSpan?_of_moves {length : Nat} (moves : s.stride ≠ 0) (fits : length < UInt64.size) :
    boundedSpan? s length (s.stop.map (fromEnd length)) (s.first length) (length - 1)
      = some (span s.stride (s.limit length) (s.first length)) := by
  have within := span_within moves length
  have room := sizes_fit
  unfold boundedSpan?
  rw [clamp_eq_bounded (Int.natCast_nonneg length) (Int.le_refl _),
    clamp_eq_bounded (Int.le_refl _) (by omega), ← apply_ite wide?]
  have same : (if 0 < s.stride then bounded length 0 length length s.stop - s.first length
      else s.first length - bounded length (-1) (length - 1) (-1) s.stop)
        = span s.stride (s.limit length) (s.first length) := by
    unfold span limit
    split <;> rfl
  rw [same, wide?_of_fits (by omega) (by omega)]

/-- The positions of items that a machine can hold are computed without an overflow. -/
theorem boundedIndices?_of_moves {length : Nat} (moves : s.stride ≠ 0) (fits : length < UInt64.size) :
    s.boundedIndices? length = s.indices? length := by
  have strides := s.stride_within
  have room := sizes_fit
  have begins : (if 0 < s.stride then clamp ((s.start.map (fromEnd length)).getD 0) 0 length
      else clamp ((s.start.map (fromEnd length)).getD (length - 1)) (-1) (length - 1)) = s.first length := by
    rw [first, clamp_eq_bounded (Int.le_refl 0) (Int.natCast_nonneg length),
      clamp_eq_bounded (by omega) (Int.le_refl _)]
  have counts := boundedSteps?_of_fits s.stride.natAbs (by omega) (by omega)
    (Int.lt_of_le_of_lt (span_within moves length).2 (by omega))
  -- A product of the step and a count is bounded by the position that it leads to.
  have places : ∀ k ∈ List.range (steps (span s.stride (s.limit length) (s.first length)) s.stride.natAbs),
      ((wide? (s.stride * (k : Nat))).bind fun far => (wide? (s.first length + far)).bind word?)
        = some (s.first length + s.stride * k).toNat := by
    intro k mem
    have walked : s.first length + s.stride * k ∈ walk s.stride (s.limit length) (s.first length) := by
      rw [walk_eq_map moves]
      exact List.mem_map_of_mem mem
    have within := walk_within walked
    have begun : -1 ≤ s.first length ∧ s.first length ≤ length := by
      rcases Int.lt_or_gt_of_ne moves with down | up
      · have limits := limits_of_neg length down
        omega
      · have limits := limits_of_pos length up
        omega
    rw [wide?_of_fits (by omega) (by omega), Option.bind_some, wide?_of_fits (by omega) (by omega), Option.bind_some,
      word?_of_fits within.1 (by omega)]
  simp only [boundedIndices?, if_neg moves, mapM_boundedFromEnd? fits, Option.bind_eq_bind, Option.bind_some,
    wide?_of_fits (i := (length : Int) - 1) (by omega) (by omega), begins, boundedSpan?_of_moves moves fits, counts]
  rw [mapM_of_forall places, indices?, select?_of_moves moves]
  rfl

end SnippetKernel.Slice

namespace SnippetKernel.Value

theorem selected_of_moves {s : Slice} (moves : s.stride ≠ 0) (length : Nat) :
    selected s length = .ok (s.positions length) := by
  rw [selected, s.indices?_of_moves moves]

end SnippetKernel.Value

/-! ### Ranges -/

namespace SnippetKernel.Range

/-- The integers of the range, one step after the other. -/
def walk (r : Range) : List Int := Slice.walk r.step.toInt r.stop.toInt r.start.toInt

/-- The integer at a place. -/
def element (r : Range) (i : Int) : Int := r.start.toInt + r.step.toInt * i

variable {r : Range}

theorem toInt_ne_zero {i : Int64} (other : i ≠ 0) : i.toInt ≠ 0 := fun same => other (Int64.toInt_inj.mp same)

/-! ### How many there are -/

theorem size_eq_steps (moves : r.step ≠ 0) :
    r.size = Slice.steps (Slice.span r.step.toInt r.stop.toInt r.start.toInt) r.step.toInt.natAbs := by
  have positive : 0 < r.step.toInt.natAbs := Int.natAbs_pos.mpr (toInt_ne_zero moves)
  change ((Slice.span r.step.toInt r.stop.toInt r.start.toInt).toNat + _ - 1) / _ = _
  generalize Slice.span r.step.toInt r.stop.toInt r.start.toInt = span
  unfold Slice.steps
  split
  · next more =>
    obtain ⟨n, rfl⟩ : ∃ n : Nat, span = n + 1 := ⟨(span - 1).toNat, by omega⟩
    have shifted : ((n : Int) + 1).toNat + r.step.toInt.natAbs - 1 = n + r.step.toInt.natAbs := by omega
    rw [shifted, Nat.add_div_right _ positive, Int.add_sub_cancel]
    exact (Int.toNat_natCast _).symm
  · rw [Nat.div_eq_of_lt (by omega)]

theorem size_of_still (still : r.step = 0) : r.size = 0 := by
  simp [size, still]

theorem moves_of_size (some_elements : 0 < r.size) : r.step ≠ 0 := by
  intro still
  rw [size_of_still still] at some_elements
  omega

theorem walk_eq_map (moves : r.step ≠ 0) : r.walk = (List.range r.size).map fun (i : Nat) => r.element i := by
  rw [walk, Slice.walk_eq_map (toInt_ne_zero moves), ← size_eq_steps moves]
  rfl

/-- Each of the integers lies between start and stop. -/
theorem element_within {i : Nat} (inside : i < r.size) :
    (0 < r.step.toInt ∧ r.start.toInt ≤ r.element i ∧ r.element i < r.stop.toInt) ∨
      (r.step.toInt < 0 ∧ r.stop.toInt < r.element i ∧ r.element i ≤ r.start.toInt) := by
  have walked : r.element i ∈ r.walk := by
    rw [walk_eq_map (moves_of_size (Nat.zero_lt_of_lt inside))]
    exact List.mem_map.mpr ⟨i, List.mem_range.mpr inside, rfl⟩
  exact Slice.mem_walk walked

theorem toInt_element {i : Nat} (inside : i < r.size) : (Int64.ofInt (r.element i)).toInt = r.element i := by
  have start := r.start.le_toInt
  have start' := r.start.toInt_lt
  have stop := r.stop.le_toInt
  have stop' := r.stop.toInt_lt
  have within := element_within inside
  exact Int64.toInt_ofInt_of_le (by omega) (by omega)

/-! ### The list of them -/

theorem get?_of_lt {i : Nat} (inside : i < r.size) : r.get? i = some (Int64.ofInt (r.element i)) := if_pos inside

theorem toList_eq_map (r : Range) :
    r.toList = (List.range r.size).map fun (i : Nat) => Int64.ofInt (r.element i) := by
  have there (places : List Nat) (inside : ∀ i ∈ places, i < r.size) :
      places.filterMap r.get? = places.map fun (i : Nat) => Int64.ofInt (r.element i) := by
    induction places with
    | nil => rfl
    | cons i places ih =>
      obtain ⟨first, rest⟩ := List.forall_mem_cons.mp inside
      rw [List.filterMap_cons_some (get?_of_lt first), ih rest, List.map_cons]
  exact there _ fun i => List.mem_range.mp

@[simp] theorem length_toList (r : Range) : r.toList.length = r.size := by simp [toList_eq_map]

theorem getElem?_toList (r : Range) (i : Nat) : r.toList[i]? = r.get? i := by
  rw [toList_eq_map, List.getElem?_map]
  by_cases inside : i < r.size
  · rw [List.getElem?_range inside, get?_of_lt inside]
    rfl
  · rw [List.getElem?_eq_none (by simpa using inside), get?, if_neg inside]
    rfl

/-- The range lists what the walk comes to. -/
theorem toInt_toList (moves : r.step ≠ 0) : r.toList.map Int64.toInt = r.walk := by
  rw [walk_eq_map moves, toList_eq_map, List.map_map]
  exact List.map_congr_left fun i mem => toInt_element (List.mem_range.mp mem)

theorem mem_toList {n : Int64} : n ∈ r.toList ↔ ∃ i < r.size, r.element i = n.toInt := by
  rw [toList_eq_map, List.mem_map]
  constructor
  · rintro ⟨i, mem, rfl⟩
    exact ⟨i, List.mem_range.mp mem, (toInt_element (List.mem_range.mp mem)).symm⟩
  · rintro ⟨i, inside, same⟩
    exact ⟨i, List.mem_range.mpr inside, by rw [same, Int64.ofInt_toInt]⟩

/-- Every place counts below what 64 bits without a sign hold. -/
theorem size_lt (r : Range) : r.size < UInt64.size := by
  by_cases empty : r.size = 0
  · rw [empty]
    decide
  · have last := element_within (r := r) (i := r.size - 1) (by omega)
    have start := r.start.le_toInt
    have start' := r.start.toInt_lt
    have stop := r.stop.le_toInt
    have stop' := r.stop.toInt_lt
    have far : (r.step.toInt * ((r.size - 1 : Nat) : Int)).natAbs < UInt64.size - 1 := by
      change _ < 18446744073709551615
      unfold element at last
      omega
    rw [Int.natAbs_mul, Int.natAbs_natCast] at far
    have one : 1 * (r.size - 1) ≤ r.step.toInt.natAbs * (r.size - 1) :=
      Nat.mul_le_mul_right _ (Int.natAbs_pos.mpr (toInt_ne_zero (moves_of_size (by omega))))
    omega

/-! ### When two ranges have the same -/

theorem start_eq_of_toList {a b : Range} (same : a.toList = b.toList) (some_elements : 0 < a.size) :
    a.start = b.start := by
  have sizes : a.size = b.size := by simpa using congrArg List.length same
  have first := (getElem?_toList a 0).symm.trans ((congrArg (·[0]?) same).trans (getElem?_toList b 0))
  rw [get?_of_lt some_elements, get?_of_lt (sizes ▸ some_elements)] at first
  have equal : (Int64.ofInt (a.element 0)).toInt = (Int64.ofInt (b.element 0)).toInt :=
    congrArg Int64.toInt (Option.some.inj first)
  rw [show (0 : Int) = ((0 : Nat) : Int) from rfl, toInt_element some_elements,
    toInt_element (sizes ▸ some_elements)] at equal
  exact Int64.toInt_inj.mp (by simpa [element] using equal)

theorem step_eq_of_toList {a b : Range} (same : a.toList = b.toList) (two : 1 < a.size) : a.step = b.step := by
  have sizes : a.size = b.size := by simpa using congrArg List.length same
  have starts := start_eq_of_toList same (by omega)
  have second := (getElem?_toList a 1).symm.trans ((congrArg (·[1]?) same).trans (getElem?_toList b 1))
  rw [get?_of_lt two, get?_of_lt (sizes ▸ two)] at second
  have equal : (Int64.ofInt (a.element (1 : Nat))).toInt = (Int64.ofInt (b.element (1 : Nat))).toInt :=
    congrArg Int64.toInt (Option.some.inj second)
  rw [toInt_element two, toInt_element (sizes ▸ two)] at equal
  unfold element at equal
  rw [starts] at equal
  exact Int64.toInt_inj.mp (by omega)

theorem toList_eq_of_element {a b : Range} (sizes : a.size = b.size)
    (same : ∀ i < a.size, a.element (i : Nat) = b.element (i : Nat)) : a.toList = b.toList := by
  rw [toList_eq_map, toList_eq_map, ← sizes]
  exact List.map_congr_left fun i mem => congrArg Int64.ofInt (same i (List.mem_range.mp mem))

/-- Ranges are compared by what they list, without listing it. -/
theorem same_iff (a b : Range) : a.same b = true ↔ a.toList = b.toList := by
  simp only [same, isEmpty, Bool.or_eq_true, Bool.and_eq_true, beq_iff_eq]
  constructor
  · rintro (⟨none_here, none_there⟩ | ⟨⟨sizes, starts⟩, one | steps⟩)
    · exact toList_eq_of_element (none_here.trans none_there.symm) fun i inside => by omega
    · refine toList_eq_of_element sizes fun i inside => ?_
      obtain rfl : i = 0 := by omega
      simp only [element, starts, Int.natCast_zero, Int.mul_zero]
    · exact toList_eq_of_element sizes fun i _ => by rw [element, element, starts, steps]
  · intro listed
    have sizes : a.size = b.size := by simpa using congrArg List.length listed
    by_cases empty : a.size = 0
    · exact .inl ⟨empty, sizes ▸ empty⟩
    · refine .inr ⟨⟨sizes, start_eq_of_toList listed (by omega)⟩, ?_⟩
      by_cases one : a.size = 1
      · exact .inl one
      · exact .inr (step_eq_of_toList listed (by omega))

end SnippetKernel.Range
