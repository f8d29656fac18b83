import Mathlib
import SnippetKernel.Program.Construct
import SnippetKernel.Program.Exec
import SnippetKernel.Program.TextMethods
import SnippetKernel.Proofs.Value.Selection

/-! Slices of lists, tuples and texts: the items at the positions that the slice walks to, in the order of the walk. A
text is sliced as the list of its characters is.

Ranges that are sliced and walked without being listed. The slice of a range is the range whose start, stop and
step are computed from those of the two; it lists what the same slice of the list of all elements has. A loop over a
range makes its elements one by one, and is the loop over the list of them. -/
namespace SnippetKernel

variable {s : Slice} {h : Cells}

namespace Value

/-- The items at the positions of a slice. -/
def picked {α : Type} (s : Slice) (items : Array α) : List α := (s.positions items.size).filterMap (items[·]?)

/-- There is an item at every position. -/
theorem map_some_picked {α : Type} (s : Slice) (items : Array α) :
    (picked s items).map some = (s.positions items.size).map (items[·]?) := by
  have there (places : List Nat) (inside : ∀ i ∈ places, i < items.size) :
      (places.filterMap (items[·]?)).map some = places.map (items[·]?) := by
    induction places with
    | nil => rfl
    | cons i places ih =>
      obtain ⟨first, rest⟩ := List.forall_mem_cons.mp inside
      rw [List.filterMap_cons_some (Array.getElem?_eq_getElem first), List.map_cons, List.map_cons, ih rest,
        Array.getElem?_eq_getElem first]
  exact there _ fun i mem => Slice.positions_lt mem

theorem picked_map {α β : Type} (f : α → β) (s : Slice) (items : Array α) :
    picked s (items.map f) = (picked s items).map f := by
  simp [picked, List.map_filterMap]

theorem slice_list (moves : s.stride ≠ 0) (ref : Nat) :
    (list ref).slice s h
      = .ok (.list h.lists.size) { h with lists := h.lists.push (picked s (h.list ref)).toArray } := by
  have steps : (list ref).slice s h = (HeapM.ofExcept (selected s (h.list ref).size) >>= fun places =>
      HeapM.newList (places.filterMap ((h.list ref)[·]?))) h := rfl
  rw [steps, selected_of_moves moves]
  rfl

theorem slice_tuple (moves : s.stride ≠ 0) (id : Nat) (items : List Value) :
    (tuple id items).slice s h = .ok (.tuple h.fresh (picked s items.toArray)) { h with fresh := h.fresh + 1 } := by
  have steps : (tuple id items).slice s h = (HeapM.ofExcept (selected s items.toArray.size) >>= fun places =>
      HeapM.newTuple (places.filterMap (items.toArray[·]?))) h := rfl
  rw [steps, selected_of_moves moves]
  rfl

theorem slice_str (moves : s.stride ≠ 0) (text : String) :
    (str text).slice s h = .ok (.str (String.ofList (picked s text.toList.toArray))) h := by
  have steps : (str text).slice s h = (HeapM.ofExcept (selected s text.toList.toArray.size) >>= fun places =>
      pure (.str (String.ofList (places.filterMap (text.toList.toArray[·]?))))) h := rfl
  rw [steps, selected_of_moves moves]
  rfl

end Value

/-! ### The characters of a text -/

theorem construct_list (text : String) (r : Reach) : Construct.apply .list [.str text] [] r =
    .ok (.list r.cells.lists.size)
      { r with cells.lists := r.cells.lists.push (text.toList.map Value.charText).toArray } :=
  rfl

theorem Work.bind_of_ok {α β : Type} {first : Work α} {a : α} {r r' : Reach} (given : first r = .ok a r')
    (next : α → Work β) : (first >>= next) r = next a r' := by
  change EStateM.bind first next r = next a r'
  rw [EStateM.bind, given]

theorem textItems_texts (i : Nat) (texts : List String) (r : Reach) :
    TextMethods.textItems i (texts.map Value.str) r = .ok (texts.map String.toList) r := by
  induction texts generalizing i with
  | nil => rfl
  | cons text texts ih =>
    have steps : TextMethods.textItems i ((text :: texts).map Value.str) r
        = (TextMethods.textItems (i + 1) (texts.map Value.str) >>= fun rest => pure (text.toList :: rest)) r := rfl
    rw [steps, Work.bind_of_ok (ih (i + 1))]
    rfl

/-- The texts of a list with a text between them. -/
theorem join_texts {ref : Nat} {texts : List String} {r : Reach}
    (items : (r.cells.list ref).toList = texts.map Value.str) (separator : String) :
    TextMethods.apply .join separator [.list ref] [] r =
      .ok (.str (String.ofList (Text.join separator.toList (texts.map String.toList)))) r := by
  have steps : TextMethods.apply .join separator [.list ref] [] r
      = (TextMethods.textItems 0 (r.cells.list ref).toList >>= fun pieces =>
          pure (.str (String.ofList (Text.join separator.toList pieces)))) r := rfl
  rw [steps, items, Work.bind_of_ok (textItems_texts 0 texts r)]
  rfl

theorem join_characters {ref : Nat} {cs : List Char} {r : Reach}
    (items : (r.cells.list ref).toList = cs.map Value.charText) :
    TextMethods.apply .join "" [.list ref] [] r = .ok (.str (String.ofList cs)) r := by
  have texts : (r.cells.list ref).toList = (cs.map Char.toString).map Value.str := by
    rw [items, List.map_map]
    rfl
  have joined : Text.join [] (cs.map fun c => [c]) = cs := by
    cases cs with
    | nil => rfl
    | cons c cs => simp [Text.join, List.flatMap_map]
  have alone : (cs.map Char.toString).map String.toList = cs.map fun c => [c] := by simp [Function.comp_def]
  rw [join_texts texts, alone]
  exact congrArg (fun joined => EStateM.Result.ok (Value.str (String.ofList joined)) r) joined

/-- A slice of the list of the characters of a text, joined. -/
def joinedSlice (text : String) (s : Slice) : Work Value := do
  let characters ← Construct.apply .list [.str text] []
  let part ← Work.onHeap (characters.slice s)
  TextMethods.apply .join "" [part] []

theorem joinedSlice_eq (moves : s.stride ≠ 0) (text : String) (r : Reach) :
    ∃ r', joinedSlice text s r = .ok (.str (String.ofList (Value.picked s text.toList.toArray))) r' := by
  obtain ⟨cells, clock, writes⟩ := r
  let characters := (text.toList.map Value.charText).toArray
  let made : Cells := { cells with lists := cells.lists.push characters }
  let cut : Cells := { made with lists := made.lists.push (Value.picked s characters).toArray }
  have listed : made.list cells.lists.size = characters := by simp [made, Cells.list]
  have sliced : Work.onHeap ((Value.list cells.lists.size).slice s) ⟨made, clock, writes⟩
      = .ok (.list made.lists.size) ⟨cut, clock, writes⟩ := by
    rw [Work.onHeap, Value.slice_list moves, listed]
  have items : (cut.list made.lists.size).toList = (Value.picked s text.toList.toArray).map Value.charText := by
    have same : characters = text.toList.toArray.map Value.charText := by simp [characters]
    rw [← Value.picked_map, ← same]
    simp [cut, Cells.list]
  refine ⟨⟨cut, clock, writes⟩, ?_⟩
  rw [joinedSlice, Work.bind_of_ok (construct_list text ⟨cells, clock, writes⟩), Work.bind_of_ok sliced]
  exact join_characters items

/-- A slice selects the positions that a walk from its first bound to its second comes to, and all of them are there:
no index is out of range, and no arithmetic on the way overflows. Lists, tuples and texts give what is at these
positions, in their order, and a text gives the same as the list of its characters, joined. -/
theorem slice_walks (s : Slice) (moves : s.step ≠ some 0) (length : Nat) : ∃ places, s.indices? length = some places ∧
    places.map (fun (i : Nat) => (i : Int)) = Slice.walk s.stride (s.limit length) (s.first length) ∧
    (∀ i ∈ places, i < length) ∧
    (length < UInt64.size → s.boundedIndices? length = some places) ∧
    (∀ (h : Cells) (ref : Nat), (h.list ref).size = length → ∃ part : List Value,
      (Value.list ref).slice s h = .ok (.list h.lists.size) { h with lists := h.lists.push part.toArray } ∧
      part.map some = places.map ((h.list ref)[·]?)) ∧
    (∀ (h : Cells) (id : Nat) (items : List Value), items.length = length → ∃ part : List Value,
      (Value.tuple id items).slice s h = .ok (.tuple h.fresh part) { h with fresh := h.fresh + 1 } ∧
      part.map some = places.map (items[·]?)) ∧
    (∀ (r : Reach) (text : String), text.toList.length = length → ∃ part : List Char,
      (Value.str text).slice s r.cells = .ok (.str (String.ofList part)) r.cells ∧
      part.map some = places.map (text.toList[·]?) ∧
      ∃ r', joinedSlice text s r = .ok (.str (String.ofList part)) r') := by
  rw [← Slice.stride_ne_zero_iff] at moves
  refine ⟨s.positions length, s.indices?_of_moves moves length, s.natCast_positions length,
    fun i => Slice.positions_lt, fun fits => ?_, ?_, ?_, ?_⟩
  · rw [Slice.boundedIndices?_of_moves moves fits, Slice.indices?_of_moves moves]
  · rintro h ref rfl
    exact ⟨_, Value.slice_list moves ref, Value.map_some_picked s (h.list ref)⟩
  · rintro h id items rfl
    exact ⟨_, Value.slice_tuple moves id items, by simpa using Value.map_some_picked s items.toArray⟩
  · rintro r text rfl
    exact ⟨_, Value.slice_str moves text, by simpa using Value.map_some_picked s text.toList.toArray,
      joinedSlice_eq moves text r⟩

/-- Every second character of a text, backwards from the last but one. -/
theorem slice_walks_of_reversed :
    let s : Slice := ⟨some (-2), none, some (-2)⟩
    s.step ≠ some 0 ∧ Slice.walk s.stride (s.limit 5) (s.first 5) = [3, 1] ∧
    (Value.str "abcde").slice s .empty = .ok (.str "db") .empty := by
  intro s
  have step : s.step ≠ some 0 := by decide
  obtain ⟨places, chosen, walked, -, -, -, -, texts⟩ := slice_walks s step 5
  have places_of_five : s.indices? 5 = some [3, 1] := by decide
  obtain rfl : [3, 1] = places := Option.some.inj (places_of_five.symm.trans chosen)
  obtain ⟨part, sliced, letters, -⟩ := texts ⟨.empty, ⟨default, default⟩, #[]⟩ "abcde" (by decide)
  have same : part = ['d', 'b'] := by simpa using congrArg (List.filterMap id) letters
  rw [same] at sliced
  exact ⟨step, walked.symm, sliced⟩

end SnippetKernel

/-! ### Ranges -/

namespace SnippetKernel

namespace Slice

/-- What a slice with a step selects from `length` items. -/
def selection (s : Slice) (length : Nat) : Selection :=
  ⟨s.first length, s.stride, steps (span s.stride (s.limit length) (s.first length)) s.stride.natAbs⟩

@[simp] theorem first_selection (s : Slice) (length : Nat) : (s.selection length).first = s.first length := rfl

@[simp] theorem step_selection (s : Slice) (length : Nat) : (s.selection length).step = s.stride := rfl

theorem steps_exact {size : Nat} (positive : 0 < size) (n : Nat) : steps (size * n + 1) size = n + 1 := by
  have product : 0 ≤ (size : Int) * n := Int.mul_nonneg (Int.natCast_nonneg size) (Int.natCast_nonneg n)
  rw [steps, if_pos (by omega), Int.add_sub_cancel, Int.mul_ediv_cancel_left _ (by omega)]
  exact Int.toNat_natCast (n + 1)

variable {s : Slice} {length : Nat}

theorem walk_eq_selection (moves : s.stride ≠ 0) : walk s.stride (s.limit length) (s.first length) =
    (List.range (s.selection length).count).map fun (k : Nat) => s.first length + s.stride * k :=
  Slice.walk_eq_map moves

/-- The position that is selected after `k` others. -/
theorem selected_within (moves : s.stride ≠ 0) {k : Nat} (inside : k < (s.selection length).count) :
    0 ≤ s.first length + s.stride * k ∧ s.first length + s.stride * k < length := by
  apply walk_within
  rw [walk_eq_selection moves]
  exact List.mem_map.mpr ⟨k, List.mem_range.mpr inside, rfl⟩

theorem positions_eq_selection (moves : s.stride ≠ 0) : s.positions length =
    (List.range (s.selection length).count).map fun (k : Nat) => (s.first length + s.stride * k).toNat := by
  rw [positions, walk_eq_selection moves, List.map_map]
  rfl

end Slice

namespace Range

variable {r part : Range} {s : Slice}

/-! ### The slice -/

/-- The elements at the positions of a slice. -/
def chosen (r : Range) (s : Slice) : List Int64 := Value.picked s r.toList.toArray

/-- The step of the slice of a range. -/
def strideOf (r : Range) (s : Slice) : Int := r.step.toInt * s.stride

/-- One of the integers that the slice would be made of does not fit 64 bits. Its start does, as it is an element of
the range. -/
def Overflows (r : Range) (s : Slice) : Prop :=
  ∃ last, (r.chosen s).getLast? = some last ∧
    (narrow? (last.toInt + (r.strideOf s).sign) = none ∨ narrow? (r.strideOf s) = none)

theorem strideOf_ne_zero (steps : r.step ≠ 0) (moves : s.stride ≠ 0) : r.strideOf s ≠ 0 :=
  Int.mul_ne_zero (toInt_ne_zero steps) moves

/-- The element that is chosen after `k` others is as many steps of the slice away from the first. -/
theorem element_selected (moves : s.stride ≠ 0) {k : Nat} (inside : k < (s.selection r.size).count) :
    r.element ((s.first r.size + s.stride * k).toNat : Nat) = r.element (s.first r.size) + r.strideOf s * k := by
  have within := Slice.selected_within moves inside
  rw [Int.toNat_of_nonneg within.1, element, element, strideOf, Int.mul_add, Int.mul_assoc, Int.add_assoc]

theorem chosen_eq_map (moves : s.stride ≠ 0) : r.chosen s =
    (List.range (s.selection r.size).count).map fun (k : Nat) =>
      Int64.ofInt (r.element (s.first r.size) + r.strideOf s * k) := by
  apply (List.map_inj_right fun _ _ => Option.some.inj).mp
  rw [chosen, Value.map_some_picked, List.size_toArray, length_toList, Slice.positions_eq_selection moves,
    List.map_map, List.map_map]
  refine List.map_congr_left fun k mem => ?_
  have within := Slice.selected_within moves (List.mem_range.mp mem)
  rw [Function.comp_apply, Function.comp_apply, List.getElem?_toArray, getElem?_toList, get?_of_lt (by omega),
    element_selected moves (List.mem_range.mp mem)]

theorem toInt_chosen (moves : s.stride ≠ 0) {k : Nat} (inside : k < (s.selection r.size).count) :
    (Int64.ofInt (r.element (s.first r.size) + r.strideOf s * k)).toInt
      = r.element (s.first r.size) + r.strideOf s * k := by
  have within := Slice.selected_within moves inside
  rw [← element_selected moves inside]
  exact toInt_element (by omega)

theorem getLast?_chosen (moves : s.stride ≠ 0) (some_chosen : 0 < (s.selection r.size).count) :
    (r.chosen s).getLast? = some (Int64.ofInt (r.element (s.first r.size)
      + r.strideOf s * ((s.selection r.size).count - 1 : Nat))) := by
  rw [chosen_eq_map moves, List.getLast?_map, List.getLast?_range, if_neg (by omega)]
  rfl

/-- A range that begins at the first element chosen and stops right behind the last. -/
structure Spans (part r : Range) (s : Slice) : Prop where
  start : part.start.toInt = r.element (s.first r.size)
  step : part.step.toInt = r.strideOf s
  stop : part.stop.toInt = r.element (s.first r.size) + r.strideOf s * ((s.selection r.size).count - 1 : Nat)
    + (r.strideOf s).sign

namespace Spans

theorem step_ne_zero (spans : part.Spans r s) (steps : r.step ≠ 0) (moves : s.stride ≠ 0) : part.step ≠ 0 := by
  intro still
  have := spans.step
  rw [still] at this
  exact strideOf_ne_zero steps moves this.symm

/-- The stop is placed so that the division gives back the count. -/
theorem size_eq (spans : part.Spans r s) (steps : r.step ≠ 0) (moves : s.stride ≠ 0)
    (some_chosen : 0 < (s.selection r.size).count) : part.size = (s.selection r.size).count := by
  have far : Slice.span part.step.toInt part.stop.toInt part.start.toInt
      = part.step.toInt.natAbs * ((s.selection r.size).count - 1 : Nat) + 1 := by
    rw [spans.start, spans.step, spans.stop, Slice.span]
    rcases Int.lt_or_gt_of_ne (strideOf_ne_zero steps moves) with down | up
    · rw [if_neg (by omega), Int.sign_eq_neg_one_of_neg down, Int.ofNat_natAbs_of_nonpos (by omega), Int.neg_mul]
      omega
    · rw [if_pos up, Int.sign_eq_one_of_pos up, Int.natAbs_of_nonneg (by omega)]
      omega
  have positive : 0 < part.step.toInt.natAbs :=
    Int.natAbs_pos.mpr (toInt_ne_zero (spans.step_ne_zero steps moves))
  rw [size_eq_steps (spans.step_ne_zero steps moves), far, Slice.steps_exact positive]
  omega

theorem toList_eq (spans : part.Spans r s) (steps : r.step ≠ 0) (moves : s.stride ≠ 0)
    (some_chosen : 0 < (s.selection r.size).count) : part.toList = r.chosen s := by
  rw [chosen_eq_map moves, toList_eq_map, spans.size_eq steps moves some_chosen]
  exact List.map_congr_left fun k _ => by rw [element, spans.start, spans.step]

end Spans

theorem slice?_of_empty (empty : (s.selection r.size).count = 0) : r.slice? (s.selection r.size) = some ⟨0, 0, 1⟩ :=
  if_pos empty

/-- The slice as the code computes it, with the last element chosen by its place. -/
theorem slice?_eq (some_chosen : 0 < (s.selection r.size).count) : r.slice? (s.selection r.size) =
    (narrow? (r.element (s.first r.size))).bind fun start =>
      (narrow? (r.element (s.first r.size) + r.strideOf s * ((s.selection r.size).count - 1 : Nat)
        + (r.strideOf s).sign)).bind fun stop =>
          (narrow? (r.strideOf s)).bind fun step => some ⟨start, stop, step⟩ := by
  have before : (((s.selection r.size).count - 1 : Nat) : Int) = ((s.selection r.size).count : Int) - 1 := by omega
  rw [before]
  exact if_neg (by omega)

theorem slice?_of_fits (steps : r.step ≠ 0) (moves : s.stride ≠ 0) (fits : ¬ r.Overflows s) :
    ∃ part, r.slice? (s.selection r.size) = some part ∧ part.step ≠ 0 ∧ part.toList = r.chosen s := by
  rcases Nat.eq_zero_or_pos (s.selection r.size).count with empty | some_chosen
  · refine ⟨_, slice?_of_empty empty, by decide, ?_⟩
    rw [chosen_eq_map moves, empty]
    rfl
  · have last := toInt_chosen (r := r) moves (k := (s.selection r.size).count - 1) (by omega)
    have start := toInt_chosen (r := r) moves some_chosen
    rw [Int.natCast_zero, Int.mul_zero, Int.add_zero] at start
    have all : narrow? (r.element (s.first r.size) + r.strideOf s * ((s.selection r.size).count - 1 : Nat)
        + (r.strideOf s).sign) ≠ none ∧ narrow? (r.strideOf s) ≠ none := by
      rw [← last]
      exact not_or.mp fun overflow => fits ⟨_, getLast?_chosen moves some_chosen, overflow⟩
    obtain ⟨stop, stops⟩ := Option.ne_none_iff_exists'.mp all.1
    obtain ⟨step, stepped⟩ := Option.ne_none_iff_exists'.mp all.2
    have spans : Spans ⟨Int64.ofInt (r.element (s.first r.size)), stop, step⟩ r s :=
      ⟨start, toInt_of_narrow? stepped, toInt_of_narrow? stops⟩
    have started : narrow? (r.element (s.first r.size)) = some (Int64.ofInt (r.element (s.first r.size))) :=
      (congrArg narrow? start.symm).trans (narrow?_toInt _)
    refine ⟨_, ?_, spans.step_ne_zero steps moves, spans.toList_eq steps moves some_chosen⟩
    rw [slice?_eq some_chosen, started, stops, stepped]
    rfl

theorem slice?_of_overflows (moves : s.stride ≠ 0) (overflows : r.Overflows s) :
    r.slice? (s.selection r.size) = none := by
  obtain ⟨last, ends, unfit⟩ := overflows
  rcases Nat.eq_zero_or_pos (s.selection r.size).count with empty | some_chosen
  · rw [chosen_eq_map moves, empty] at ends
    cases ends
  · rw [getLast?_chosen moves some_chosen] at ends
    obtain rfl := Option.some.inj ends
    rw [toInt_chosen moves (by omega)] at unfit
    rw [slice?_eq some_chosen]
    rcases unfit with stops | steps
    · simp [stops]
    · simp [steps]

/-! ### Bounded arithmetic -/

/-- The slice by arithmetic on 128 bits; nothing if any step of it does not fit. -/
def boundedSlice? (r : Range) (sel : Slice.Selection) : Option (Option Range) :=
  if sel.count = 0 then some (some ⟨0, 0, 1⟩)
  else do
    let far ← Slice.wide? (r.step.toInt * sel.first)
    let start ← Slice.wide? (r.start.toInt + far)
    let step ← Slice.wide? (r.step.toInt * sel.step)
    let reach ← Slice.wide? (step * ((sel.count : Int) - 1))
    let last ← Slice.wide? (start + reach)
    let stop ← Slice.wide? (last + step.sign)
    return (narrow? start).bind fun start => (narrow? stop).bind fun stop =>
      (narrow? step).bind fun step => some ⟨start, stop, step⟩

theorem natAbs_toInt_le (i : Int64) : i.toInt.natAbs ≤ 2 ^ 63 := by
  have low := i.le_toInt
  have high := i.toInt_lt
  omega

theorem natAbs_stride_le (s : Slice) : s.stride.natAbs ≤ 2 ^ 63 := by
  unfold Slice.stride
  cases s.step with
  | none => decide
  | some i => exact natAbs_toInt_le i

/-- A step of 64 bits times another. -/
theorem natAbs_strideOf_le (r : Range) (s : Slice) : (r.strideOf s).natAbs ≤ 2 ^ 126 := by
  have product := Nat.mul_le_mul (natAbs_toInt_le r.step) (natAbs_stride_le s)
  rwa [← Nat.pow_add, ← Int.natAbs_mul] at product

/-- What is chosen is an element, so it has 64 bits. -/
theorem chosen_within (moves : s.stride ≠ 0) {k : Nat} (inside : k < (s.selection r.size).count) :
    -2 ^ 63 ≤ r.element (s.first r.size) + r.strideOf s * k ∧
      r.element (s.first r.size) + r.strideOf s * k < 2 ^ 63 := by
  rw [← toInt_chosen moves inside]
  exact ⟨Int64.le_toInt _, Int64.toInt_lt _⟩

theorem sign_within (i : Int) : -1 ≤ i.sign ∧ i.sign ≤ 1 := by
  rcases Int.lt_trichotomy i 0 with down | rfl | up
  · rw [Int.sign_eq_neg_one_of_neg down]
    decide
  · decide
  · rw [Int.sign_eq_one_of_pos up]
    decide

theorem boundedSlice?_of_moves (moves : s.stride ≠ 0) :
    r.boundedSlice? (s.selection r.size) = some (r.slice? (s.selection r.size)) := by
  rcases Nat.eq_zero_or_pos (s.selection r.size).count with empty | some_chosen
  · rw [slice?_of_empty empty]
    exact if_pos empty
  · have first := chosen_within (r := r) moves some_chosen
    have last := chosen_within (r := r) moves (k := (s.selection r.size).count - 1) (by omega)
    have step := natAbs_strideOf_le r s
    have sign := sign_within (r.strideOf s)
    have begin_low := r.start.le_toInt
    have begin_high := r.start.toInt_lt
    rw [Int.natCast_zero, Int.mul_zero, Int.add_zero] at first
    have before : ((s.selection r.size).count : Int) - 1 = ((s.selection r.size).count - 1 : Nat) := by omega
    have far : r.start.toInt + r.step.toInt * s.first r.size = r.element (s.first r.size) := rfl
    have strides : r.step.toInt * s.stride = r.strideOf s := rfl
    have wide : Slice.wideSize = 2 ^ 127 := rfl
    rw [slice?_eq some_chosen, boundedSlice?, if_neg (by omega), before]
    simp only [Option.bind_eq_bind, Slice.first_selection, Slice.step_selection, strides]
    rw [Slice.wide?_of_fits (i := r.step.toInt * s.first r.size) (by omega) (by omega), Option.bind_some, far,
      Slice.wide?_of_fits (i := r.element (s.first r.size)) (by omega) (by omega), Option.bind_some,
      Slice.wide?_of_fits (i := r.strideOf s) (by omega) (by omega), Option.bind_some,
      Slice.wide?_of_fits (by omega) (by omega), Option.bind_some,
      Slice.wide?_of_fits (by omega) (by omega), Option.bind_some,
      Slice.wide?_of_fits (by omega) (by omega), Option.bind_some]
    rfl

end Range

/-! ### Loops -/

/-- The elements that are left, made one by one, are those of the list. -/
theorem Run.forRange_eq (body : Value → Run Flow) (r : Range) {i left : Nat} (all : i + left = r.size) :
    Run.forRange body r i left = Run.forEach body ((r.toList.drop i).map Value.int) := by
  induction left generalizing i with
  | zero =>
    rw [List.drop_of_length_le (by rw [Range.length_toList]; omega)]
    rfl
  | succ left ih =>
    have inside : i < r.toList.length := by
      rw [Range.length_toList]
      omega
    have here : r.get? i = some r.toList[i] := by
      rw [← Range.getElem?_toList, List.getElem?_eq_getElem inside]
    rw [List.drop_eq_getElem_cons inside, List.map_cons, Run.forRange, Run.forEach, here]
    simp only
    congr 1
    funext flow
    cases flow with
    | normal | next => exact ih (by omega)
    | stop | ret => rfl

theorem Exec.visit_range (r : Range) (body : Value → Run Flow) :
    Exec.visit (.range r) body = Run.forEach body (r.toList.map Value.int) :=
  Run.forRange_eq body r (Nat.zero_add r.size)

/-! ### Values -/

theorem Value.slice_range {s : Slice} (moves : s.stride ≠ 0) (r : Range) (h : Cells) : (range r).slice s h =
    (r.slice? (s.selection r.size)).elim (.error ⟨.overflow, "range slice out of bounds"⟩ h)
      fun part => .ok (.range part) h := by
  have selected : s.select? r.size = some (s.selection r.size) := Slice.select?_of_moves moves r.size
  cases found : r.slice? (s.selection r.size) <;>
    simp only [Value.slice, bind, EStateM.bind, get, getThe, MonadStateOf.get, EStateM.get, selected, found] <;> rfl

/-- The list of the elements of a range, sliced. -/
theorem Value.slice_listed {s : Slice} (moves : s.stride ≠ 0) (r : Range) {h : Cells} {ref : Nat}
    (listed : h.list ref = (r.toList.map int).toArray) : (list ref).slice s h
      = .ok (.list h.lists.size) { h with lists := h.lists.push ((r.chosen s).map int).toArray } := by
  have same : (r.toList.map int).toArray = r.toList.toArray.map int := by simp
  rw [slice_list moves, listed, same, picked_map]
  rfl

/-- A slice of a range is a range that lists what the slice of the list of its elements has, or it is refused: that
happens exactly when the last element chosen and one more in the direction of the step, or the product of the two
steps, does not fit 64 bits. No product or sum on the way leaves 128 bits. A loop over a range visits what the range
lists, which is what a walk from its start to its stop comes to. -/
theorem range_slices (r : Range) (steps : r.step ≠ 0) (s : Slice) (moves : s.step ≠ some 0) :
    r.toList.map Int64.toInt = r.walk ∧
    (∀ h : Cells, (Value.range r).items h = .ok (r.toList.map Value.int)) ∧
    (∀ body : Value → Run Flow, Exec.visit (.range r) body = Run.forEach body (r.toList.map Value.int)) ∧
    (∀ (h : Cells) (ref : Nat), h.list ref = (r.toList.map Value.int).toArray →
      (Value.list ref).slice s h
        = .ok (.list h.lists.size) { h with lists := h.lists.push ((r.chosen s).map Value.int).toArray }) ∧
    r.boundedSlice? (s.selection r.size) = some (r.slice? (s.selection r.size)) ∧
    (r.Overflows s → ∀ h, (Value.range r).slice s h = .error ⟨.overflow, "range slice out of bounds"⟩ h) ∧
    (¬ r.Overflows s → ∃ part : Range, part.step ≠ 0 ∧ part.toList = r.chosen s ∧
      ∀ h, (Value.range r).slice s h = .ok (.range part) h) := by
  rw [← Slice.stride_ne_zero_iff] at moves
  refine ⟨Range.toInt_toList steps, fun _ => rfl, Exec.visit_range r,
    fun h ref => Value.slice_listed moves r, Range.boundedSlice?_of_moves moves, fun overflows h => ?_, fun fits => ?_⟩
  · rw [Value.slice_range moves, Range.slice?_of_overflows moves overflows, Option.elim_none]
  · obtain ⟨part, sliced, part_steps, same⟩ := Range.slice?_of_fits steps moves fits
    refine ⟨part, part_steps, same, fun h => ?_⟩
    rw [Value.slice_range moves, sliced, Option.elim_some]

/-- Every second element, backwards; and every second element of a range whose step is nearly the greatest. -/
theorem range_slices_of_two :
    let r : Range := ⟨0, 10, 3⟩
    let s : Slice := ⟨none, none, some (-2)⟩
    let wide : Range := ⟨0, 9223372036854775807, 9223372036854775806⟩
    let other : Slice := ⟨none, none, some 2⟩
    (r.step ≠ 0 ∧ s.step ≠ some 0 ∧ ∃ part : Range, part.toList = [9, 3] ∧
      (Value.range r).slice s .empty = .ok (.range part) .empty) ∧
    wide.step ≠ 0 ∧ other.step ≠ some 0 ∧
      (Value.range wide).slice other .empty = .error ⟨.overflow, "range slice out of bounds"⟩ .empty := by
  intro r s wide other
  have moves : s.stride ≠ 0 := by decide
  have chosen : r.chosen s = [9, 3] := by
    rw [Range.chosen_eq_map moves]
    decide
  have others : wide.chosen other = [0] := by
    rw [Range.chosen_eq_map (by decide)]
    decide
  have fits : ¬ r.Overflows s := by
    rintro ⟨last, ends, unfit⟩
    rw [chosen] at ends
    cases ends
    revert unfit
    decide
  have overflows : wide.Overflows other := ⟨0, by rw [others]; rfl, by decide⟩
  obtain ⟨-, -, -, -, -, -, sliced⟩ := range_slices r (by decide) s (by decide)
  obtain ⟨part, -, same, sliced⟩ := sliced fits
  obtain ⟨-, -, -, -, -, refused, -⟩ := range_slices wide (by decide) other (by decide)
  exact ⟨⟨by decide, by decide, part, same.trans chosen, sliced .empty⟩, by decide, by decide,
    refused overflows .empty⟩

end SnippetKernel
