import Mathlib.Data.List.InsertIdx
import Mathlib.Data.List.Nodup
import SnippetKernel.Proofs.Value.Selection

/-! Assigning to slices of a list, and deleting them. The changes are stated by the positions of the slice: what is at
them afterwards, and what becomes of the others. -/
namespace SnippetKernel

namespace Slice

variable {s : Slice}

theorem nodup_positions (moves : s.stride ≠ 0) (length : Nat) : (s.positions length).Nodup := by
  have distinct : (walk s.stride (s.limit length) (s.first length)).Nodup := by
    rw [walk_eq_map moves]
    refine List.nodup_range.map fun j k same => ?_
    exact Int.natCast_inj.mp (Int.eq_of_mul_eq_mul_left moves (by simpa using same))
  rw [← natCast_positions] at distinct
  exact distinct.of_map _

theorem length_positions_of_one (one : s.stride = 1) (length : Nat) :
    (s.positions length).length = (s.limit length - s.first length).toNat := by
  rw [positions_of_one one, List.length_range']

theorem stride_eq_one_iff : s.stride = 1 ↔ s.step.getD 1 = 1 := by
  unfold stride
  cases s.step with
  | none => simp
  | some i =>
    simp only [Option.map_some, Option.getD_some]
    exact Int64.toInt_inj (y := 1)

end Slice

namespace Value

variable {items : Array Value} {places : List Nat} {new : List Value} {i : Nat}

theorem spliceStart_of_one {s : Slice} (one : s.stride = 1) (length : Nat) :
    spliceStart s length = (s.first length).toNat := by
  rw [spliceStart, Slice.first, if_pos (by omega)]
  cases s.start with
  | none => rfl
  | some i => rw [← Slice.clamp_eq_bounded (Int.le_refl 0) (Int.natCast_nonneg length)]; rfl

theorem toList_splice (items : Array Value) (first count : Nat) (new : List Value) :
    (splice items first count new).toList = items.toList.take first ++ new ++ items.toList.drop (first + count) := by
  have rest : (items.toList.drop (first + count)).take (items.size - (first + count))
      = items.toList.drop (first + count) := List.take_of_length_le (by simp)
  simp [splice, Array.take_eq_extract, Array.drop_eq_extract, List.extract_eq_take_drop, rest]

/-! ### Items at given places -/

theorem size_setAll (items : Array Value) (places : List Nat) (new : List Value) :
    (setAll items places new).size = items.size := by
  induction places generalizing items new with
  | nil => cases new <;> rfl
  | cons i places ih =>
    cases new with
    | nil => rfl
    | cons x new => rw [setAll, ih, Array.size_setIfInBounds]

theorem setAll_other (other : i ∉ places) : (setAll items places new)[i]? = items[i]? := by
  induction places generalizing items new with
  | nil => cases new <;> rfl
  | cons j places ih =>
    cases new with
    | nil => rfl
    | cons x new =>
      obtain ⟨apart, rest⟩ := not_or.mp (mt List.mem_cons.mpr other)
      rw [setAll, ih rest, Array.getElem?_setIfInBounds_ne (Ne.symm apart)]

theorem setAll_places (distinct : places.Nodup) (inside : ∀ i ∈ places, i < items.size)
    (fits : places.length = new.length) : places.map ((setAll items places new)[·]?) = new.map some := by
  induction places generalizing items new with
  | nil =>
    rw [List.eq_nil_of_length_eq_zero fits.symm]
    rfl
  | cons i places ih =>
    cases new with
    | nil => cases fits
    | cons x new =>
      obtain ⟨apart, rest⟩ := List.nodup_cons.mp distinct
      obtain ⟨here, others⟩ := List.forall_mem_cons.mp inside
      have room : ∀ j ∈ places, j < (items.setIfInBounds i x).size := by
        rw [Array.size_setIfInBounds]
        exact others
      have later := ih rest room (Nat.succ.inj fits)
      rw [List.map_cons, List.map_cons, setAll, later, setAll_other apart, Array.getElem?_setIfInBounds_self,
        if_pos here]

/-! ### Items at all other places -/

theorem getElem?_marked (places : List Nat) (marks : Array Bool) (i : Nat) :
    (places.foldl (fun deleted i => deleted.setIfInBounds i true) marks)[i]?
      = marks[i]?.map fun mark => mark || decide (i ∈ places) := by
  induction places generalizing marks with
  | nil => simp
  | cons j places ih =>
    rw [List.foldl_cons, ih]
    by_cases same : i = j
    · subst same
      by_cases inside : i < marks.size
      · simp [inside]
      · simp [inside]
    · rw [Array.getElem?_setIfInBounds_ne (Ne.symm same)]
      simp [List.mem_cons, same]

theorem toList_marked (places : List Nat) (n : Nat) :
    (places.foldl (fun deleted i => deleted.setIfInBounds i true) (Array.replicate n false)).toList
      = (List.range n).map fun i => decide (i ∈ places) := by
  refine List.ext_getElem? fun i => ?_
  rw [Array.getElem?_toList, getElem?_marked]
  by_cases inside : i < n
  · simp [inside]
  · simp [inside]

/-- What is not marked keeps its order. -/
theorem map_some_unmarked {α : Type} (l : List α) (marked : Nat → Bool) :
    ((l.zip ((List.range l.length).map marked)).filterMap fun (x, gone) => if gone then Option.none else some x).map
        some
      = ((List.range l.length).filter fun i => !marked i).map (l[·]?) := by
  induction l generalizing marked with
  | nil => rfl
  | cons x l ih =>
    have rest := ih (marked ∘ Nat.succ)
    rw [List.length_cons, List.range_succ_eq_map, List.map_cons, List.zip_cons_cons, List.map_map, List.filterMap_cons,
      List.filter_cons, List.filter_map]
    cases gone : marked 0 with
    | true => simpa [Function.comp_def] using rest
    | false => simpa [Function.comp_def] using rest

theorem map_some_deleteAll (items : Array Value) (places : List Nat) :
    (deleteAll items places).toList.map some
      = ((List.range items.size).filter (· ∉ places)).map (items[·]?) := by
  have kept := map_some_unmarked items.toList fun i => decide (i ∈ places)
  rw [← toList_marked, Array.length_toList] at kept
  simpa [deleteAll] using kept

/-- Taking out the first of some indices, when the others are gone already. -/
theorem eraseIdx_filter_range {n : Nat} (inside : i < n) (behind : ∀ j ∈ places, i < j) :
    ((List.range n).filter (· ∉ places)).eraseIdx i = (List.range n).filter (· ∉ i :: places) := by
  have split : List.range n = List.range i ++ i :: (List.range (n - i - 1)).map (i + 1 + ·) := by
    have parts : n = i + (n - i - 1 + 1) := by omega
    conv_lhs => rw [parts, List.range_add, List.range_succ_eq_map]
    simp only [List.map_cons, List.map_map, Nat.add_zero]
    congr 2
    exact List.map_congr_left fun k _ => by
      simp only [Function.comp_apply]
      omega
  have front (others : List Nat) (apart : ∀ j ∈ others, i ≤ j) :
      (List.range i).filter (· ∉ others) = List.range i := by
    refine List.filter_eq_self.mpr fun j mem => ?_
    have before := List.mem_range.mp mem
    simpa using fun other => absurd (apart j other) (by omega)
  have here : i ∉ places := fun other => absurd (behind i other) (by omega)
  have all : ∀ j ∈ i :: places, i ≤ j :=
    List.forall_mem_cons.mpr ⟨Nat.le_refl i, fun j mem => Nat.le_of_lt (behind j mem)⟩
  rw [split, List.filter_append, List.filter_append, front places (List.forall_mem_cons.mp all).2, front _ all,
    List.eraseIdx_append_of_length_le (by simp), List.length_range, Nat.sub_self,
    List.filter_cons_of_pos (by simpa using here), List.filter_cons_of_neg (by simp), List.eraseIdx_cons_zero]
  congr 1
  refine List.filter_congr fun j mem => ?_
  obtain ⟨k, -, rfl⟩ := List.mem_map.mp mem
  have other : i + 1 + k ≠ i := by omega
  simp [other]

theorem deleteAll_of_ascending (ascending : places.Pairwise (· < ·)) (inside : ∀ i ∈ places, i < items.size) :
    deleteAll items places = places.foldr (fun i left => left.eraseIdxIfInBounds i) items := by
  have listed : (places.foldr (fun i left => left.eraseIdxIfInBounds i) items).toList.map some
      = ((List.range items.size).filter (· ∉ places)).map (items[·]?) := by
    induction places with
    | nil =>
      refine List.ext_getElem? fun i => ?_
      by_cases inside : i < items.size
      · simp [inside]
      · simp [inside]
    | cons i places ih =>
      obtain ⟨behind, rest⟩ := List.pairwise_cons.mp ascending
      obtain ⟨here, others⟩ := List.forall_mem_cons.mp inside
      rw [List.foldr_cons, Array.toList_eraseIdxIfInBounds, ← List.eraseIdx_map, ih rest others, List.eraseIdx_map,
        eraseIdx_filter_range here behind]
  have same := (map_some_deleteAll items places).trans listed.symm
  simpa using congrArg (List.filterMap id) same

/-- The order of the places does not matter. -/
theorem deleteAll_perm {others : List Nat} (rearranged : places.Perm others) :
    deleteAll items places = deleteAll items others := by
  have same := map_some_deleteAll items places
  simp only [rearranged.mem_iff] at same
  simpa using congrArg (List.filterMap id) (same.trans (map_some_deleteAll items others).symm)

/-- Deleting at once is sorting the places and deleting one after another, the last one first. -/
theorem deleteAll_eq_erased (distinct : places.Nodup) (inside : ∀ i ∈ places, i < items.size) :
    deleteAll items places
      = (places.mergeSort (· ≤ ·)).foldr (fun i left => left.eraseIdxIfInBounds i) items := by
  have rearranged := List.mergeSort_perm places (· ≤ ·)
  have sorted := @List.pairwise_mergeSort Nat (· ≤ ·) (by simpa using fun _ _ _ => Nat.le_trans)
    (by simpa using Nat.le_total) places
  have ascending : (places.mergeSort (· ≤ ·)).Pairwise (· < ·) :=
    (sorted.and (rearranged.nodup_iff.mpr distinct)).imp fun ⟨le, apart⟩ =>
      Nat.lt_of_le_of_ne (of_decide_eq_true le) apart
  rw [← deleteAll_of_ascending ascending fun i mem => inside i (rearranged.mem_iff.mp mem)]
  exact deleteAll_perm rearranged.symm

/-! ### The changes of a list -/

theorem modifyList_of_inside {h : Cells} {ref : Nat} (inside : ref < h.lists.size)
    (change : Array Value → Array Value) :
    HeapM.modifyList ref change h = .ok () (h.setList ref (change (h.list ref))) := by
  have same : h.lists.modify ref change = h.lists.setIfInBounds ref (change (h.list ref)) := by
    refine Array.ext_getElem? fun i => ?_
    rw [Array.getElem?_modify, Array.getElem?_setIfInBounds]
    split
    · next here =>
      subst here
      simp [Cells.list, inside]
    · rfl
  have steps : HeapM.modifyList ref change h = .ok () { h with lists := h.lists.modify ref change } := rfl
  rw [steps, same]
  rfl

theorem setSlice_list (ref : Nat) (s : Slice) (new : Value) (h : Cells) :
    (list ref).setSlice s new h = (HeapM.ofExcept (new.items h) >>= fun new =>
      HeapM.ofExcept (selected s (h.list ref).size) >>= fun places =>
        if s.step.getD 1 = 1 then
          HeapM.modifyList ref fun items => splice items (spliceStart s (h.list ref).size) places.length new
        else if places.length ≠ new.length then
          throw (.valueError ("attempt to assign sequence of size " ++ toString new.length
            ++ " to extended slice of size " ++ toString places.length))
        else HeapM.modifyList ref fun items => setAll items places new) h :=
  rfl

theorem deleteSlice_list (ref : Nat) (s : Slice) (h : Cells) :
    (list ref).deleteSlice s h = (HeapM.ofExcept (selected s (h.list ref).size) >>= fun places =>
      HeapM.modifyList ref fun items => deleteAll items places) h :=
  rfl

section

variable {h : Cells} {ref : Nat} {s : Slice} {new : Value} {items : List Value}

theorem setSlice_of_items (given : new.items h = .ok items) (moves : s.stride ≠ 0) :
    (list ref).setSlice s new h =
      (if s.step.getD 1 = 1 then
        HeapM.modifyList ref fun old =>
          splice old (spliceStart s (h.list ref).size) (s.positions (h.list ref).size).length items
      else if (s.positions (h.list ref).size).length ≠ items.length then
        throw (.valueError ("attempt to assign sequence of size " ++ toString items.length
          ++ " to extended slice of size " ++ toString (s.positions (h.list ref).size).length))
      else HeapM.modifyList ref fun old => setAll old (s.positions (h.list ref).size) items) h := by
  rw [setSlice_list, given, selected_of_moves moves]
  rfl

/-- Nothing is changed by an assignment that fails. -/
theorem setSlice_of_error {e : Exception} {h' : Cells} (failed : (list ref).setSlice s new h = .error e h') :
    h' = h := by
  rw [setSlice_list] at failed
  cases given : new.items h with
  | error refused =>
    rw [given] at failed
    exact (EStateM.Result.error.inj failed).2.symm
  | ok items =>
    cases found : selected s (h.list ref).size with
    | error zero =>
      rw [given, found] at failed
      exact (EStateM.Result.error.inj failed).2.symm
    | ok places =>
      rw [given, found] at failed
      change (if s.step.getD 1 = 1 then _ else _ : HeapM Unit) h = _ at failed
      split at failed
      · cases failed
      · split at failed
        · exact (EStateM.Result.error.inj failed).2.symm
        · cases failed

/-- Without a step the new items come between what is before the slice and what is behind it. -/
theorem setSlice_of_one (inside : ref < h.lists.size) (given : new.items h = .ok items) (one : s.step.getD 1 = 1) :
    (list ref).setSlice s new h = .ok () (h.setList ref
      ((h.list ref).toList.take (s.first (h.list ref).size).toNat ++ items
        ++ (h.list ref).toList.drop (max (s.first (h.list ref).size) (s.limit (h.list ref).size)).toNat).toArray) := by
  have stride := Slice.stride_eq_one_iff.mpr one
  have limits := Slice.limits_of_pos (s := s) (h.list ref).size (by omega)
  have behind : (s.first (h.list ref).size).toNat
        + (s.limit (h.list ref).size - s.first (h.list ref).size).toNat
      = (max (s.first (h.list ref).size) (s.limit (h.list ref).size)).toNat := by omega
  rw [setSlice_of_items given (by omega), if_pos one, modifyList_of_inside inside, spliceStart_of_one stride,
    Slice.length_positions_of_one stride, ← behind, ← toList_splice, Array.toArray_toList]

/-- With a step there must be one item for each position. -/
theorem setSlice_of_step (inside : ref < h.lists.size) (given : new.items h = .ok items) (moves : s.stride ≠ 0)
    (stepped : s.step.getD 1 ≠ 1) (fits : items.length = (s.positions (h.list ref).size).length) :
    (list ref).setSlice s new h
      = .ok () (h.setList ref (setAll (h.list ref) (s.positions (h.list ref).size) items)) := by
  rw [setSlice_of_items given moves, if_neg stepped, if_neg (not_not_intro fits.symm), modifyList_of_inside inside]

theorem length_of_setSlice (given : new.items h = .ok items) (moves : s.stride ≠ 0) (stepped : s.step.getD 1 ≠ 1)
    {h' : Cells} (stored : (list ref).setSlice s new h = .ok () h') :
    items.length = (s.positions (h.list ref).size).length := by
  rw [setSlice_of_items given moves, if_neg stepped] at stored
  split at stored
  · cases stored
  · next same => exact (not_not.mp same).symm

theorem deleteSlice_of_moves (inside : ref < h.lists.size) (moves : s.stride ≠ 0) :
    (list ref).deleteSlice s h
      = .ok () (h.setList ref (deleteAll (h.list ref) (s.positions (h.list ref).size))) := by
  rw [deleteSlice_list, selected_of_moves moves]
  exact modifyList_of_inside inside _

end

/-- Changing a slice of a list. Without a step the new items come between those before the first bound and those from
the greater bound on. With another step there must be as many items as positions; these then hold the items, in order,
and all others are unchanged. An assignment that fails changes nothing. Deleting leaves exactly the items at the other
positions, in their order. The new items are read before anything is stored, so they may be those of the list itself. -/
theorem slice_changes (h : Cells) (ref : Nat) (inside : ref < h.lists.size) (s : Slice) :
    (∀ (new : Value) (e : Exception) (h' : Cells), (list ref).setSlice s new h = .error e h' → h' = h) ∧
    (list ref).items h = .ok (h.list ref).toList ∧
    (s.step ≠ some 0 → ∃ places, s.indices? (h.list ref).size = some places ∧
      (∀ (new : Value) (items : List Value), new.items h = .ok items →
        (s.step.getD 1 = 1 → (list ref).setSlice s new h = .ok () (h.setList ref
          ((h.list ref).toList.take (s.first (h.list ref).size).toNat ++ items
            ++ (h.list ref).toList.drop
              (max (s.first (h.list ref).size) (s.limit (h.list ref).size)).toNat).toArray)) ∧
        (s.step.getD 1 ≠ 1 →
          ((∃ h', (list ref).setSlice s new h = .ok () h') ↔ items.length = places.length) ∧
          (items.length = places.length → ∃ changed : Array Value,
            (list ref).setSlice s new h = .ok () (h.setList ref changed) ∧
            changed.size = (h.list ref).size ∧
            places.map (changed[·]?) = items.map some ∧
            ∀ i ∉ places, changed[i]? = (h.list ref)[i]?))) ∧
      ∃ left : Array Value, (list ref).deleteSlice s h = .ok () (h.setList ref left) ∧
        left.toList.map some
          = ((List.range (h.list ref).size).filter (· ∉ places)).map ((h.list ref)[·]?)) := by
  refine ⟨fun new e h' => setSlice_of_error, rfl, fun step => ?_⟩
  have moves := Slice.stride_ne_zero_iff.mpr step
  refine ⟨s.positions (h.list ref).size, s.indices?_of_moves moves _, fun new items given => ⟨?_, ?_⟩, ?_⟩
  · exact setSlice_of_one inside given
  · intro stepped
    have stores := setSlice_of_step inside given moves stepped
    refine ⟨⟨fun ⟨h', stored⟩ => length_of_setSlice given moves stepped stored, fun fits => ⟨_, stores fits⟩⟩,
      fun fits => ⟨_, stores fits, size_setAll _ _ _, ?_, fun i other => setAll_other other⟩⟩
    exact setAll_places (Slice.nodup_positions moves _) (fun i => Slice.positions_lt) fits.symm
  · exact ⟨_, deleteSlice_of_moves inside moves, map_some_deleteAll _ _⟩

/-- Two assignments of a list of three items to slices of itself: it is put in the place of its middle item, and it is
turned around. -/
theorem slice_changes_of_itself :
    let h : Cells := ⟨#[#[.int 1, .int 2, .int 3]], #[], 0⟩
    let middle : Slice := ⟨some 1, some 2, Option.none⟩
    let reversed : Slice := ⟨Option.none, Option.none, some (-1)⟩
    0 < h.lists.size ∧ middle.step ≠ some 0 ∧ (list 0).items h = .ok (h.list 0).toList ∧
    (list 0).setSlice middle (list 0) h
      = .ok () (h.setList 0 #[.int 1, .int 1, .int 2, .int 3, .int 3]) ∧
    ∃ changed : Array Value, (list 0).setSlice reversed (list 0) h = .ok () (h.setList 0 changed) ∧
      [2, 1, 0].map (changed[·]?) = [some (.int 1), some (.int 2), some (.int 3)] := by
  intro h middle reversed
  have inside : 0 < h.lists.size := by decide
  obtain ⟨-, own, without_step⟩ := slice_changes h 0 inside middle
  obtain ⟨_, -, assigned, -⟩ := without_step (by decide)
  have replaced := (assigned (list 0) _ own).1 (by decide)
  obtain ⟨-, -, with_step⟩ := slice_changes h 0 inside reversed
  obtain ⟨places, chosen, exchanged, -⟩ := with_step (by decide)
  have backwards : reversed.indices? (h.list 0).size = some [2, 1, 0] := by decide
  obtain rfl : [2, 1, 0] = places := Option.some.inj (backwards.symm.trans chosen)
  obtain ⟨changed, stored, -, held, -⟩ := ((exchanged (list 0) _ own).2 (by decide)).2 rfl
  exact ⟨inside, by decide, own, replaced, changed, stored, held⟩

end Value

end SnippetKernel
