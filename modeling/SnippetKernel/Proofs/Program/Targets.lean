import SnippetKernel.Proofs.Program.Data
import SnippetKernel.Proofs.Value.SliceChanges

/-! Targets that a statement can carry out. The object of a subscript must be a list or a dict, and must have the place
that the subscript means; then nothing else can fail once the parts of the target have been evaluated. -/
namespace SnippetKernel

open Source

namespace Value

/-- An item can be stored at the index. -/
def TakesItem (h : Cells) (v index : Value) : Prop :=
  match v with
  | .list ref => ∃ i, placeOf index (h.list ref).size "list" = .ok i
  | .dict _ => ∃ k, index.key = .ok k
  | _ => False

/-- There is an item at the index. -/
def HasItem (h : Cells) (v index : Value) : Prop :=
  match v with
  | .list ref => ∃ i, placeOf index (h.list ref).size "list" = .ok i
  | .dict ref => ∃ k, index.key = .ok k ∧ (h.dict ref).index.contains k = true
  | _ => False

/-- The items of the new value can replace the slice. Only without a step may their number be another one. -/
def TakesSlice (h : Cells) (v : Value) (s : Slice) (new : Value) : Prop :=
  match v with
  | .list ref => ∃ places items, selected s (h.list ref).size = .ok places ∧ new.items h = .ok items ∧
      (s.step.getD 1 = 1 ∨ places.length = items.length)
  | _ => False

def HasSlice (v : Value) (s : Slice) : Prop :=
  match v with
  | .list _ => s.step ≠ some 0
  | _ => False

variable {h : Cells} {v index : Value} {s : Slice}

theorem setItem_of_takes (takes : v.TakesItem h index) (x : Value) : ∃ h', v.setItem index x h = .ok () h' := by
  cases v with
  | list ref =>
    obtain ⟨i, found⟩ := takes
    have steps : (list ref).setItem index x h =
        (HeapM.ofExcept (placeOf index (h.list ref).size "list") >>= fun i =>
          HeapM.modifyList ref (·.setIfInBounds i x)) h := rfl
    rw [steps, found]
    exact ⟨_, rfl⟩
  | dict ref =>
    obtain ⟨k, found⟩ := takes
    have steps : (dict ref).setItem index x h =
        (HeapM.ofExcept index.key >>= fun k => HeapM.modifyDict ref (·.put k index x)) h := rfl
    rw [steps, found]
    exact ⟨_, rfl⟩
  | _ => exact takes.elim

theorem deleteItem_of_has (has : v.HasItem h index) : ∃ h', v.deleteItem index h = .ok () h' := by
  cases v with
  | list ref =>
    obtain ⟨i, found⟩ := has
    have steps : (list ref).deleteItem index h =
        (HeapM.ofExcept (placeOf index (h.list ref).size "list") >>= fun i =>
          HeapM.modifyList ref (·.eraseIdxIfInBounds i)) h := rfl
    rw [steps, found]
    exact ⟨_, rfl⟩
  | dict ref =>
    obtain ⟨k, found, there⟩ := has
    have steps : (dict ref).deleteItem index h = (HeapM.ofExcept index.key >>= fun k =>
        if (h.dict ref).index.contains k then HeapM.modifyDict ref (·.erase k)
        else HeapM.raise .key (index.repr h)) h := rfl
    have present : (HeapM.ofExcept (.ok k) >>= fun k =>
        if (h.dict ref).index.contains k then HeapM.modifyDict ref (·.erase k)
        else HeapM.raise .key (index.repr h)) h = HeapM.modifyDict ref (·.erase k) h := by
      change (if (h.dict ref).index.contains k then HeapM.modifyDict ref (·.erase k)
        else HeapM.raise .key (index.repr h)) h = _
      rw [if_pos there]
    rw [steps, found, present]
    exact ⟨_, rfl⟩
  | _ => exact has.elim

theorem setSlice_of_takes {new : Value} (takes : v.TakesSlice h s new) : ∃ h', v.setSlice s new h = .ok () h' := by
  cases v with
  | list ref =>
    obtain ⟨places, items, found, given, fits⟩ := takes
    rw [setSlice_list, given, found]
    change ∃ h', (if s.step.getD 1 = 1 then _ else _ : HeapM Unit) h = .ok () h'
    split
    · exact ⟨_, rfl⟩
    · next stepped =>
      rw [if_neg (not_not_intro (fits.resolve_left stepped))]
      exact ⟨_, rfl⟩
  | _ => exact takes.elim

theorem selected_of_step (step : s.step ≠ some 0) (length : Nat) : ∃ places, selected s length = .ok places :=
  ⟨_, selected_of_moves (Slice.stride_ne_zero_iff.mpr step) length⟩

theorem deleteSlice_of_has (has : v.HasSlice s) (h : Cells) : ∃ h', v.deleteSlice s h = .ok () h' := by
  cases v with
  | list ref =>
    obtain ⟨places, found⟩ := selected_of_step has (h.list ref).size
    rw [deleteSlice_list, found]
    exact ⟨_, rfl⟩
  | _ => exact has.elim

end Value

/-- As many items as there are targets. -/
theorem Run.unpack_of_items {v : Value} {m : Machine} {items : List Value}
    (given : v.items m.heap.toCells = .ok items) : Run.ofWork (Work.unpack v items.length) m = .ok items m := by
  obtain ⟨names, ⟨cells, codes⟩, frames, handling, writes, clock⟩ := m
  have steps (r : Reach) (read : v.items r.cells = .ok items) : Work.unpack v items.length r = .ok items r := by
    have first : Work.items v r = .ok items r := by simp only [Work.items, Work.readingExcept, read]
    change EStateM.bind (Work.items v) _ r = _
    rw [EStateM.bind, first]
    simp
    rfl
  simp only [Run.ofWork]
  rw [steps ⟨cells, clock, #[]⟩ given]
  simp

namespace Eval

section

variable (call : ValueCaller) (object index : Expr) (start stop step : Option Expr)

/-- The object and the index of a subscript. -/
def itemOperands : Run (Value × Value) := do
  let object ← expr call object
  let index ← expr call index
  return (object, index)

/-- The object and the bounds of a slice. -/
def sliceOperands : Run (Value × Slice) := do
  let object ← expr call object
  let start ← bound call start
  let stop ← bound call stop
  let step ← bound call step
  return (object, ⟨start, stop, step⟩)

theorem assign_slice (v : Value) : assign call (.index object (.slice start stop step)) v = (do
    let (object, s) ← sliceOperands call object start stop step
    Work.onHeap (object.setSlice s v)) := by
  simp [assign, sliceOperands]

theorem delete_slice : delete call (.index object (.slice start stop step)) = (do
    let (object, s) ← sliceOperands call object start stop step
    Work.onHeap (object.deleteSlice s)) := by
  simp [delete, sliceOperands]

end

variable {call : ValueCaller}

mutual

/-- The value can be assigned to the target. No object has attributes that can be assigned to. -/
def Suited (call : ValueCaller) : Target → Value → Machine → Prop
  | .name _, _, _ => True
  | .index object (.slice start stop step), v, m => ∃ o s n,
    sliceOperands call object start stop step m = .ok (o, s) n ∧ o.TakesSlice n.heap.toCells s v
  | .index object index, _, m => ∃ o i n,
    itemOperands call object index m = .ok (o, i) n ∧ o.TakesItem n.heap.toCells i
  | .attr .., _, _ => False
  | .unpack targets, v, m => ∃ items,
    v.items m.heap.toCells = .ok items ∧ items.length = targets.length ∧ SuitedAll call targets items m

def SuitedAll (call : ValueCaller) : List Target → List Value → Machine → Prop
  | t :: rest, v :: vs, m => Suited call t v m ∧ ∀ n, assign call t v m = .ok () n → SuitedAll call rest vs n
  | _, _, _ => True

end

theorem assign_of_takes {object index : Expr} {o i v : Value} {m n : Machine}
    (no_slice : ∀ start stop step, index ≠ .slice start stop step)
    (evaluated : itemOperands call object index m = .ok (o, i) n) (takes : o.TakesItem n.heap.toCells i) :
    ∃ p, assign call (.index object index) v m = .ok () p := by
  have steps : assign call (.index object index) v = (do
      let operands ← itemOperands call object index
      Work.onHeap (operands.1.setItem operands.2 v)) := by
    simp [assign_item no_slice, itemOperands]
  obtain ⟨cells, stored⟩ := Value.setItem_of_takes takes v
  rw [steps, Run.bind_of_ok evaluated]
  exact ⟨_, Run.ofWork_onHeap stored⟩

mutual

theorem assign_of_suited (t : Target) {v : Value} {m : Machine} (suited : Suited call t v m) :
    ∃ n, assign call t v m = .ok () n := by
  cases t with
  | name id =>
    rw [assign]
    exact ⟨_, rfl⟩
  | index object index =>
    cases index with
    | slice start stop step =>
      obtain ⟨o, s, n, evaluated, takes⟩ := suited
      obtain ⟨cells, stored⟩ := Value.setSlice_of_takes takes
      rw [assign_slice, Run.bind_of_ok evaluated]
      exact ⟨_, Run.ofWork_onHeap stored⟩
    | _ =>
      obtain ⟨o, i, n, evaluated, takes⟩ := suited
      exact assign_of_takes nofun evaluated takes
  | attr object name => exact suited.elim
  | unpack targets =>
    obtain ⟨items, given, same, each⟩ := suited
    rw [assign, ← same]
    change ∃ n, (Run.ofWork (Work.unpack v items.length) >>= assignAll call targets) m = .ok () n
    rw [Run.bind_of_ok (Run.unpack_of_items given)]
    exact assignAll_of_suited targets items each

theorem assignAll_of_suited (targets : List Target) (vs : List Value) {m : Machine}
    (suited : SuitedAll call targets vs m) : ∃ n, assignAll call targets vs m = .ok () n := by
  match targets, vs with
  | [], _ =>
    rw [assignAll]
    exact ⟨m, rfl⟩
    nofun
  | _ :: _, [] =>
    rw [assignAll]
    exact ⟨m, rfl⟩
    nofun
  | t :: rest, v :: vs =>
    obtain ⟨first, others⟩ := suited
    obtain ⟨n, assigned⟩ := assign_of_suited t first
    rw [assignAll, Run.bind_of_ok assigned]
    exact assignAll_of_suited rest vs (others n assigned)

end

mutual

/-- What the target stands for can be deleted. -/
def Removable (call : ValueCaller) : Target → Machine → Prop
  | .name id, m => (m.binding? id).isSome
  | .index object (.slice start stop step), m => ∃ o s n,
    sliceOperands call object start stop step m = .ok (o, s) n ∧ o.HasSlice s
  | .index object index, m => ∃ o i n,
    itemOperands call object index m = .ok (o, i) n ∧ o.HasItem n.heap.toCells i
  | .attr .., _ => False
  | .unpack targets, m => RemovableAll call targets m

def RemovableAll (call : ValueCaller) : List Target → Machine → Prop
  | t :: rest, m => Removable call t m ∧ ∀ n, delete call t m = .ok () n → RemovableAll call rest n
  | [], _ => True

end

theorem delete_of_has {object index : Expr} {o i : Value} {m n : Machine}
    (no_slice : ∀ start stop step, index ≠ .slice start stop step)
    (evaluated : itemOperands call object index m = .ok (o, i) n) (has : o.HasItem n.heap.toCells i) :
    ∃ p, delete call (.index object index) m = .ok () p := by
  have steps : delete call (.index object index) = (do
      let operands ← itemOperands call object index
      Work.onHeap (operands.1.deleteItem operands.2)) := by
    simp [delete_item no_slice, itemOperands]
  obtain ⟨cells, removed⟩ := Value.deleteItem_of_has has
  rw [steps, Run.bind_of_ok evaluated]
  exact ⟨_, Run.ofWork_onHeap removed⟩

mutual

theorem delete_of_removable (t : Target) {m : Machine} (removable : Removable call t m) :
    ∃ n, delete call t m = .ok () n := by
  cases t with
  | name id =>
    obtain ⟨v, bound⟩ := Option.isSome_iff_exists.1 removable
    have steps : delete call (.name id) m = (match m.binding? id with
      | some _ => modify (·.unbind id)
      | none => Run.ofWork (Work.raise .name ("name '" ++ id ++ "' is not defined")) : Run Unit) m := by
      rw [delete]
      rfl
    rw [steps, bound]
    exact ⟨_, rfl⟩
  | index object index =>
    cases index with
    | slice start stop step =>
      obtain ⟨o, s, n, evaluated, has⟩ := removable
      obtain ⟨cells, removed⟩ := Value.deleteSlice_of_has has n.heap.toCells
      rw [delete_slice, Run.bind_of_ok evaluated]
      exact ⟨_, Run.ofWork_onHeap removed⟩
    | _ =>
      obtain ⟨o, i, n, evaluated, has⟩ := removable
      exact delete_of_has nofun evaluated has
  | attr object name => exact removable.elim
  | unpack targets =>
    rw [delete]
    exact deleteAll_of_removable targets removable

theorem deleteAll_of_removable (targets : List Target) {m : Machine} (removable : RemovableAll call targets m) :
    ∃ n, deleteAll call targets m = .ok () n := by
  cases targets with
  | nil =>
    rw [deleteAll]
    exact ⟨m, rfl⟩
  | cons t rest =>
    obtain ⟨first, others⟩ := removable
    obtain ⟨n, deleted⟩ := delete_of_removable t first
    rw [deleteAll, Run.bind_of_ok deleted]
    exact deleteAll_of_removable rest (others n deleted)

end

/-- The operation works on what the target stands for and the value, and the target takes the result. -/
def Updatable (call : ValueCaller) (op : BinaryOp) (value : Expr) : Target → Machine → Prop
  | .name id, m => ∃ current v new n p q,
    Run.lookup id m = .ok current n ∧ expr call value n = .ok v p ∧ inPlace op current v p = .ok new q
  | .index _ (.slice ..), _ => False
  | .index object index, m => ∃ o i current v new n p q,
    itemOperands call object index m = .ok (o, i) n ∧ o.item n.heap.toCells i = .ok current ∧
      expr call value n = .ok v p ∧ inPlace op current v p = .ok new q ∧ o.TakesItem q.heap.toCells i
  | .attr .., _ | .unpack _, _ => False

theorem augAssign_of_updatable {op : BinaryOp} {value : Expr} {t : Target} {m : Machine}
    (updatable : Updatable call op value t m) : ∃ n, augAssign call op value t m = .ok () n := by
  cases t with
  | name id =>
    obtain ⟨current, v, new, n, p, q, found, evaluated, updated⟩ := updatable
    rw [augAssign, Run.bind_of_ok found, Run.bind_of_ok evaluated, Run.bind_of_ok updated]
    exact ⟨_, rfl⟩
  | index object index =>
    have no_slice (start stop step : Option Expr) : index ≠ .slice start stop step := by
      rintro rfl
      exact updatable
    obtain ⟨o, i, current, v, new, n, p, q, operands, found, evaluated, updated, takes⟩ :
        ∃ o i current v new n p q, itemOperands call object index m = .ok (o, i) n ∧
          o.item n.heap.toCells i = .ok current ∧ expr call value n = .ok v p ∧
          inPlace op current v p = .ok new q ∧ o.TakesItem q.heap.toCells i := by
      cases index with
      | slice => exact updatable.elim
      | _ => exact updatable
    have steps : augAssign call op value (.index object index) = (do
        let operands ← itemOperands call object index
        let current ← Work.readingExcept fun h => operands.1.item h operands.2
        let v ← expr call value
        let new ← inPlace op current v
        Work.onHeap (operands.1.setItem operands.2 new)) := by
      simp [augAssign, itemOperands]
    obtain ⟨cells, stored⟩ := Value.setItem_of_takes takes new
    rw [steps, Run.bind_of_ok operands]
    apply Exists.intro
    apply (Run.bind_of_ok (Run.ofWork_readingExcept found)).trans
    rw [Run.bind_of_ok evaluated, Run.bind_of_ok updated]
    exact Run.ofWork_onHeap stored
  | attr | unpack => exact updatable.elim

end Eval

end SnippetKernel
