import Mathlib.Data.List.Basic
import SnippetKernel.Program.Namespace
import SnippetKernel.Value.Items

/-! Parts of the heap. A region holds some of the lists, of the dicts and of the functions' code; a value is
within it if all that the value refers to is. Work on values within a region stays within it, as every new cell
is inside. -/
namespace SnippetKernel

structure Region where
  lists : Nat → Prop
  dicts : Nat → Prop
  codes : Nat → Prop

/-- The whole heap. -/
def Region.whole : Region := ⟨fun _ => True, fun _ => True, fun _ => True⟩

namespace Value

mutual

def Within (R : Region) : Value → Prop
  | list ref | listMethod ref _ => R.lists ref
  | dict ref | dictMethod ref _ => R.dicts ref
  | tuple _ items | tupleMethod _ items _ => AllWithin R items
  | function _ _ code defaults => R.codes code ∧ DefaultsWithin R defaults
  | _ => True

def AllWithin (R : Region) : List Value → Prop
  | [] => True
  | v :: rest => v.Within R ∧ AllWithin R rest

def DefaultsWithin (R : Region) : List (Option Value) → Prop
  | [] => True
  | Option.none :: rest => DefaultsWithin R rest
  | some v :: rest => v.Within R ∧ DefaultsWithin R rest

end

variable {R : Region}

theorem allWithin_iff {items : List Value} : AllWithin R items ↔ ∀ v ∈ items, v.Within R := by
  induction items with
  | nil => simp [AllWithin]
  | cons v rest ih => simp [AllWithin, ih]

theorem defaultsWithin_iff {defaults : List (Option Value)} :
    DefaultsWithin R defaults ↔ ∀ v, some v ∈ defaults → v.Within R := by
  induction defaults with
  | nil => simp [DefaultsWithin]
  | cons first rest ih =>
    cases first with
    | none => simp [DefaultsWithin, ih]
    | some v => simp [DefaultsWithin, ih]

@[simp] theorem within_none : none.Within R := trivial

@[simp] theorem within_bool (b : Bool) : (bool b).Within R := trivial

@[simp] theorem within_int (i : Int64) : (int i).Within R := trivial

@[simp] theorem within_float (d : Double) : (float d).Within R := trivial

@[simp] theorem within_str (text : String) : (str text).Within R := trivial

@[simp] theorem within_range (r : Range) : (range r).Within R := trivial

@[simp] theorem within_type (t : ValueType) : (type t).Within R := trivial

@[simp] theorem within_module (m : Module) : (module m).Within R := trivial

@[simp] theorem within_builtin (b : Builtin) : (builtin b).Within R := trivial

@[simp] theorem within_exception (id : Nat) (e : Exception) : (exception id e).Within R := trivial

theorem within_tuple {id : Nat} {items : List Value} : (tuple id items).Within R ↔ ∀ v ∈ items, v.Within R :=
  allWithin_iff

mutual

/-- Everything is within the whole heap. -/
theorem within_whole (v : Value) : v.Within .whole := by
  match v with
  | tuple _ items => exact allWithin_whole items
  | tupleMethod _ items _ => exact allWithin_whole items
  | function _ _ _ defaults => exact ⟨trivial, defaultsWithin_whole defaults⟩
  | list _ | listMethod .. | dict _ | dictMethod .. => trivial
  | none | bool _ | int _ | float _ | str _ | range _ => trivial
  | builtin _ | type _ | module _ | exception .. => trivial
  | strMethod .. | streamMethod .. | stream _ => trivial

theorem allWithin_whole (items : List Value) : AllWithin .whole items := by
  match items with
  | [] => trivial
  | v :: rest => exact ⟨within_whole v, allWithin_whole rest⟩

theorem defaultsWithin_whole (defaults : List (Option Value)) : DefaultsWithin .whole defaults := by
  match defaults with
  | [] => trivial
  | Option.none :: rest => exact defaultsWithin_whole rest
  | some v :: rest => exact ⟨within_whole v, defaultsWithin_whole rest⟩

end

end Value

/-! ### Dicts -/

/-- The keys and values are within the region. -/
def Dict.Within (R : Region) (d : Dict) : Prop :=
  ∀ key value, some (key, value) ∈ d.entries → key.Within R ∧ value.Within R

namespace Dict

variable {R : Region} {d : Dict}

theorem within_empty : empty.Within R := by
  intro key value mem
  simp [empty] at mem

theorem Within.toList (within : d.Within R) : ∀ entry ∈ d.toList, entry.1.Within R ∧ entry.2.Within R := by
  intro entry mem
  apply within
  simpa [Dict.toList] using mem

theorem Within.find? (within : d.Within R) {k : Key} {v : Value} (found : d.find? k = some v) : v.Within R := by
  simp only [Dict.find?, Option.bind_eq_some_iff, Option.map_eq_some_iff, Option.join_eq_some_iff] at found
  obtain ⟨slot, -, ⟨key, value⟩, stored, rfl⟩ := found
  exact (within key value (Array.mem_of_getElem? stored)).2

theorem Within.put (within : d.Within R) (k : Key) {key value : Value} (key_within : key.Within R)
    (value_within : value.Within R) : (d.put k key value).Within R := by
  intro key' value' mem
  unfold Dict.put at mem
  split at mem
  · next slot _ =>
    obtain ⟨i, inside, same⟩ := Array.mem_iff_getElem.1 mem
    simp only [Array.size_modify] at inside
    simp only [Array.getElem_modify] at same
    split at same
    · cases old : d.entries[i] with
      | none => simp [old] at same
      | some entry =>
        simp only [old, Option.map_some, Option.some.injEq, Prod.mk.injEq] at same
        obtain ⟨rfl, rfl⟩ := same
        exact ⟨(within _ _ (old ▸ Array.getElem_mem inside)).1, value_within⟩
    · exact within _ _ (same ▸ Array.getElem_mem inside)
  · simp only [Array.mem_push, Option.some.injEq, Prod.mk.injEq] at mem
    obtain old | ⟨rfl, rfl⟩ := mem
    · exact within _ _ old
    · exact ⟨key_within, value_within⟩

theorem Within.insert (within : d.Within R) {key value : Value} (key_within : key.Within R)
    (value_within : value.Within R) {d' : Dict} (inserted : d.insert key value = .ok d') : d'.Within R := by
  unfold Dict.insert at inserted
  cases hashed : key.key with
  | error e =>
    rw [hashed] at inserted
    cases inserted
  | ok k =>
    rw [hashed] at inserted
    cases inserted
    exact within.put k key_within value_within

theorem Within.erase (within : d.Within R) (k : Key) : (d.erase k).Within R := by
  unfold Dict.erase
  split
  · exact within
  · next slot _ =>
    have rest : ∀ key value, some (key, value) ∈ d.entries.modify slot (fun _ => none) →
        key.Within R ∧ value.Within R := by
      intro key value mem
      obtain ⟨i, inside, same⟩ := Array.mem_iff_getElem.1 mem
      simp only [Array.size_modify] at inside
      simp only [Array.getElem_modify] at same
      split at same
      · cases same
      · exact within _ _ (same ▸ Array.getElem_mem inside)
    simp only
    split
    · intro key value mem
      simp only [compact, Array.mem_filter] at mem
      exact rest key value mem.1
    · exact rest

end Dict

/-! ### Namespaces -/

/-- The values that are bound are within the region. -/
def Namespace.Within (R : Region) (n : Namespace Value) : Prop := ∀ entry ∈ n.entries, entry.2.Within R

namespace Namespace

variable {R : Region} {n : Namespace Value}

theorem Within.find? (within : n.Within R) {name : String} {v : Value} (found : n.find? name = some v) :
    v.Within R := by
  obtain ⟨before, after, split, -⟩ := List.lookup_eq_some_iff.1 found
  exact within (name, v) (by simp [split])

theorem mem_setIn {α : Type} {name : String} {value : α} {entries : List (String × α)} {entry : String × α}
    (mem : entry ∈ setIn name value entries) : entry = (name, value) ∨ entry ∈ entries := by
  induction entries with
  | nil => simpa [setIn] using mem
  | cons first rest ih =>
    unfold setIn at mem
    split at mem
    · obtain rfl | mem := List.mem_cons.1 mem
      · exact .inl rfl
      · exact .inr (.tail _ mem)
    · obtain rfl | mem := List.mem_cons.1 mem
      · exact .inr List.mem_cons_self
      · exact (ih mem).imp_right (.tail _)

theorem Within.set (within : n.Within R) {name : String} {v : Value} (inside : v.Within R) :
    (n.set name v).Within R := by
  intro entry mem
  obtain rfl | mem := mem_setIn mem
  · exact inside
  · exact within entry mem

theorem Within.remove (within : n.Within R) (name : String) : (n.remove name).Within R :=
  fun entry mem => within entry (List.mem_of_mem_filter mem)

end Namespace

/-! ### Cells -/

/-- What the cells of the region hold is within it, and so is every cell that does not exist yet. -/
structure Cells.Within (R : Region) (h : Cells) : Prop where
  list : ∀ ref, R.lists ref → ∀ v ∈ h.list ref, v.Within R
  dict : ∀ ref, R.dicts ref → (h.dict ref).Within R
  newLists : ∀ ref, h.lists.size ≤ ref → R.lists ref
  newDicts : ∀ ref, h.dicts.size ≤ ref → R.dicts ref

namespace Cells

variable {R : Region} {h : Cells}

theorem within_whole (h : Cells) : h.Within .whole :=
  ⟨fun _ _ v _ => v.within_whole, fun _ _ key value _ => ⟨key.within_whole, value.within_whole⟩,
    fun _ _ => trivial, fun _ _ => trivial⟩

theorem Within.pushList (within : h.Within R) {items : Array Value} (inside : ∀ v ∈ items, v.Within R) :
    ({ h with lists := h.lists.push items } : Cells).Within R := by
  constructor
  · intro ref here v mem
    simp only [Cells.list, Array.getElem?_push] at mem
    split at mem
    · exact inside v mem
    · exact within.list ref here v mem
  · exact within.dict
  · intro ref new
    simp only [Array.size_push] at new
    exact within.newLists ref (by omega)
  · exact within.newDicts

theorem Within.pushDict (within : h.Within R) {d : Dict} (inside : d.Within R) :
    ({ h with dicts := h.dicts.push d } : Cells).Within R := by
  constructor
  · exact within.list
  · intro ref here
    simp only [Cells.dict, Array.getElem?_push]
    split
    · exact inside
    · exact within.dict ref here
  · exact within.newLists
  · intro ref new
    simp only [Array.size_push] at new
    exact within.newDicts ref (by omega)

theorem Within.modifyList (within : h.Within R) {ref : Nat} {change : Array Value → Array Value}
    (inside : ∀ items : Array Value, (∀ v ∈ items, v.Within R) → ∀ v ∈ change items, v.Within R)
    (here : R.lists ref) : ({ h with lists := h.lists.modify ref change } : Cells).Within R := by
  constructor
  · intro other here' v mem
    simp only [Cells.list, Array.getElem?_modify] at mem
    split at mem
    · next same =>
      subst same
      cases old : h.lists[ref]? with
      | none => simp [old] at mem
      | some items =>
        simp only [old, Option.map_some, Option.getD_some] at mem
        refine inside items (fun w among => within.list ref here w ?_) v mem
        simpa [Cells.list, old] using among
    · exact within.list other here' v mem
  · exact within.dict
  · intro other new
    simp only [Array.size_modify] at new
    exact within.newLists other new
  · exact within.newDicts

theorem Within.modifyDict (within : h.Within R) {ref : Nat} {change : Dict → Dict}
    (inside : ∀ d : Dict, d.Within R → (change d).Within R) (here : R.dicts ref) :
    ({ h with dicts := h.dicts.modify ref change } : Cells).Within R := by
  constructor
  · exact within.list
  · intro other here'
    simp only [Cells.dict, Array.getElem?_modify]
    split
    · next same =>
      subst same
      cases old : h.dicts[ref]? with
      | none => simpa using Dict.within_empty
      | some d =>
        have before := within.dict ref here
        simp only [Cells.dict, old, Option.getD_some] at before
        exact inside d before
    · exact within.dict other here'
  · exact within.newLists
  · intro other new
    simp only [Array.size_modify] at new
    exact within.newDicts other new

end Cells

/-- The value can be reached from the roots through the cells. -/
inductive Cells.Reachable (h : Cells) (roots : Value → Prop) : Value → Prop
  | root {v : Value} : roots v → Reachable h roots v
  | item {ref : Nat} {v : Value} : Reachable h roots (.list ref) → v ∈ h.list ref → Reachable h roots v
  | ofListMethod {ref : Nat} {m : ListMethod} : Reachable h roots (.listMethod ref m) → Reachable h roots (.list ref)
  | part {id : Nat} {items : List Value} {v : Value} : Reachable h roots (.tuple id items) → v ∈ items →
    Reachable h roots v
  | ofTupleMethod {id : Nat} {items : List Value} {m : TupleMethod} : Reachable h roots (.tupleMethod id items m) →
    Reachable h roots (.tuple id items)
  | key {ref : Nat} {key value : Value} : Reachable h roots (.dict ref) → some (key, value) ∈ (h.dict ref).entries →
    Reachable h roots key
  | value {ref : Nat} {key value : Value} : Reachable h roots (.dict ref) → some (key, value) ∈ (h.dict ref).entries →
    Reachable h roots value
  | ofDictMethod {ref : Nat} {m : DictMethod} : Reachable h roots (.dictMethod ref m) → Reachable h roots (.dict ref)
  | default {id : Nat} {name : String} {code : Nat} {defaults : List (Option Value)} {v : Value} :
    Reachable h roots (.function id name code defaults) → some v ∈ defaults → Reachable h roots v

end SnippetKernel
