import Mathlib.Data.List.Basic
import SnippetKernel.Program.Namespace
import SnippetKernel.Value.Items
import SnippetKernel.Value.FormatSpec

/-! The same values on a larger heap. What is on a heap may have been put behind what was left on it before; then
each reference is larger by the number of cells that were left, and each number by those that were taken. Nothing
else of a value depends on that: its text, its type, its key, and how it compares with others stay the same. -/
namespace SnippetKernel

namespace Value

mutual

/-- The value, when the heap is behind what was left. -/
def shift (left : Heap) : Value → Value
  | list ref => list (left.lists.size + ref)
  | dict ref => dict (left.dicts.size + ref)
  | tuple id items => tuple (left.fresh + id) (shiftAll left items)
  | function id name code defaults =>
    function (left.fresh + id) name (left.codes.size + code) (shiftDefaults left defaults)
  | listMethod ref m => listMethod (left.lists.size + ref) m
  | dictMethod ref m => dictMethod (left.dicts.size + ref) m
  | tupleMethod id items m => tupleMethod (left.fresh + id) (shiftAll left items) m
  | exception id e => exception (left.fresh + id) e
  | v => v

def shiftAll (left : Heap) : List Value → List Value
  | [] => []
  | v :: rest => v.shift left :: shiftAll left rest

def shiftDefaults (left : Heap) : List (Option Value) → List (Option Value)
  | [] => []
  | Option.none :: rest => Option.none :: shiftDefaults left rest
  | some v :: rest => some (v.shift left) :: shiftDefaults left rest

end

variable {left : Heap}

theorem shiftAll_eq (items : List Value) : shiftAll left items = items.map (shift left) := by
  induction items with
  | nil => rfl
  | cons v rest ih => exact congrArg (v.shift left :: ·) ih

theorem shiftDefaults_eq (defaults : List (Option Value)) :
    shiftDefaults left defaults = defaults.map (·.map (shift left)) := by
  induction defaults with
  | nil => rfl
  | cons first rest ih =>
    cases first with
    | none => exact congrArg (Option.none :: ·) ih
    | some v => exact congrArg (some (v.shift left) :: ·) ih

@[simp] theorem shift_none : none.shift left = none := rfl

@[simp] theorem shift_bool (b : Bool) : (bool b).shift left = bool b := rfl

@[simp] theorem shift_int (i : Int64) : (int i).shift left = int i := rfl

@[simp] theorem shift_float (d : Double) : (float d).shift left = float d := rfl

@[simp] theorem shift_str (text : String) : (str text).shift left = str text := rfl

@[simp] theorem shift_range (r : Range) : (range r).shift left = range r := rfl

@[simp] theorem shift_type (t : ValueType) : (type t).shift left = type t := rfl

@[simp] theorem shift_module (m : Module) : (module m).shift left = module m := rfl

@[simp] theorem shift_builtin (b : Builtin) : (builtin b).shift left = builtin b := rfl

@[simp] theorem shift_stream (s : Stream) : (stream s).shift left = stream s := rfl

@[simp] theorem shift_strMethod (text : String) (m : StrMethod) :
    (strMethod text m).shift left = strMethod text m := rfl

@[simp] theorem shift_streamMethod (s : Stream) (m : StreamMethod) :
    (streamMethod s m).shift left = streamMethod s m := rfl

@[simp] theorem shift_list (ref : Nat) : (list ref).shift left = list (left.lists.size + ref) := rfl

@[simp] theorem shift_dict (ref : Nat) : (dict ref).shift left = dict (left.dicts.size + ref) := rfl

@[simp] theorem shift_listMethod (ref : Nat) (m : ListMethod) :
    (listMethod ref m).shift left = listMethod (left.lists.size + ref) m := rfl

@[simp] theorem shift_dictMethod (ref : Nat) (m : DictMethod) :
    (dictMethod ref m).shift left = dictMethod (left.dicts.size + ref) m := rfl

@[simp] theorem shift_exception (id : Nat) (e : Exception) :
    (exception id e).shift left = exception (left.fresh + id) e := rfl

@[simp] theorem shift_tuple (id : Nat) (items : List Value) :
    (tuple id items).shift left = tuple (left.fresh + id) (items.map (shift left)) :=
  congrArg (tuple _) (shiftAll_eq items)

@[simp] theorem shift_tupleMethod (id : Nat) (items : List Value) (m : TupleMethod) :
    (tupleMethod id items m).shift left = tupleMethod (left.fresh + id) (items.map (shift left)) m :=
  congrArg (tupleMethod _ · m) (shiftAll_eq items)

@[simp] theorem shift_function (id : Nat) (name : String) (code : Nat) (defaults : List (Option Value)) :
    (function id name code defaults).shift left =
      function (left.fresh + id) name (left.codes.size + code) (defaults.map (·.map (shift left))) :=
  congrArg (function _ name _) (shiftDefaults_eq defaults)

/-! ### What does not depend on the heap -/

theorem shift_ofLiteral (literal : Source.Literal) : (ofLiteral literal).shift left = ofLiteral literal := by
  cases literal <;> rfl

@[simp] theorem valueType_shift (v : Value) : (v.shift left).valueType = v.valueType := by
  cases v <;> rfl

@[simp] theorem typeName_shift (v : Value) : (v.shift left).typeName = v.typeName :=
  congrArg ValueType.text v.valueType_shift

@[simp] theorem int?_shift (v : Value) : (v.shift left).int? = v.int? := by
  cases v <;> rfl

@[simp] theorem number?_shift (v : Value) : (v.shift left).number? = v.number? := by
  cases v <;> rfl

@[simp] theorem scalarText_shift (v : Value) : (v.shift left).scalarText = v.scalarText := by
  cases v <;> rfl

theorem same_shift (a b : Value) : (a.shift left).same (b.shift left) = a.same b := by
  cases a <;> cases b <;> simp [same]

mutual

theorem key_shift (v : Value) : (v.shift left).key = v.key := by
  match v with
  | tuple id items =>
    have same := keys_shiftAll items
    change (match keys (shiftAll left items) with
      | .ok parts => Except.ok (KeyPart.tuple (shiftAll left items).length :: parts)
      | .error e => Except.error e) = _
    rw [same, shiftAll_eq, List.length_map]
    rfl
  | none | bool _ | int _ | float _ | str _ | range _ => rfl
  | list _ | listMethod .. | dict _ | dictMethod .. | tupleMethod .. | function .. => rfl
  | builtin _ | type _ | module _ | exception .. => rfl
  | strMethod .. | streamMethod .. | stream _ => rfl

theorem keys_shiftAll (items : List Value) : keys (shiftAll left items) = keys items := by
  match items with
  | [] => rfl
  | v :: rest =>
    have first := key_shift v
    have others := keys_shiftAll rest
    change (match (v.shift left).key with
      | .error e => Except.error e
      | .ok parts =>
        match keys (shiftAll left rest) with
        | .ok more => Except.ok (parts ++ more)
        | .error e => Except.error e) = _
    rw [first, others]
    rfl

end

attribute [simp] key_shift

end Value

/-! ### Dicts -/

/-- An entry of a dict, behind what was left. -/
def shiftEntry (left : Heap) (entry : Value × Value) : Value × Value := (entry.1.shift left, entry.2.shift left)

def Dict.shift (left : Heap) (d : Dict) : Dict := { d with entries := d.entries.map (·.map (shiftEntry left)) }

namespace Dict

variable {left : Heap} {d : Dict}

@[simp] theorem shift_empty : Dict.empty.shift left = .empty := by simp [shift, empty]

@[simp] theorem size_shift : (d.shift left).size = d.size := rfl

@[simp] theorem index_shift : (d.shift left).index = d.index := rfl

@[simp] theorem toList_shift : (d.shift left).toList = d.toList.map (shiftEntry left) := by
  simp only [toList, shift, Array.toList_map, List.filterMap_map, List.map_filterMap]
  rfl

@[simp] theorem keys_shift : (d.shift left).keys = d.keys.map (Value.shift left) := by
  simp [keys, shiftEntry]

@[simp] theorem values_shift : (d.shift left).values = d.values.map (Value.shift left) := by
  simp [values, shiftEntry]

theorem find?_shift (k : Key) : (d.shift left).find? k = (d.find? k).map (Value.shift left) := by
  simp only [find?, index_shift]
  cases d.index[k]? with
  | none => rfl
  | some slot =>
    simp only [shift, Option.bind_some, Array.getElem?_map]
    obtain _ | _ | entry := d.entries[slot]? <;> rfl

theorem get?_shift (key : Value) :
    (d.shift left).get? (key.shift left) = (d.get? key).map (·.map (Value.shift left)) := by
  simp only [get?, Value.key_shift]
  cases key.key with
  | error e => rfl
  | ok k => exact congrArg Except.ok (find?_shift k)

theorem contains_shift (key : Value) : (d.shift left).contains (key.shift left) = d.contains key := by
  simp only [contains, Value.key_shift]
  rfl

theorem put_shift (k : Key) (key value : Value) :
    (d.shift left).put k (key.shift left) (value.shift left) = (d.put k key value).shift left := by
  simp only [put, index_shift]
  cases d.index[k]? with
  | none => simp [shift, shiftEntry]
  | some slot =>
    simp only [shift, mk.injEq, and_self, and_true]
    apply Array.ext_getElem?
    intro i
    simp only [Array.getElem?_map, Array.getElem?_modify]
    split
    · obtain _ | _ | entry := d.entries[i]? <;> rfl
    · rfl

theorem insert_shift (key value : Value) :
    (d.shift left).insert (key.shift left) (value.shift left) = (d.insert key value).map (shift left) := by
  simp only [insert, Value.key_shift]
  cases key.key with
  | error e => rfl
  | ok k => exact congrArg Except.ok (put_shift k key value)

theorem indexOf_shift (entries : Array (Option (Value × Value))) :
    indexOf (entries.map (·.map (shiftEntry left))) = indexOf entries := by
  unfold indexOf
  rw [Array.foldl_map]
  congr 2
  funext (index, slot) entry
  cases entry with
  | none => rfl
  | some entry => simp [shiftEntry]

theorem compact_shift : (d.shift left).compact = d.compact.shift left := by
  have kept : (d.shift left).entries.filter Option.isSome
      = (d.entries.filter Option.isSome).map (·.map (shiftEntry left)) := by
    simp only [shift, Array.filter_map]
    congr 2
    funext entry
    cases entry <;> rfl
  simp only [compact, kept, indexOf_shift]
  rfl

theorem erase_shift (k : Key) : (d.shift left).erase k = (d.erase k).shift left := by
  have emptied (slot : Nat) : (d.shift left).entries.modify slot (fun _ => none)
      = (d.entries.modify slot fun _ => none).map (·.map (shiftEntry left)) := by
    apply Array.ext_getElem?
    intro i
    simp only [shift, Array.getElem?_map, Array.getElem?_modify]
    split
    · cases d.entries[i]? <;> rfl
    · rfl
  simp only [erase, index_shift]
  cases d.index[k]? with
  | none => rfl
  | some slot =>
    simp only [emptied, Array.size_map]
    rw [apply_ite (shift left), ← compact_shift]
    rfl

end Dict

/-! ### Cells -/

/-- The cells, behind what was left. -/
def Cells.shift (left : Heap) (h : Cells) : Cells :=
  { lists := left.lists ++ h.lists.map (·.map (Value.shift left))
    dicts := left.dicts ++ h.dicts.map (Dict.shift left)
    fresh := left.fresh + h.fresh }

namespace Cells

variable {left : Heap}

@[simp] theorem list_shift (h : Cells) (ref : Nat) :
    (h.shift left).list (left.lists.size + ref) = (h.list ref).map (Value.shift left) := by
  simp only [list, shift, Array.getElem?_append_right (Nat.le_add_right _ _), Nat.add_sub_cancel_left,
    Array.getElem?_map]
  cases h.lists[ref]? <;> simp

@[simp] theorem dict_shift (h : Cells) (ref : Nat) :
    (h.shift left).dict (left.dicts.size + ref) = (h.dict ref).shift left := by
  simp only [dict, shift, Array.getElem?_append_right (Nat.le_add_right _ _), Nat.add_sub_cancel_left,
    Array.getElem?_map]
  cases h.dicts[ref]? <;> simp

end Cells

/-! ### Texts -/

/-- A container that is open. -/
def Container.shift (left : Heap) : Container → Container
  | .list ref => .list (left.lists.size + ref)
  | .dict ref => .dict (left.dicts.size + ref)

namespace Value

variable {left : Heap} {h : Cells}

theorem writeItems_map {write write' : String → Value → String} {f : Value → Value}
    (same : ∀ text v, write' text (f v) = write text v) (limit : Option Nat) (first : Bool) (text : String)
    (items : List Value) :
    writeItems write' limit first text (items.map f) = writeItems write limit first text items := by
  induction items generalizing first text with
  | nil => rfl
  | cons item rest ih => simp only [List.map_cons, writeItems, same, ih]

theorem writeEntries_map {write write' : String → Value → String}
    (same : ∀ text v, write' text (v.shift left) = write text v) (limit : Option Nat) (first : Bool)
    (text : String) (entries : List (Value × Value)) :
    writeEntries write' limit first text (entries.map (shiftEntry left))
      = writeEntries write limit first text entries := by
  induction entries generalizing first text with
  | nil => rfl
  | cons entry rest ih => simp only [List.map_cons, writeEntries, shiftEntry, same, ih]

theorem contains_map_shift (left : Heap) (around : List Container) (c : Container) :
    (around.map (Container.shift left)).contains (c.shift left) = around.contains c := by
  have apart (a b : Container) : a.shift left = b.shift left ↔ a = b := by
    cases a <;> cases b <;> simp [Container.shift]
  rw [Bool.eq_iff_iff]
  simp [apart]

theorem write_shift (limit : Option Nat) (room : Nat) (around : List Container) (text : String) (v : Value) :
    (v.shift left).write (h.shift left) limit room (around.map (Container.shift left)) text
      = v.write h limit room around text := by
  have scalar (text : String) (v : Value) :
      (if overfull limit text then text else text ++ (v.shift left).scalarText)
        = if overfull limit text then text else text ++ v.scalarText := by
    rw [scalarText_shift]
  induction room generalizing around text v with
  | zero =>
    unfold write
    cases v with
    | list ref => rfl
    | tuple id items => rfl
    | dict ref => rfl
    | _ => exact scalar text _
  | succ room ih =>
    unfold write
    cases v with
    | list ref =>
      have known := contains_map_shift left around (.list ref)
      have inner := ih (.list ref :: around)
      simp only [List.map_cons, Container.shift] at known inner
      simp only [shift_list, known, Cells.list_shift, Array.toList_map]
      rw [writeItems_map inner]
    | tuple id items =>
      simp only [shift_tuple, List.length_map]
      rw [writeItems_map (ih around)]
    | dict ref =>
      have known := contains_map_shift left around (.dict ref)
      have inner := ih (.dict ref :: around)
      simp only [List.map_cons, Container.shift] at known inner
      simp only [shift_dict, known, Cells.dict_shift, Dict.toList_shift]
      rw [writeEntries_map inner]
    | _ => exact scalar text _

@[simp] theorem repr_shift (v : Value) : (v.shift left).repr (h.shift left) = v.repr h :=
  v.write_shift Option.none maxOpen [] ""

@[simp] theorem reprWithin_shift (limit : Nat) (v : Value) :
    (v.shift left).reprWithin (h.shift left) limit = v.reprWithin h limit :=
  v.write_shift (some limit) maxOpen [] ""

@[simp] theorem display_shift (v : Value) : (v.shift left).display (h.shift left) = v.display h := by
  cases v with
  | str text => rfl
  | exception id e => rfl
  | _ => exact repr_shift _

@[simp] theorem truthy_shift (v : Value) : (v.shift left).truthy (h.shift left) = v.truthy h := by
  cases v <;> simp [truthy, Array.isEmpty]

@[simp] theorem sizeEstimate_shift (v : Value) : (v.shift left).sizeEstimate (h.shift left) = v.sizeEstimate h := by
  cases v <;> simp [sizeEstimate]

theorem items_shift (v : Value) :
    (v.shift left).items (h.shift left) = (v.items h).map (·.map (shift left)) := by
  cases v with
  | list ref => simp [items, Except.map]
  | tuple id items => simp [Value.items, Except.map]
  | dict ref => simp [items, Except.map]
  | str text => simp [items, Except.map, charText]
  | range r => simp [items, Except.map]
  | _ => rfl

end Value

/-! ### Behind nothing -/

namespace Value

mutual

theorem shift_nothing (v : Value) : v.shift .empty = v := by
  cases v with
  | list ref => exact congrArg list (Nat.zero_add ref)
  | dict ref => exact congrArg dict (Nat.zero_add ref)
  | tuple id items =>
    change tuple (0 + id) (shiftAll .empty items) = _
    rw [Nat.zero_add, shiftAll_nothing items]
  | function id name code defaults =>
    change function (0 + id) name (0 + code) (shiftDefaults .empty defaults) = _
    rw [Nat.zero_add, Nat.zero_add, shiftDefaults_nothing defaults]
  | listMethod ref m => exact congrArg (listMethod · m) (Nat.zero_add ref)
  | dictMethod ref m => exact congrArg (dictMethod · m) (Nat.zero_add ref)
  | tupleMethod id items m =>
    change tupleMethod (0 + id) (shiftAll .empty items) m = _
    rw [Nat.zero_add, shiftAll_nothing items]
  | exception id e => exact congrArg (exception · e) (Nat.zero_add id)
  | _ => rfl

theorem shiftAll_nothing (items : List Value) : shiftAll .empty items = items := by
  cases items with
  | nil => rfl
  | cons v rest =>
    change v.shift .empty :: shiftAll .empty rest = _
    rw [shift_nothing v, shiftAll_nothing rest]

theorem shiftDefaults_nothing (defaults : List (Option Value)) : shiftDefaults .empty defaults = defaults := by
  cases defaults with
  | nil => rfl
  | cons first rest =>
    cases first with
    | none =>
      change Option.none :: shiftDefaults .empty rest = _
      rw [shiftDefaults_nothing rest]
    | some v =>
      change some (v.shift .empty) :: shiftDefaults .empty rest = _
      rw [shift_nothing v, shiftDefaults_nothing rest]

end

end Value

theorem shiftEntry_nothing : shiftEntry .empty = id := by
  funext (key, value)
  simp only [shiftEntry, Value.shift_nothing, id]

theorem Dict.shift_nothing (d : Dict) : d.shift .empty = d := by
  obtain ⟨entries, index, live⟩ := d
  simp [Dict.shift, shiftEntry_nothing]

theorem Cells.shift_nothing (h : Cells) : h.shift .empty = h := by
  obtain ⟨lists, dicts, fresh⟩ := h
  have values : Value.shift .empty = id := funext Value.shift_nothing
  have entries : Dict.shift .empty = id := funext Dict.shift_nothing
  rw [shift, values, entries]
  simp [Heap.empty, empty]

end SnippetKernel
