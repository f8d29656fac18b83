import SnippetKernel.Text.Search
import SnippetKernel.Value.Arith
import SnippetKernel.Value.Equality

/-! Comparison operators, membership, and the items and slices of sequences and dicts. -/
namespace SnippetKernel

namespace Value

open Source (CompareOp)

def compareSymbol : CompareOp → String
  | .lt => "<"
  | .le => "<="
  | .gt => ">"
  | .ge => ">="
  | _ => "=="

/-- An order comparison. Values without an order are refused in the words of the operator; a NaN is
neither less nor greater nor equal. -/
def ordered (h : Cells) (op : CompareOp) (accept : Ordering → Bool) (a b : Value) :
    Except Exception Bool :=
  match compareValues h a b with
  | .ok order => .ok (accept order)
  | .error e =>
    if e.kind = .value then .ok false
    else if e.kind = .recursion then .error e
    else
      .error (.typeError ("'" ++ compareSymbol op ++ "' not supported between instances of '"
        ++ a.typeName ++ "' and '" ++ b.typeName ++ "'"))

/-- `item in container` -/
def contains (h : Cells) (container item : Value) : Except Exception Bool :=
  match container with
  | str text =>
    match item with
    | str piece => .ok (Text.contains piece.toList text.toList)
    | other =>
      .error (.typeError ("'in <string>' requires string as left operand, not " ++ other.typeName))
  | list ref => (position? h item (h.list ref).toList).map (·.isSome)
  | tuple _ items => (position? h item items).map (·.isSome)
  | dict ref => (h.dict ref).contains item
  | range r =>
    match item.number? with
    | some (.int i) => .ok (r.contains i)
    | some (.float d) => .ok (d.isIntegral && r.contains (Int64.ofIntClamp d.truncate))
    | Option.none => .ok false
  | other => .error (.typeError ("argument of type '" ++ other.typeName ++ "' is not iterable"))

/-- `a op b` -/
def compareBy (h : Cells) (op : CompareOp) (a b : Value) : Except Exception Bool :=
  match op with
  | .eq => equal h a b
  | .ne => (equal h a b).map (!·)
  | .lt => ordered h op (·.isLT) a b
  | .le => ordered h op (·.isLE) a b
  | .gt => ordered h op (·.isGT) a b
  | .ge => ordered h op (·.isGE) a b
  | .isIn => contains h b a
  | .notIn => (contains h b a).map (!·)
  | .is => .ok (a.same b)
  | .isNot => .ok !(a.same b)

def outOfRange (what : String) : Exception := ⟨.index, what ++ " index out of range"⟩

/-- The place that an index means among `length` items; lengths and indices are 64-bit integers here. -/
def place? (length : Nat) (i : Int64) : Option Nat :=
  let length := Int64.ofNat length
  let i := if i < 0 then i + length else i
  if 0 ≤ i ∧ i < length then some i.toNatClampNeg else Option.none

def placeOf (index : Value) (length : Nat) (what : String) : Except Exception Nat :=
  match index.int? with
  | Option.none =>
    .error (.typeError (what ++ " indices must be integers or slices, not " ++ index.typeName))
  | some i =>
    match place? length i with
    | some n => .ok n
    | Option.none => .error (outOfRange what)

def notSubscriptable (v : Value) : Exception :=
  match v with
  | type t => .typeError ("type '" ++ t.text ++ "' is not subscriptable")
  | v => .typeError ("'" ++ v.typeName ++ "' object is not subscriptable")

/-- `v[index]` -/
def item (h : Cells) (v index : Value) : Except Exception Value :=
  match v with
  | list ref => do
    let i ← placeOf index (h.list ref).size "list"
    match (h.list ref)[i]? with
    | some x => return x
    | Option.none => throw (outOfRange "list")
  | tuple _ items => do
    let i ← placeOf index items.length "tuple"
    match items[i]? with
    | some x => return x
    | Option.none => throw (outOfRange "tuple")
  | str text => do
    let cs := text.toList
    let i ← placeOf index cs.length "string"
    match cs[i]? with
    | some c => return charText c
    | Option.none => return none
  | range r => do
    let i ← placeOf index r.size "range object"
    match r.get? i with
    | some n => return int n
    | Option.none => throw (outOfRange "range object")
  | dict ref => do
    match ← (h.dict ref).get? index with
    | some x => return x
    | Option.none => throw ⟨.key, index.repr h⟩
  | v => throw v.notSubscriptable

def zeroStep : Exception := .valueError "slice step cannot be zero"

def selected (s : Slice) (length : Nat) : Except Exception (List Nat) :=
  match s.indices? length with
  | some indices => .ok indices
  | Option.none => .error zeroStep

/-- `v[start:stop:step]` -/
def slice (v : Value) (s : Slice) : HeapM Value := do
  let h ← get
  match v with
  | list ref =>
    let items := h.list ref
    HeapM.newList ((← HeapM.ofExcept (selected s items.size)).filterMap (items[·]?))
  | tuple _ items =>
    let all := items.toArray
    HeapM.newTuple ((← HeapM.ofExcept (selected s all.size)).filterMap (all[·]?))
  | str text =>
    let cs := text.toList.toArray
    return .str (String.ofList ((← HeapM.ofExcept (selected s cs.size)).filterMap (cs[·]?)))
  | range r =>
    match s.select? r.size with
    | Option.none => throw zeroStep
    | some selection =>
      match r.slice? selection with
      | some part => return .range part
      | Option.none => HeapM.raise .overflow "range slice out of bounds"
  | v => throw (.typeError ("'" ++ v.typeName ++ "' object is not subscriptable"))

def noAssignment (v : Value) : Exception :=
  .typeError ("'" ++ v.typeName ++ "' object does not support item assignment")

def noDeletion (v : Value) : Exception :=
  .typeError ("'" ++ v.typeName ++ "' object does not support item deletion")

/-- `v[index] = x` -/
def setItem (v index x : Value) : HeapM Unit := do
  let h ← get
  match v with
  | list ref =>
    let i ← HeapM.ofExcept (placeOf index (h.list ref).size "list")
    HeapM.modifyList ref (·.setIfInBounds i x)
  | dict ref =>
    let k ← HeapM.ofExcept index.key
    HeapM.modifyDict ref (·.put k index x)
  | v => throw v.noAssignment

/-- The items with those from `first` on, `count` of them, written as `new`. -/
def splice (items : Array Value) (first count : Nat) (new : List Value) : Array Value :=
  (items.take first).appendList new ++ items.drop (first + count)

/-- Where a slice without a step begins, also when it selects nothing. -/
def spliceStart (s : Slice) (length : Nat) : Nat :=
  match s.start with
  | Option.none => 0
  | some i => (Slice.clamp (Slice.fromEnd length i) 0 length).toNat

/-- The items with the new ones at the given places. -/
def setAll (items : Array Value) : List Nat → List Value → Array Value
  | i :: places, x :: new => setAll (items.setIfInBounds i x) places new
  | _, _ => items

/-- `v[start:stop:step] = new`; only a slice without a step may change the length. -/
def setSlice (v : Value) (s : Slice) (new : Value) : HeapM Unit := do
  let h ← get
  match v with
  | list ref =>
    let new ← HeapM.ofExcept (new.items h)
    let length := (h.list ref).size
    let places ← HeapM.ofExcept (selected s length)
    if (s.step.getD 1) = 1 then
      HeapM.modifyList ref fun items => splice items (spliceStart s length) places.length new
    else if places.length ≠ new.length then
      throw (.valueError ("attempt to assign sequence of size " ++ toString new.length
        ++ " to extended slice of size " ++ toString places.length))
    else HeapM.modifyList ref fun items => setAll items places new
  | v => throw v.noAssignment

/-- `del v[index]` -/
def deleteItem (v index : Value) : HeapM Unit := do
  let h ← get
  match v with
  | list ref =>
    let i ← HeapM.ofExcept (placeOf index (h.list ref).size "list")
    HeapM.modifyList ref (·.eraseIdxIfInBounds i)
  | dict ref =>
    let k ← HeapM.ofExcept index.key
    if (h.dict ref).index.contains k then HeapM.modifyDict ref (·.erase k)
    else HeapM.raise .key (index.repr h)
  | v => throw v.noDeletion

/-- The items that are not at one of the given places. -/
def deleteAll (items : Array Value) (places : List Nat) : Array Value :=
  let deleted := places.foldl (fun deleted i => deleted.setIfInBounds i true)
    (Array.replicate items.size false)
  (items.zip deleted).filterMap fun (x, gone) => if gone then Option.none else some x

/-- `del v[start:stop:step]` -/
def deleteSlice (v : Value) (s : Slice) : HeapM Unit := do
  let h ← get
  match v with
  | list ref =>
    let places ← HeapM.ofExcept (selected s (h.list ref).size)
    HeapM.modifyList ref fun items => deleteAll items places
  | v => throw v.noDeletion

def noAttribute (v : Value) (name : String) : Exception :=
  ⟨.attr, "'" ++ v.typeName ++ "' object has no attribute '" ++ name ++ "'"⟩

end Value

end SnippetKernel
