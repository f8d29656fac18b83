import SnippetKernel.Program.Sorting
import SnippetKernel.Value.Items

/-! The methods of lists, tuples and dicts. A method that raises an exception has changed nothing yet; only
`update` can stop half way. -/
namespace SnippetKernel

open Arguments

namespace ListMethods

def items (ref : Nat) : Work (List Value) := Work.reading fun h => (h.list ref).toList

def modify (ref : Nat) (change : Array Value → Array Value) : Work Value := do
  Work.onHeap (HeapM.modifyList ref change)
  return .none

/-- Where an insertion at the index puts the item. -/
def insertionPlace (index : Int64) (length : Nat) : Nat :=
  (Slice.clamp (Slice.fromEnd length index) 0 length).toNat

/-- `index` and `count`, which lists and tuples share. -/
def index (typeName : String) (items args : List Value) : Work Value := do
  exactly "index" args 1
  match ← Work.readingExcept fun h => Value.position? h (first args) items with
  | some i => return .int (Int64.ofNat i)
  | none => Work.raise .value (typeName ++ ".index(x): x not in " ++ typeName)

def count (items args : List Value) : Work Value := do
  exactly "count" args 1
  let n ← Work.readingExcept fun h => Value.countEqual h (first args) items
  return .int (Int64.ofNat n)

def pop (ref : Nat) (args : List Value) : Work Value := do
  arity "pop" args 0 (some 1)
  let length ← Work.reading fun h => (h.list ref).size
  if length = 0 then Work.raise .index "pop from empty list"
  let index ←
    match args with
    | [] => pure (-1)
    | v :: _ => int "pop" v
  match Value.place? length index with
  | none => Work.raise .index "pop index out of range"
  | some i =>
    let removed ← Work.reading fun h => (h.list ref)[i]?.getD .none
    Work.onHeap (HeapM.modifyList ref (·.eraseIdxIfInBounds i))
    return removed

def remove (ref : Nat) (args : List Value) : Work Value := do
  exactly "remove" args 1
  match ← Work.readingExcept fun h => Value.position? h (first args) (h.list ref).toList with
  | some i => modify ref (·.eraseIdxIfInBounds i)
  | none => Work.raise .value "list.remove(x): x not in list"

/-- How items are keyed by an optional function. -/
def keyOf (callKey : Value → Value → Run Value) (key : Option Value) : KeyOf :=
  match key with
  | none | some .none => pure
  | some f => callKey f

/-- The keywords `key` and `reverse`, and the others. -/
def sortKeywords (keywords : Keywords) : Work (Option Value × Bool × Keywords) := do
  let (key, keywords) := take "key" keywords
  let (reverse, keywords) := take "reverse" keywords
  let reverse ←
    match reverse with
    | some v => Work.truthy v
    | none => pure false
  return (key, reverse, keywords)

/-- The items are taken before any key is asked for, so key functions may look at the list. -/
def sort (callKey : Value → Value → Run Value) (ref : Nat) (args : List Value)
    (keywords : Keywords) : Run Value := do
  let (key, reverse, keywords) ← sortKeywords keywords
  noKeywords "sort" keywords
  exactly "sort" args 0
  let sorted ← Run.sorted (keyOf callKey key) reverse (← items ref)
  modify ref fun _ => sorted.toArray

/-- The methods that ask for no keys. -/
def withoutKeys (m : ListMethod) (ref : Nat) (args : List Value) (keywords : Keywords) :
    Work Value := do
  let name := m.text
  noKeywords name keywords
  match m with
  | .sort => return .none
  | .append =>
    exactly name args 1
    modify ref (·.push (first args))
  | .extend =>
    exactly name args 1
    let new ← Work.items (first args)
    modify ref (·.appendList new)
  | .insert =>
    exactly name args 2
    let index ← int name (first args)
    modify ref fun items => items.insertIdxIfInBounds (insertionPlace index items.size) (second args)
  | .pop => pop ref args
  | .remove => remove ref args
  | .reverse =>
    exactly name args 0
    modify ref (·.reverse)
  | .copy =>
    exactly name args 0
    Work.onHeap (HeapM.newList (← items ref))
  | .clear =>
    exactly name args 0
    modify ref fun _ => #[]
  | .index => index "list" (← items ref) args
  | .count => count (← items ref) args

/-- The method of a list, called. -/
def apply (callKey : Value → Value → Run Value) (m : ListMethod) (ref : Nat) (args : List Value)
    (keywords : Keywords) : Run Value :=
  if m = .sort then sort callKey ref args keywords else withoutKeys m ref args keywords

end ListMethods

namespace TupleMethods

/-- The method of a tuple, called. -/
def apply (m : TupleMethod) (items args : List Value) (keywords : Keywords) : Work Value := do
  noKeywords m.text keywords
  match m with
  | .index => ListMethods.index "tuple" items args
  | .count => ListMethods.count items args

end TupleMethods

namespace DictMethods

def find? (ref : Nat) (key : Value) : Work (Option Value) :=
  Work.readingExcept fun h => (h.dict ref).get? key

def put (ref : Nat) (key value : Value) : Work Unit := do
  let k ← Work.ofExcept key.key
  Work.onHeap (HeapM.modifyDict ref (·.put k key value))

def entries (ref : Nat) : Work (List (Value × Value)) := Work.reading fun h => (h.dict ref).toList

def pop (ref : Nat) (args : List Value) : Work Value := do
  arity "pop" args 1 (some 2)
  let key := first args
  match ← find? ref key, args.tail with
  | some v, _ =>
    let k ← Work.ofExcept key.key
    Work.onHeap (HeapM.modifyDict ref (·.erase k))
    return v
  | none, default :: _ => return default
  | none, [] => Work.raise .key (← Work.repr key)

def setdefault (ref : Nat) (args : List Value) : Work Value := do
  arity "setdefault" args 1 (some 2)
  match ← find? ref (first args) with
  | some v => return v
  | none =>
    let default := second args
    put ref (first args) default
    return default

/-- Entries given as pairs. -/
def pairs : List Value → Work (List (Value × Value))
  | [] => return []
  | pair :: rest => do
    match ← Work.items pair with
    | [key, value] => return (key, value) :: (← pairs rest)
    | _ => Work.raise .value "dictionary update sequence element has wrong length"

def putAll (ref : Nat) : List (Value × Value) → Work Unit
  | [] => return
  | (key, value) :: rest => do
    put ref key value
    putAll ref rest

/-- All new entries are known before the first one is added. -/
def update (ref : Nat) (args : List Value) (keywords : Keywords) : Work Value := do
  arity "update" args 0 (some 1)
  let new ←
    match args with
    | [] => pure []
    | .dict other :: _ => entries other
    | v :: _ => do pairs (← Work.items v)
  putAll ref (new ++ keywords.map fun (key, value) => (.str key, value))
  return .none

/-- The method of a dict, called. -/
def apply (m : DictMethod) (ref : Nat) (args : List Value) (keywords : Keywords) : Work Value := do
  let name := m.text
  if m ≠ .update then noKeywords name keywords
  match m with
  | .get =>
    arity name args 1 (some 2)
    return (← find? ref (first args)).getD (second args)
  | .keys =>
    exactly name args 0
    Work.onHeap (HeapM.newList ((← entries ref).map (·.1)))
  | .values =>
    exactly name args 0
    Work.onHeap (HeapM.newList ((← entries ref).map (·.2)))
  | .items =>
    exactly name args 0
    let entries ← entries ref
    Work.onHeap do HeapM.newList (← HeapM.newPairs entries)
  | .pop => pop ref args
  | .setdefault => setdefault ref args
  | .update => update ref args keywords
  | .copy =>
    exactly name args 0
    let d ← Work.reading fun h => h.dict ref
    Work.onHeap (HeapM.newDict d)
  | .clear =>
    exactly name args 0
    Work.onHeap (HeapM.modifyDict ref fun _ => .empty)
    return .none

end DictMethods

end SnippetKernel
