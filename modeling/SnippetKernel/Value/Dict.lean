import SnippetKernel.Value.Basic

/-! Dicts: entries in the order they were added, found through their keys. A removed entry leaves a hole
behind; the holes are closed when there are more holes than entries. Keys are compared as
`KeyPart` lists, in which numbers that are equal look the same. -/
namespace SnippetKernel

/-- A part of a hashable value. A tuple is its length and then the parts of its items, so different
values never give the same list of parts. -/
inductive KeyPart where
  | none
  | int (i : Int64)
  | float (bits : UInt64)
  | str (text : String)
  | tuple (length : Nat)
  deriving DecidableEq, Hashable

abbrev Key := List KeyPart

namespace Value

/-- Integral floating point numbers in the range of integers stand for these. -/
def keyOfDouble (d : Double) : KeyPart :=
  if d.isIntegral then
    match narrow? d.truncate with
    | some i => .int i
    | Option.none => .float d.bits
  else .float d.bits

def unhashable (v : Value) : Exception := .typeError ("unhashable type: '" ++ v.typeName ++ "'")

mutual

/-- What a value is found by, unless it can be changed or has no equality of its own. -/
def key : Value → Except Exception Key
  | none => .ok [.none]
  | bool b => .ok [.int (boolInt b)]
  | int i => .ok [.int i]
  | float d => .ok [keyOfDouble d]
  | str text => .ok [.str text]
  | tuple _ items =>
    match keys items with
    | .ok parts => .ok (.tuple items.length :: parts)
    | .error e => .error e
  | v => .error v.unhashable

def keys : List Value → Except Exception Key
  | [] => .ok []
  | v :: rest =>
    match v.key with
    | .error e => .error e
    | .ok parts =>
      match keys rest with
      | .ok more => .ok (parts ++ more)
      | .error e => .error e

end

end Value

structure Dict where
  /-- The entries in order, with a hole for each one that was removed. -/
  entries : Array (Option (Value × Value))
  /-- The place of the entry of each key. -/
  index : Std.HashMap Key Nat
  live : Nat
  deriving Inhabited

namespace Dict

def empty : Dict := ⟨#[], ∅, 0⟩

def size (d : Dict) : Nat := d.live

def toList (d : Dict) : List (Value × Value) := d.entries.toList.filterMap id

def keys (d : Dict) : List Value := d.toList.map (·.1)

def values (d : Dict) : List Value := d.toList.map (·.2)

/-- What the key with these parts is bound to. -/
def find? (d : Dict) (k : Key) : Option Value :=
  d.index[k]?.bind fun slot => (d.entries[slot]?.join).map (·.2)

def get? (d : Dict) (key : Value) : Except Exception (Option Value) := return d.find? (← key.key)

def contains (d : Dict) (key : Value) : Except Exception Bool := return d.index.contains (← key.key)

/-- Binds `key`, whose parts are `k`, to the value. A key that is bound keeps its place and its first
form. -/
def put (d : Dict) (k : Key) (key value : Value) : Dict :=
  match d.index[k]? with
  | some slot =>
    { d with entries := d.entries.modify slot fun entry => entry.map fun (first, _) => (first, value) }
  | none =>
    let slot := d.entries.size
    { entries := d.entries.push (some (key, value)), index := d.index.insert k slot
      live := d.live + 1 }

/-- Binds the key to the value, unless it cannot be a key. -/
def insert (d : Dict) (key value : Value) : Except Exception Dict := return d.put (← key.key) key value

/-- The places of entries without holes, by their keys. -/
def indexOf (entries : Array (Option (Value × Value))) : Std.HashMap Key Nat :=
  (entries.foldl (fun (index, slot) entry =>
    match entry with
    | some (key, _) =>
      match key.key with
      | .ok k => (index.insert k slot, slot + 1)
      | .error _ => (index, slot + 1)
    | none => (index, slot + 1)) ((∅ : Std.HashMap Key Nat), 0)).1

/-- Closes the holes. -/
def compact (d : Dict) : Dict :=
  let entries := d.entries.filter Option.isSome
  { d with entries := entries, index := indexOf entries }

/-- Removes the entry of the key with these parts. -/
def erase (d : Dict) (k : Key) : Dict :=
  match d.index[k]? with
  | none => d
  | some slot =>
    let rest : Dict :=
      { entries := d.entries.modify slot fun _ => none, index := d.index.erase k, live := d.live - 1 }
    if 16 < rest.entries.size ∧ rest.live * 2 < rest.entries.size then rest.compact else rest

/-- Removes the entry of a key, and says what it held. -/
def remove (d : Dict) (key : Value) : Except Exception (Option Value × Dict) := do
  let k ← key.key
  return (d.find? k, d.erase k)

end Dict

end SnippetKernel
