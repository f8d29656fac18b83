import SnippetKernel.Value.Dict

/-! The heap: the cells of lists and of dicts, a supply of numbers for values that carry one, and the
code of functions. Only a call looks at code, so all else is work on the cells. -/
namespace SnippetKernel

structure Cells where
  lists : Array (Array Value)
  dicts : Array Dict
  /-- The next number that no value carries yet. -/
  fresh : Nat
  deriving Inhabited

namespace Cells

def empty : Cells := ⟨#[], #[], 0⟩

/-- The items of a list. -/
def list (h : Cells) (ref : Nat) : Array Value := h.lists[ref]?.getD #[]

/-- The entries of a dict. -/
def dict (h : Cells) (ref : Nat) : Dict := h.dicts[ref]?.getD .empty

def setList (h : Cells) (ref : Nat) (items : Array Value) : Cells :=
  { h with lists := h.lists.setIfInBounds ref items }

def setDict (h : Cells) (ref : Nat) (d : Dict) : Cells :=
  { h with dicts := h.dicts.setIfInBounds ref d }

theorem list_setList (h : Cells) {ref : Nat} (items : Array Value) (inside : ref < h.lists.size) :
    (h.setList ref items).list ref = items := by
  simp [list, setList, inside]

theorem list_setList_of_ne (h : Cells) {ref other : Nat} (items : Array Value) (ne : ref ≠ other) :
    (h.setList ref items).list other = h.list other := by
  simp [list, setList, ne]

end Cells

/-- Work on the cells that an exception can cut short. -/
abbrev HeapM := EStateM Exception Cells

namespace HeapM

def raise {α : Type} (kind : ExceptionKind) (message : String) : HeapM α := throw ⟨kind, message⟩

/-- A value that depends on the cells as they are. -/
def reading {α : Type} (read : Cells → Except Exception α) : HeapM α := fun h =>
  match read h with
  | .ok a => .ok a h
  | .error e => .error e h

def ofExcept {α : Type} : Except Exception α → HeapM α
  | .ok a => pure a
  | .error e => throw e

/-- A number that no value carries yet. -/
def freshId : HeapM Nat := modifyGet fun h => (h.fresh, { h with fresh := h.fresh + 1 })

def newListOf (items : Array Value) : HeapM Value :=
  modifyGet fun h => (.list h.lists.size, { h with lists := h.lists.push items })

def newList (items : List Value) : HeapM Value := newListOf items.toArray

def newDict (d : Dict) : HeapM Value :=
  modifyGet fun h => (.dict h.dicts.size, { h with dicts := h.dicts.push d })

def newTuple (items : List Value) : HeapM Value := do return .tuple (← freshId) items

def newException (e : Exception) : HeapM Value := do return .exception (← freshId) e

/-- Changes the items of a list in place. -/
def modifyList (ref : Nat) (change : Array Value → Array Value) : HeapM Unit :=
  modify fun h => { h with lists := h.lists.modify ref change }

/-- Changes the entries of a dict in place. -/
def modifyDict (ref : Nat) (change : Dict → Dict) : HeapM Unit :=
  modify fun h => { h with dicts := h.dicts.modify ref change }

/-- A new tuple for each pair. -/
def newPairs : List (Value × Value) → HeapM (List Value)
  | [] => return []
  | (a, b) :: rest => do
    let pair ← newTuple [a, b]
    return pair :: (← newPairs rest)

end HeapM

/-- The code of a function that a program defines. -/
structure Code where
  name : String
  params : List Source.Param
  body : List Source.Stmt
  deriving Inhabited

/-- The cells, and the code of the functions that were defined. -/
structure Heap extends Cells where
  codes : Array Code

namespace Heap

instance : Coe Heap Cells := ⟨toCells⟩

def empty : Heap := ⟨.empty, #[]⟩

/-- The code of a function. -/
def code (h : Heap) (ref : Nat) : Code := h.codes[ref]?.getD default

end Heap

end SnippetKernel
