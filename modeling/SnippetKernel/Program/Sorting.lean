import SnippetKernel.Program.Arguments
import SnippetKernel.Value.Equality

/-! Sorting by keys, and the least and the greatest item. Items with equal keys keep their order. The
first comparison that fails ends the sorting. -/
namespace SnippetKernel

/-- An item and what it is sorted by. -/
structure Keyed where
  key : Value
  item : Value

namespace Keyed

/-- Comes strictly before; after, if the order is reversed. -/
def before (h : Cells) (reverse : Bool) (a b : Keyed) : Except Exception Bool := do
  return (← Value.compareValues h a.key b.key) == if reverse then .gt else .lt

/-- Puts an item into a sorted list whose last item comes first; it goes behind its equals. -/
def insertLast (before : Keyed → Keyed → Except Exception Bool) (x : Keyed) :
    List Keyed → Except Exception (List Keyed)
  | [] => .ok [x]
  | last :: rest => do
    if ← before x last then return last :: (← insertLast before x rest) else return x :: last :: rest

/-- Puts the items into place one by one. -/
def sortByInsertion (before : Keyed → Keyed → Except Exception Bool) (xs : List Keyed) :
    Except Exception (List Keyed) := do
  return (← xs.foldlM (fun sorted x => insertLast before x sorted) []).reverse

/-- Two sorted lists as one, behind the items of `done`, whose last one comes first. Of two equals the one
from the first list comes first. -/
def merge (before : Keyed → Keyed → Except Exception Bool) (done xs ys : List Keyed) :
    Except Exception (List Keyed) :=
  match xs, ys with
  | [], ys => .ok (done.reverseAux ys)
  | xs, [] => .ok (done.reverseAux xs)
  | x :: xs, y :: ys => do
    if ← before y x then merge before (y :: done) (x :: xs) ys
    else merge before (x :: done) xs (y :: ys)
termination_by xs.length + ys.length

/-- Lists up to this length are sorted by insertion. -/
def maxInserted : Nat := 20

/-- The items in order. The halves of a long list are sorted by themselves and merged. -/
def sort (before : Keyed → Keyed → Except Exception Bool) (xs : List Keyed) :
    Except Exception (List Keyed) :=
  if _short : xs.length ≤ maxInserted then sortByInsertion before xs
  else do
    let half := xs.length / 2
    let front ← sort before (xs.take half)
    let back ← sort before (xs.drop half)
    merge before [] front back
termination_by xs.length
decreasing_by all_goals simp only [maxInserted, List.length_take, List.length_drop] at *; omega

end Keyed

/-- How the key of an item is found: the item itself, or what a function gives for it. -/
abbrev KeyOf := Value → Run Value

namespace Run

/-- Every item with its key, in order. -/
def keyed (keyOf : KeyOf) : List Value → Run (List Keyed)
  | [] => return []
  | item :: rest => do
    let key ← keyOf item
    return ⟨key, item⟩ :: (← keyed keyOf rest)

def sorted (keyOf : KeyOf) (reverse : Bool) (items : List Value) : Run (List Value) := do
  let decorated ← keyed keyOf items
  Work.readingExcept fun h => (Keyed.sort (Keyed.before h reverse) decorated).map (·.map (·.item))

/-- The first item whose key is in the wanted relation to the keys of all others. Keys are asked for and
compared item by item. -/
def bestOf (keyOf : KeyOf) (want : Ordering) (champion : Keyed) : List Value → Run Value
  | [] => return champion.item
  | item :: rest => do
    let challenger : Keyed := ⟨← keyOf item, item⟩
    let order ← Work.readingExcept fun h => Value.compareValues h challenger.key champion.key
    bestOf keyOf want (if order = want then challenger else champion) rest

end Run

end SnippetKernel
