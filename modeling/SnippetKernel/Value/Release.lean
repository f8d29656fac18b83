import SnippetKernel.Value.Heap

/-! Emptying all lists and dicts that can be reached from some values. A cell is emptied before what it
held is followed, so a cycle comes to an end when it comes back to an empty cell. -/
namespace SnippetKernel

/-- A reference to the heap. -/
inductive Cell where
  | list (ref : Nat)
  | dict (ref : Nat)
  deriving DecidableEq

namespace Value

mutual

/-- The cells that a value refers to without going through another cell. -/
def cells : Value → List Cell
  | list ref | listMethod ref _ => [.list ref]
  | dict ref | dictMethod ref _ => [.dict ref]
  | tuple _ items | tupleMethod _ items _ => cellsOf items
  | function _ _ _ defaults => cellsOfDefaults defaults
  | _ => []

def cellsOf : List Value → List Cell
  | [] => []
  | v :: rest => v.cells ++ cellsOf rest

def cellsOfDefaults : List (Option Value) → List Cell
  | [] => []
  | Option.none :: rest => cellsOfDefaults rest
  | some v :: rest => v.cells ++ cellsOfDefaults rest

end

end Value

namespace Cells

/-- What a cell refers to. -/
def contents (h : Cells) : Cell → List Value
  | .list ref => (h.list ref).toList
  | .dict ref => (h.dict ref).toList.flatMap fun (key, value) => [key, value]

def isEmptyCell (h : Cells) : Cell → Bool
  | .list ref => (h.list ref).isEmpty
  | .dict ref => (h.dict ref).entries.isEmpty

def clearCell (h : Cells) : Cell → Cells
  | .list ref => h.setList ref #[]
  | .dict ref => h.setDict ref .empty

/-- How many cells are not empty. -/
def filled (h : Cells) : Nat :=
  h.lists.countP (!·.isEmpty) + h.dicts.countP fun d => !d.entries.isEmpty

theorem filled_clearCell_lt (h : Cells) (c : Cell) (full : h.isEmptyCell c = false) :
    (h.clearCell c).filled < h.filled := by
  cases c with
  | list ref =>
    have inside : ref < h.lists.size := by
      refine Nat.lt_of_not_le fun outside => ?_
      simp [isEmptyCell, list, outside] at full
    have counted : (h.lists[ref]).isEmpty = false := by
      simpa [isEmptyCell, list, inside] using full
    have some_filled : 0 < h.lists.countP (!·.isEmpty) :=
      Array.countP_pos_iff.2 ⟨h.lists[ref], Array.getElem_mem inside, by simp [counted]⟩
    simp only [clearCell, setList, filled, Array.setIfInBounds, inside, dite_true]
    rw [Array.countP_set, counted]
    simp only [Bool.not_false, ite_true, List.isEmpty_toArray, List.isEmpty_nil, Bool.not_true,
      Bool.false_eq_true, ite_false]
    omega
  | dict ref =>
    have inside : ref < h.dicts.size := by
      refine Nat.lt_of_not_le fun outside => ?_
      simp [isEmptyCell, dict, outside, Dict.empty] at full
    have counted : (h.dicts[ref]).entries.isEmpty = false := by
      simpa [isEmptyCell, dict, inside] using full
    have some_filled : 0 < h.dicts.countP fun d => !d.entries.isEmpty :=
      Array.countP_pos_iff.2 ⟨h.dicts[ref], Array.getElem_mem inside, by simp [counted]⟩
    simp only [clearCell, setDict, filled, Array.setIfInBounds, inside, dite_true]
    rw [Array.countP_set, counted]
    simp only [Bool.not_false, ite_true, Dict.empty, List.isEmpty_toArray, List.isEmpty_nil,
      Bool.not_true, Bool.false_eq_true, ite_false]
    omega

/-- Empties the cells, and all cells that can be reached from them. -/
def releaseCells (h : Cells) : List Cell → Cells
  | [] => h
  | c :: pending =>
    if full : h.isEmptyCell c = false then
      have := filled_clearCell_lt h c full
      releaseCells (h.clearCell c) (Value.cellsOf (h.contents c) ++ pending)
    else releaseCells h pending
  termination_by pending => (h.filled, pending.length)

/-- Empties all lists and dicts that can be reached from the values. -/
def release (h : Cells) (roots : List Value) : Cells := h.releaseCells (Value.cellsOf roots)

end Cells

end SnippetKernel
