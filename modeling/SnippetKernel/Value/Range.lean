import SnippetKernel.Number.Reading

/-! Ranges of integers and the bounds of slices. Both are computed with unbounded integers, so extreme
steps cannot overflow. -/
namespace SnippetKernel

/-- The integers `start`, `start + step`, … before `stop`. The step is not zero. -/
structure Range where
  start : Int64
  stop : Int64
  step : Int64
  deriving DecidableEq

namespace Range

/-- How many integers the range has. -/
def size (r : Range) : Nat :=
  let span := if 0 < r.step.toInt then r.stop.toInt - r.start.toInt else r.start.toInt - r.stop.toInt
  let step := r.step.toInt.natAbs
  (span.toNat + step - 1) / step

def isEmpty (r : Range) : Bool := r.size == 0

def get? (r : Range) (i : Nat) : Option Int64 :=
  if i < r.size then some (Int64.ofInt (r.start.toInt + r.step.toInt * i)) else none

def toList (r : Range) : List Int64 := (List.range r.size).filterMap r.get?

/-- Lies between start and stop, a whole number of steps from the start. The distance is a 64-bit
integer. -/
def contains (r : Range) (n : Int64) : Bool :=
  let between := if 0 < r.step then r.start ≤ n && n < r.stop else n ≤ r.start && r.stop < n
  between && (n - r.start).toInt.tmod r.step.toInt == 0

/-- The two ranges have the same integers in the same order. -/
def same (a b : Range) : Bool :=
  (a.isEmpty && b.isEmpty) ||
    (a.size == b.size && a.start == b.start && (a.size == 1 || a.step == b.step))

end Range

/-- The bounds of a slice as they are given; each one may be left out. -/
structure Slice where
  start : Option Int64
  stop : Option Int64
  step : Option Int64

namespace Slice

/-- The positions `first`, `first + step`, … of which there are `count`. -/
structure Selection where
  first : Int
  step : Int
  count : Nat

def clamp (i low high : Int) : Int := min (max i low) high

/-- A bound below zero counts from the end. -/
def fromEnd (length : Nat) (i : Int64) : Int :=
  if i.toInt < 0 then i.toInt + length else i.toInt

/-- What the slice selects from `length` items; nothing if the step is zero. -/
def select? (s : Slice) (length : Nat) : Option Selection :=
  let step := (s.step.map (·.toInt)).getD 1
  if step = 0 then none
  else
    let start := s.start.map (fromEnd length)
    let stop := s.stop.map (fromEnd length)
    let (first, span) :=
      if 0 < step then
        let first := clamp (start.getD 0) 0 length
        (first, clamp (stop.getD length) 0 length - first)
      else
        let first := clamp (start.getD (length - 1)) (-1) (length - 1)
        (first, first - clamp (stop.getD (-1)) (-1) (length - 1))
    let count := if 0 < span then ((span - 1) / step.natAbs + 1).toNat else 0
    some ⟨first, step, count⟩

def Selection.indices (s : Selection) : List Nat :=
  (List.range s.count).map fun (i : Nat) => (s.first + s.step * (i : Int)).toNat

/-- The positions that the slice selects from `length` items. -/
def indices? (s : Slice) (length : Nat) : Option (List Nat) := (s.select? length).map (·.indices)

end Slice

/-- The range of the selected elements of a range. -/
def Range.slice? (r : Range) (s : Slice.Selection) : Option Range :=
  if s.count = 0 then some ⟨0, 0, 1⟩
  else do
    let start := r.start.toInt + r.step.toInt * s.first
    let step := r.step.toInt * s.step
    let last := start + step * (s.count - 1)
    some ⟨← narrow? start, ← narrow? (last + step.sign), ← narrow? step⟩

end SnippetKernel
