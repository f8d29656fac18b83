import SnippetKernel.Value.FormatSpec
import SnippetKernel.Value.Items

/-! What can be done without running any of the program's own code. Such work sees the cells of the heap
and the clock; it can write, and it can be cut short by an exception. It sees neither names nor calls nor
code, and not what was written before. -/
namespace SnippetKernel

/-- What programs can learn about the time, in seconds. It passes for them only while they sleep. -/
structure Clock where
  /-- Since the beginning of 1970. -/
  wall : Double
  /-- Since the clock was first used. -/
  elapsed : Double
  deriving DecidableEq

namespace Clock

def advance (c : Clock) (seconds : Double) : Clock :=
  ⟨c.wall.add seconds, c.elapsed.add seconds⟩

end Clock

structure Reach where
  cells : Cells
  clock : Clock
  /-- What the work wrote, one element for each time it did. -/
  writes : Array (Stream × String)

/-- Why work was cut short. -/
inductive Refusal where
  | exception (e : Exception)
  /-- The interpreter gave up; no handler of the program sees that. -/
  | crash (message : String)

abbrev Work := EStateM Refusal Reach

namespace Work

variable {α : Type}

def raise (kind : ExceptionKind) (message : String) : Work α :=
  throw (.exception ⟨kind, message⟩)

def raiseTypeError (message : String) : Work α := raise .type message

def ofExcept : Except Exception α → Work α
  | .ok a => pure a
  | .error e => throw (.exception e)

/-- Work on the cells alone. -/
def onHeap (work : HeapM α) : Work α := fun r =>
  match r with
  | ⟨cells, clock, writes⟩ =>
    match work cells with
    | .ok a cells => .ok a ⟨cells, clock, writes⟩
    | .error e cells => .error (.exception e) ⟨cells, clock, writes⟩

/-- A value that depends on the cells as they are. -/
def reading (read : Cells → α) : Work α := fun r => .ok (read r.cells) r

def readingExcept (read : Cells → Except Exception α) : Work α := fun r =>
  match read r.cells with
  | .ok a => .ok a r
  | .error e => .error (.exception e) r

def clock : Work Clock := return (← get).clock

def write (s : Stream) (text : String) : Work Unit :=
  modify fun r => { r with writes := r.writes.push (s, text) }

def items (v : Value) : Work (List Value) := readingExcept fun h => v.items h

def display (v : Value) : Work String := reading fun h => v.display h

def repr (v : Value) : Work String := reading fun h => v.repr h

def truthy (v : Value) : Work Bool := reading fun h => v.truthy h

/-- The value as the specification says. -/
def format (v : Value) (spec : String) : Work String := fun r =>
  match v.format r.cells spec with
  | .ok text => .ok text r
  | .error (.exception e) => .error (.exception e) r
  | .error failure => .error (.crash failure.crashMessage) r

end Work

end SnippetKernel
