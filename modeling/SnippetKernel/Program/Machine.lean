import SnippetKernel.Program.Fault
import SnippetKernel.Program.Namespace
import SnippetKernel.Program.Work

/-! The state of a running program, and what can end a piece of it. -/
namespace SnippetKernel

/-- A call that is running. -/
structure Frame where
  scope : String
  locals : Namespace Value
  /-- Names that the call has declared to be those of the namespace. -/
  globals : List String

/-- An exception that a handler is dealing with. -/
structure Handled where
  exception : Exception
  id : Nat

structure Machine where
  names : Namespace Value
  heap : Heap
  /-- The running calls, innermost first. -/
  frames : List Frame
  /-- The exceptions being handled, innermost first. -/
  handling : List Handled
  /-- What was written, one element for each time something was. -/
  writes : Array (Stream × String)
  clock : Clock

/-- Why a piece of a program did not come to its end. -/
inductive Halt where
  | fault (f : Fault)
  /-- The interpreter gave up; no handler of the program sees that. -/
  | crash (message : String)
  /-- A `while` loop used up the turns it was given. -/
  | turns

abbrev Run := EStateM Halt Machine

namespace Machine

def start (names : Namespace Value) (heap : Heap) (clock : Clock) : Machine :=
  ⟨names, heap, [], [], #[], clock⟩

def depth (m : Machine) : Nat := m.frames.length

/-- The name of the innermost call. -/
def scope (m : Machine) : String :=
  match m.frames with
  | frame :: _ => frame.scope
  | [] => "<module>"

/-- The frame that a plain assignment to the name writes to; none for a name of the namespace. -/
def localFrame? (m : Machine) (name : String) : Option Frame :=
  match m.frames with
  | frame :: _ => if frame.globals.contains name then none else some frame
  | [] => none

/-- Binds the name in the innermost call, or in the namespace. -/
def bind (m : Machine) (name : String) (v : Value) : Machine :=
  match m.frames with
  | frame :: frames =>
    if frame.globals.contains name then { m with names := m.names.set name v }
    else { m with frames := { frame with locals := frame.locals.set name v } :: frames }
  | [] => { m with names := m.names.set name v }

/-- What the name is bound to where an assignment would bind it. -/
def binding? (m : Machine) (name : String) : Option Value :=
  match m.localFrame? name with
  | some frame => frame.locals.find? name
  | none => m.names.find? name

def unbind (m : Machine) (name : String) : Machine :=
  match m.frames with
  | frame :: frames =>
    if frame.globals.contains name then { m with names := m.names.remove name }
    else { m with frames := { frame with locals := frame.locals.remove name } :: frames }
  | [] => { m with names := m.names.remove name }

/-- What the name means: a local binding, a binding of the namespace, in this order. -/
def lookup? (m : Machine) (name : String) : Option Value :=
  ((m.localFrame? name).bind fun frame => frame.locals.find? name).or (m.names.find? name)

end Machine

namespace Run

/-- Work as a part of the program. -/
def ofWork {α : Type} (work : Work α) : Run α := fun m =>
  match m with
  | ⟨names, ⟨cells, codes⟩, frames, handling, writes, clock⟩ =>
    match work ⟨cells, clock, #[]⟩ with
    | .ok a ⟨cells, clock, more⟩ =>
      .ok a ⟨names, ⟨cells, codes⟩, frames, handling, writes ++ more, clock⟩
    | .error (.exception e) ⟨cells, clock, more⟩ =>
      .error (.fault (.ofException e none))
        ⟨names, ⟨cells, codes⟩, frames, handling, writes ++ more, clock⟩
    | .error (.crash message) ⟨cells, clock, more⟩ =>
      .error (.crash message) ⟨names, ⟨cells, codes⟩, frames, handling, writes ++ more, clock⟩

instance : MonadLift Work Run := ⟨ofWork⟩

end Run

end SnippetKernel
