import SnippetKernel.Program.Machine

/-! How a piece of a program ends, and the ways to put pieces together that control what comes next:
loops, handling, and changes that are undone afterwards. -/
namespace SnippetKernel

/-- How a statement ends that raises nothing. -/
inductive Flow where
  | normal
  /-- `break` -/
  | stop
  /-- `continue` -/
  | next
  | ret (v : Value)

namespace Run

variable {α : Type}

/-- The work, and then a change of the machine, which an exception does not prevent. Nothing follows a
crash. -/
def ensure (work : Run α) (after : Machine → Machine) : Run α := fun m =>
  match work m with
  | .ok a m => .ok a (after m)
  | .error (.fault f) m => .error (.fault f) (after m)
  | .error halt m => .error halt m

/-- The work, and the exception that it raised, if any, as a result. -/
def attempt (work : Run α) : Run (Except Fault α) := fun m =>
  match work m with
  | .ok a m => .ok (.ok a) m
  | .error (.fault f) m => .ok (.error f) m
  | .error halt m => .error halt m

/-- Gives the result of an attempt, or raises its exception. -/
def ofAttempt : Except Fault α → Run α
  | .ok a => pure a
  | .error f => throw (.fault f)

/-- Runs `body` while `cond` holds, for at most the given number of turns. -/
def whileTrue (cond : Run Bool) (body : Run Flow) : Nat → Run Flow
  | 0 => throw .turns
  | turns + 1 => do
    if ← cond then
      match ← body with
      | .stop => return .normal
      | .ret v => return .ret v
      | _ => whileTrue cond body turns
    else return .normal

/-- Runs the body for each item. -/
def forEach (body : α → Run Flow) : List α → Run Flow
  | [] => return .normal
  | item :: rest => do
    match ← body item with
    | .stop => return .normal
    | .ret v => return .ret v
    | _ => forEach body rest

/-- Runs the body for the elements of a range from the `i`-th on; `left` says how many these are. The
elements are made one by one, so a long range costs nothing until it is walked. -/
def forRange (body : Value → Run Flow) (r : Range) (i : Nat) : (left : Nat) → Run Flow
  | 0 => return .normal
  | left + 1 => do
    match r.get? i with
    | none => return .normal
    | some n =>
      match ← body (.int n) with
      | .stop => return .normal
      | .ret v => return .ret v
      | _ => forRange body r (i + 1) left

/-- What `element` gives for the items, without the items for which it gives nothing. -/
def collect (element : Value → Run (Option Value)) (found : Array Value) :
    List Value → Run (Array Value)
  | [] => return found
  | item :: rest => do
    match ← element item with
    | some v => collect element (found.push v) rest
    | none => collect element found rest

/-- Runs a call in a frame of its own. -/
def inFrame (frame : Frame) (work : Run α) : Run α := do
  modify fun m => { m with frames := frame :: m.frames }
  work.ensure fun m => { m with frames := m.frames.tail }

/-- Work during which an exception counts as the one being handled. -/
def whileHandling (handled : Handled) (work : Run α) : Run α := do
  modify fun m => { m with handling := handled :: m.handling }
  work.ensure fun m => { m with handling := m.handling.tail }

/-- Gives the names their former bindings back. -/
def rebind (m : Machine) : List (String × Option Value) → Machine
  | [] => m
  | (name, some v) :: rest => rebind (m.bind name v) rest
  | (name, none) :: rest => rebind (m.unbind name) rest

/-- Work that may bind the names; afterwards they are bound as before. -/
def keeping (names : List String) (work : Run α) : Run α := do
  let m ← get
  let saved := names.map fun name => (name, m.binding? name)
  work.ensure (rebind · saved)

end Run

end SnippetKernel
