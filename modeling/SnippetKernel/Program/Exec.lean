import SnippetKernel.Program.Eval

/-! Statements. A block ends with the first statement that does not end normally. -/
namespace SnippetKernel

open Source

namespace Run

/-- Puts the code of a function on the heap. -/
def newCode (code : Code) : Run Nat :=
  modifyGet fun m =>
    (m.heap.codes.size, { m with heap := { m.heap with codes := m.heap.codes.push code } })

/-- Notes the statement that is running in an exception that passes by. -/
def tracing {α : Type} (line : Nat) (work : Run α) : Run α := fun m =>
  match work m with
  | .ok a m => .ok a m
  | .error (.fault f) m => .error (.fault (f.recordFrame m.depth line m.scope)) m
  | .error halt m => .error halt m

/-- Takes the names from the namespace from now on, in the innermost call. -/
def declareGlobal (names : List String) : Run Unit := modify fun m =>
  match m.frames with
  | frame :: frames => { m with frames := { frame with globals := frame.globals ++ names } :: frames }
  | [] => m

def load : List (String × Option String) → Run Unit
  | [] => return
  | (name, other) :: rest => do
    match Module.ofText? name with
    | some m => bind (other.getD name) (.module m)
    | none => Work.raise .moduleNotFound ("No module named '" ++ name ++ "'")
    load rest

/-- The exception being handled, raised again. -/
def reraise : Run Flow := do
  match (← get).handling with
  | handled :: _ => throw (.fault (.ofException handled.exception handled.id))
  | [] => Work.raise .runtime "No active exception to reraise"

/-- Raises what the value stands for. -/
def raiseValue (v : Value) : Run Flow := do
  match v with
  | .exception id e => throw (.fault (.ofException e (some id)))
  | .type (.exception kind) => Work.raise kind ""
  | _ => Work.raiseTypeError "exceptions must derive from BaseException"

mutual

/-- A class, or one of a tuple of classes, is that of the exception or above it. -/
def isCaughtBy (kind : ExceptionKind) : Value → Run Bool
  | .type (.exception base) => return kind.derivesFrom base
  | .tuple _ classes => isCaughtByAny kind classes
  | _ => Work.raiseTypeError "catching classes that do not inherit from BaseException is not allowed"

def isCaughtByAny (kind : ExceptionKind) : List Value → Run Bool
  | [] => return false
  | v :: rest => do if ← isCaughtBy kind v then return true else isCaughtByAny kind rest

end

/-- Runs a handler's body. The name is bound to the exception only there. -/
def handlingAs (handled : Handled) (name : Option String) (body : Run Flow) : Run Flow := do
  let body := whileHandling handled body
  match name with
  | some name =>
    bind name (.exception handled.id handled.exception)
    body.ensure (·.unbind name)
  | none => body

/-- Handles an exception, which gets a number if it has none. -/
def handling (fault : Fault) (name : Option String) (body : Run Flow) : Run Flow := do
  let id ←
    match fault.id with
    | some id => pure id
    | none => Work.onHeap HeapM.freshId
  handlingAs ⟨fault.exception, id⟩ name body

end Run

/-- What statements need from outside: what calls do, and how often a `while` loop may turn. -/
structure Outside where
  call : ValueCaller
  turns : Nat

namespace Exec

def defaults (call : ValueCaller) : List Param → Run (List (Option Value))
  | [] => return []
  | param :: rest => do
    let value ←
      match param.default with
      | some e => some <$> Eval.expr call e
      | none => pure none
    return value :: (← defaults call rest)

def define (call : ValueCaller) (code : Code) : Run Unit := do
  let values ← defaults call code.params
  let id ← Work.onHeap HeapM.freshId
  let ref ← Run.newCode code
  Run.bind code.name (.function id code.name ref values)

/-- Visits the items of a value; the integers of a range are made one by one. -/
def visit (v : Value) (body : Value → Run Flow) : Run Flow := do
  match v with
  | .range r => Run.forRange body r 0 r.size
  | v => Run.forEach body (← Work.items v)

def assert (call : ValueCaller) (cond : Expr) (message : Option Expr) : Run Unit := do
  let v ← Eval.expr call cond
  unless ← Work.truthy v do
    match message with
    | some e =>
      let v ← Eval.expr call e
      Work.raise .assertion (← Work.display v)
    | none => Work.raise .assertion ""

mutual

def block (o : Outside) : List Stmt → Run Flow
  | [] => return .normal
  | .mk line kind :: rest => do
    match ← Run.tracing line (statement o kind) with
    | .normal => block o rest
    | flow => return flow

def statement (o : Outside) : StmtKind → Run Flow
  | .expr value => do
    let _ ← Eval.expr o.call value
    return .normal
  | .assign targets value => do
    let v ← Eval.expr o.call value
    Eval.assignEach o.call v targets
    return .normal
  | .augAssign target op value => do
    Eval.augAssign o.call op value target
    return .normal
  | .cond branches orelse => branch o (block o orelse) branches
  | .loop cond body =>
    Run.whileTrue (do Work.truthy (← Eval.expr o.call cond)) (block o body) o.turns
  | .each target source body => do
    let v ← Eval.expr o.call source
    visit v fun item => do
      Eval.assign o.call target item
      block o body
  | .define name params body => do
    define o.call ⟨name, params, body⟩
    return .normal
  | .ret (some value) => do return .ret (← Eval.expr o.call value)
  | .ret none => return .ret .none
  | .raise (some value) => do
    let v ← Eval.expr o.call value
    Run.raiseValue v
  | .raise none => Run.reraise
  | .attempt body handlers orelse finally_ => do
    let outcome ← Run.attempt do
      match ← Run.attempt (block o body) with
      | .error fault => handle o fault handlers
      | .ok .normal => block o orelse
      | .ok flow => return flow
    match ← block o finally_ with
    | .normal => Run.ofAttempt outcome
    | flow => return flow
  | .assert cond message => do
    assert o.call cond message
    return .normal
  | .del targets => do
    Eval.deleteAll o.call targets
    return .normal
  | .load modules => do
    Run.load modules
    return .normal
  | .global names => do
    Run.declareGlobal names
    return .normal
  | .pass => return .normal
  | .stop => return .stop
  | .next => return .next

/-- The first branch whose condition holds, or else `orelse`. -/
def branch (o : Outside) (orelse : Run Flow) : List (Expr × List Stmt) → Run Flow
  | [] => orelse
  | (cond, body) :: rest => do
    let v ← Eval.expr o.call cond
    if ← Work.truthy v then block o body else branch o orelse rest

/-- The first handler that catches the exception; without one it is raised again. -/
def handle (o : Outside) (fault : Fault) : List Handler → Run Flow
  | [] => throw (.fault fault)
  | .mk none name body :: _ => Run.handling fault name (block o body)
  | .mk (some class_) name body :: rest => do
    let v ← Eval.expr o.call class_
    if ← Run.isCaughtBy fault.exception.kind v then Run.handling fault name (block o body)
    else handle o fault rest

end

end Exec

end SnippetKernel
