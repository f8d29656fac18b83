import SnippetKernel.Proofs.Program.ShiftedExpressions

/-! Statements behind what was left on the heap. A function that is defined there has its code behind the code that
was left. -/
namespace SnippetKernel

open Source Run

variable {left : Heap} {clock : Clock}

namespace Run.Shifts

theorem newCode (code : Code) :
    Shifts left clock (left.codes.size + ·) (Run.newCode code) (Run.newCode code) := by
  intro m
  have size : (m.shift left clock).heap.codes.size = left.codes.size + m.heap.codes.size := Array.size_append
  have pushed : (m.shift left clock).heap.codes.push code = left.codes ++ m.heap.codes.push code :=
    (Array.append_push ..).symm
  change EStateM.Result.ok (m.shift left clock).heap.codes.size
      { m.shift left clock with
        heap := { (m.shift left clock).heap with codes := (m.shift left clock).heap.codes.push code } } = _
  rw [size, pushed]
  rfl

theorem declareGlobal (names : List String) :
    Shifts left clock id (Run.declareGlobal names) (Run.declareGlobal names) := by
  apply change
  intro m
  obtain ⟨known, heap, _ | ⟨frame, outer⟩, handling, writes, time⟩ := m <;> rfl

theorem load (modules : List (String × Option String)) :
    Shifts left clock id (Run.load modules) (Run.load modules) := by
  induction modules with
  | nil => exact done rfl
  | cons entry rest ih =>
    unfold Run.load
    cases Module.ofText? entry.1 with
    | some m => exact (bind _ (.module m)).before fun _ => ih
    | none => exact (ofWork (.raise _ _)).before fun _ => ih

theorem reraise : Shifts left clock (Flow.shift left) Run.reraise Run.reraise := by
  apply look
  intro m
  obtain ⟨names, heap, frames, _ | ⟨handled, rest⟩, writes, time⟩ := m
  · exact ofWork (.raise _ _)
  · exact halt rfl

theorem raiseValue (v : Value) :
    Shifts left clock (Flow.shift left) (Run.raiseValue v) (Run.raiseValue (v.shift left)) := by
  have refused (message : String) : Shifts left clock (Flow.shift left) (Run.ofWork (Work.raiseTypeError message))
      (Run.ofWork (Work.raiseTypeError message)) := ofWork (.raiseTypeError message)
  cases v with
  | exception id e => exact halt rfl
  | type t =>
    cases t with
    | exception kind => exact ofWork (.raise _ _)
    | _ => exact refused _
  | _ => exact refused _

mutual

theorem isCaughtBy (kind : ExceptionKind) (v : Value) :
    Shifts left clock id (Run.isCaughtBy kind v) (Run.isCaughtBy kind (v.shift left)) := by
  have refused (message : String) : Shifts left clock id (Run.ofWork (Work.raiseTypeError (α := Bool) message))
      (Run.ofWork (Work.raiseTypeError message)) := ofWork (.raiseTypeError message)
  cases v with
  | type t =>
    cases t with
    | exception base =>
      simp only [Value.shift_type, Run.isCaughtBy]
      exact done rfl
    | _ =>
      simp only [Value.shift_type, Run.isCaughtBy]
      exact refused _
  | tuple id classes =>
    simp only [Value.shift_tuple, Run.isCaughtBy]
    exact isCaughtByAny kind classes
  | function id name code defaults =>
    simp only [Value.shift_function, Run.isCaughtBy]
    exact refused _
  | _ => exact fun _ => .inr rfl

theorem isCaughtByAny (kind : ExceptionKind) (classes : List Value) :
    Shifts left clock id (Run.isCaughtByAny kind classes)
      (Run.isCaughtByAny kind (classes.map (Value.shift left))) := by
  cases classes with
  | nil =>
    simp only [List.map_nil, Run.isCaughtByAny]
    exact done rfl
  | cons v rest =>
    simp only [List.map_cons, Run.isCaughtByAny]
    apply (isCaughtBy kind v).before
    intro caught
    cases caught with
    | false => exact isCaughtByAny kind rest
    | true => exact done rfl

end

theorem handlingAs (handled : Handled) (name : Option String) {body body' : Run Flow}
    (bodies : Shifts left clock (Flow.shift left) body body') :
    Shifts left clock (Flow.shift left) (Run.handlingAs handled name body)
      (Run.handlingAs (handled.shift left) name body') := by
  have inside := whileHandling handled bodies
  cases name with
  | none => exact inside
  | some name =>
    apply (bind name (.exception handled.id handled.exception)).before
    intro _
    exact inside.ensure fun m => m.unbind_shift name

/-- A handler numbers the exception when it had no number. -/
theorem handling (fault : Fault) (name : Option String) {body body' : Run Flow}
    (bodies : Shifts left clock (Flow.shift left) body body') :
    Shifts left clock (Flow.shift left) (Run.handling fault name body)
      (Run.handling (fault.shift left) name body') := by
  obtain ⟨exception, _ | id, trace, syntaxLine⟩ := fault
  · exact (ofWork (.onHeap HeapM.shifts_freshId)).andThen fun id => handlingAs ⟨exception, id⟩ name bodies
  · exact handlingAs ⟨exception, id⟩ name bodies

end Run.Shifts

namespace Exec

variable {call copy : ValueCaller}

theorem shifts_defaults (calls : ShiftCalls left clock call copy) (params : List Param) :
    Shifts left clock (List.map (Option.map (Value.shift left))) (defaults call params) (defaults copy params) := by
  induction params with
  | nil => exact .done rfl
  | cons param rest ih =>
    simp only [defaults]
    cases param.default with
    | none => exact ih.andThen fun _ => .done rfl
    | some e =>
      have value : Shifts left clock (Option.map (Value.shift left)) (some <$> Eval.expr call e)
          (some <$> Eval.expr copy e) := (Eval.shifts_expr calls e).map fun _ => rfl
      exact value.andThen fun _ => ih.andThen fun _ => .done rfl

theorem shifts_define (calls : ShiftCalls left clock call copy) (code : Code) :
    Shifts left clock id (define call code) (define copy code) := by
  apply (shifts_defaults calls code.params).andThen
  intro values
  apply (Shifts.ofWork (.onHeap HeapM.shifts_freshId)).andThen
  intro id
  apply (Shifts.newCode code).andThen
  intro ref
  have bound : Shifts left clock _ _ _ := .bind code.name (.function id code.name ref values)
  rw [Value.shift_function] at bound
  exact bound

theorem shifts_visit (v : Value) {body body' : Value → Run Flow}
    (bodies : ∀ v, Shifts left clock (Flow.shift left) (body v) (body' (v.shift left))) :
    Shifts left clock (Flow.shift left) (visit v body) (visit (v.shift left) body') := by
  have others (v : Value) : Shifts left clock (Flow.shift left) (do Run.forEach body (← Work.items v))
      (do Run.forEach body' (← Work.items (v.shift left))) :=
    (Shifts.ofWork (.items v)).andThen fun items => .forEach bodies items
  cases v with
  | range r => exact .forRange bodies r 0 r.size
  | _ => exact others _

theorem shifts_assert (calls : ShiftCalls left clock call copy) (cond : Expr) (message : Option Expr) :
    Shifts left clock id (assert call cond message) (assert copy cond message) := by
  apply (Eval.shifts_expr calls cond).andThen
  intro v
  apply Eval.shifts_test v (.done rfl)
  cases message with
  | none => exact .ofWork (.raise _ _)
  | some e =>
    apply (Eval.shifts_expr calls e).andThen
    intro v
    exact (Shifts.ofWork (.display v)).before fun _ => .ofWork (.raise _ _)

/-- A statement that ends normally lets the next one follow. -/
theorem shifts_sequel {last last' : Run Flow} (lasts : Shifts left clock (Flow.shift left) last last') (flow : Flow) :
    Shifts left clock (Flow.shift left)
      (match flow with
        | .normal => last
        | flow => return flow)
      (match flow.shift left with
        | .normal => last'
        | flow => return flow) := by
  cases flow with
  | normal => exact lasts
  | stop => exact .done rfl
  | next => exact .done rfl
  | ret v => exact .done rfl

mutual

theorem shifts_block (calls : ShiftCalls left clock call copy) (turns : Nat) (body : List Stmt) :
    Shifts left clock (Flow.shift left) (block ⟨call, turns⟩ body) (block ⟨copy, turns⟩ body) := by
  cases body with
  | nil =>
    simp only [block]
    exact .done rfl
  | cons s rest =>
    obtain ⟨line, kind⟩ := s
    simp only [block]
    exact (Shifts.tracing line (shifts_statement calls turns kind)).andThen <|
      shifts_sequel (shifts_block calls turns rest)

theorem shifts_statement (calls : ShiftCalls left clock call copy) (turns : Nat) (kind : StmtKind) :
    Shifts left clock (Flow.shift left) (statement ⟨call, turns⟩ kind) (statement ⟨copy, turns⟩ kind) := by
  cases kind with
  | expr value =>
    simp only [statement]
    exact (Eval.shifts_expr calls value).andThen fun _ => .done rfl
  | assign targets value =>
    simp only [statement]
    apply (Eval.shifts_expr calls value).andThen
    intro v
    exact (Eval.shifts_assignEach calls v targets).before fun _ => .done rfl
  | augAssign target op value =>
    simp only [statement]
    exact (Eval.shifts_augAssign calls op value target).before fun _ => .done rfl
  | cond branches orelse =>
    simp only [statement]
    exact shifts_branch calls turns (shifts_block calls turns orelse) branches
  | loop cond body =>
    simp only [statement]
    refine .whileTrue ?_ (shifts_block calls turns body) turns
    exact (Eval.shifts_expr calls cond).andThen fun v => .ofWork (.truthy v)
  | each target source body =>
    simp only [statement]
    apply (Eval.shifts_expr calls source).andThen
    intro v
    apply shifts_visit
    intro item
    exact (Eval.shifts_assign calls target item).before fun _ => shifts_block calls turns body
  | define name params body =>
    simp only [statement]
    exact (shifts_define calls ⟨name, params, body⟩).before fun _ => .done rfl
  | ret value =>
    cases value with
    | none =>
      simp only [statement]
      exact .done rfl
    | some value =>
      simp only [statement]
      exact (Eval.shifts_expr calls value).andThen fun _ => .done rfl
  | raise value =>
    cases value with
    | none =>
      simp only [statement]
      exact .reraise
    | some value =>
      simp only [statement]
      exact (Eval.shifts_expr calls value).andThen fun v => .raiseValue v
  | attempt body handlers orelse final =>
    simp only [statement]
    have outcomes : Shifts left clock (shiftAttempt left (Flow.shift left))
        (Run.attempt do
          match ← Run.attempt (block ⟨call, turns⟩ body) with
          | .error fault => handle ⟨call, turns⟩ fault handlers
          | .ok .normal => block ⟨call, turns⟩ orelse
          | .ok flow => return flow)
        (Run.attempt do
          match ← Run.attempt (block ⟨copy, turns⟩ body) with
          | .error fault => handle ⟨copy, turns⟩ fault handlers
          | .ok .normal => block ⟨copy, turns⟩ orelse
          | .ok flow => return flow) := by
      apply Shifts.attempt
      apply (shifts_block calls turns body).attempt.andThen
      intro outcome
      cases outcome with
      | error fault => exact shifts_handle calls turns fault handlers
      | ok flow =>
        cases flow with
        | normal => exact shifts_block calls turns orelse
        | stop => exact .done rfl
        | next => exact .done rfl
        | ret v => exact .done rfl
    apply outcomes.andThen
    intro outcome
    exact (shifts_block calls turns final).andThen (shifts_sequel (.ofAttempt outcome))
  | assert cond message =>
    simp only [statement]
    exact (shifts_assert calls cond message).before fun _ => .done rfl
  | del targets =>
    simp only [statement]
    exact (Eval.shifts_deleteAll calls targets).before fun _ => .done rfl
  | load modules =>
    simp only [statement]
    exact (Shifts.load modules).before fun _ => .done rfl
  | global names =>
    simp only [statement]
    exact (Shifts.declareGlobal names).before fun _ => .done rfl
  | pass | stop | next =>
    simp only [statement]
    exact .done rfl

theorem shifts_branch (calls : ShiftCalls left clock call copy) (turns : Nat) {orelse orelse' : Run Flow}
    (others : Shifts left clock (Flow.shift left) orelse orelse') (branches : List (Expr × List Stmt)) :
    Shifts left clock (Flow.shift left) (branch ⟨call, turns⟩ orelse branches)
      (branch ⟨copy, turns⟩ orelse' branches) := by
  cases branches with
  | nil =>
    simp only [branch]
    exact others
  | cons first rest =>
    simp only [branch]
    apply (Eval.shifts_expr calls first.1).andThen
    exact fun v => Eval.shifts_test v (shifts_block calls turns first.2) (shifts_branch calls turns others rest)

theorem shifts_handle (calls : ShiftCalls left clock call copy) (turns : Nat) (fault : Fault)
    (handlers : List Handler) :
    Shifts left clock (Flow.shift left) (handle ⟨call, turns⟩ fault handlers)
      (handle ⟨copy, turns⟩ (fault.shift left) handlers) := by
  cases handlers with
  | nil =>
    simp only [handle]
    exact .halt rfl
  | cons first rest =>
    obtain ⟨class_, name, body⟩ := first
    cases class_ with
    | none =>
      simp only [handle]
      exact .handling fault name (shifts_block calls turns body)
    | some class_ =>
      simp only [handle]
      apply (Eval.shifts_expr calls class_).andThen
      intro v
      apply (Shifts.isCaughtBy fault.exception.kind v).before
      intro caught
      cases caught with
      | false => exact shifts_handle calls turns fault rest
      | true => exact .handling fault name (shifts_block calls turns body)

end

end Exec

end SnippetKernel
