import SnippetKernel.Program.Call
import SnippetKernel.Proofs.Program.Evaluation

/-! Programs that know where they are. The lines of the statements that are running are handed down, from each
statement to those inside it and to the calls that it makes; and when an exception is raised, all the calls that are
running are written down at once. Nothing is added on the way up.

A program, and the same program as it knows where it is. The one collects the entries of a traceback call by
call while an exception passes, the other has them from the beginning. So an exception has, in each call, the
entries of that call and those inside it in the one run, and all entries in the other. -/
namespace SnippetKernel

open Source

/-- The names of the running calls, innermost first. The program itself is the last. -/
def Machine.scopes (m : Machine) : List String := m.frames.map (·.scope) ++ ["<module>"]

/-- The entries of a traceback: the innermost call comes first, and has the greatest depth. -/
def standing : List String → List Nat → List TraceEntry
  | scope :: scopes, line :: lines => ⟨scopes.length, line, scope⟩ :: standing scopes lines
  | _, _ => []

namespace Run

/-- A statement that runs with these lines. An exception that was raised by it is given the entries of all running
calls; one that comes from a statement inside, or from a call, has them already. -/
def noting {α : Type} (lines : List Nat) (work : Run α) : Run α := fun m =>
  match work m with
  | .ok a m => .ok a m
  | .error (.fault f) m =>
    .error (.fault (if f.trace = [] then { f with trace := standing m.scopes lines } else f)) m
  | .error halt m => .error halt m

end Run

namespace Placed

/-! `outer` are the lines of the statements that made the running calls. Calls are told all lines, that of the
statement included in which they stand. -/

variable (call : List Nat → ValueCaller) (turns : Nat)

mutual

def block (outer : List Nat) : List Stmt → Run Flow
  | [] => return .normal
  | .mk line kind :: rest => do
    match ← Run.noting (line :: outer) (statement outer line kind) with
    | .normal => block outer rest
    | flow => return flow

def statement (outer : List Nat) (line : Nat) : StmtKind → Run Flow
  | .cond branches orelse => branch outer line (block outer orelse) branches
  | .loop cond body =>
    Run.whileTrue (do Work.truthy (← Eval.expr (call (line :: outer)) cond)) (block outer body) turns
  | .each target source body => do
    let v ← Eval.expr (call (line :: outer)) source
    Exec.visit v fun item => do
      Eval.assign (call (line :: outer)) target item
      block outer body
  | .attempt body handlers orelse finally_ => do
    let outcome ← Run.attempt do
      match ← Run.attempt (block outer body) with
      | .error fault => handle outer line fault handlers
      | .ok .normal => block outer orelse
      | .ok flow => return flow
    match ← block outer finally_ with
    | .normal => Run.ofAttempt outcome
    | flow => return flow
  | kind => Exec.statement ⟨call (line :: outer), turns⟩ kind

def branch (outer : List Nat) (line : Nat) (orelse : Run Flow) : List (Expr × List Stmt) → Run Flow
  | [] => orelse
  | (cond, body) :: rest => do
    let v ← Eval.expr (call (line :: outer)) cond
    if ← Work.truthy v then block outer body else branch outer line orelse rest

def handle (outer : List Nat) (line : Nat) (fault : Fault) : List Handler → Run Flow
  | [] => throw (.fault fault)
  | .mk none name body :: _ => Run.handling fault name (block outer body)
  | .mk (some class_) name body :: rest => do
    let v ← Eval.expr (call (line :: outer)) class_
    if ← Run.isCaughtBy fault.exception.kind v then Run.handling fault name (block outer body)
    else handle outer line fault rest

end

/-- A call of a function that is made by the statements with these lines. -/
def function (turns : Nat) : (room : Nat) → List Nat → Call.FunctionCaller
  | 0, _, _, _, _, _ => Work.raise .recursion "maximum recursion depth exceeded"
  | room + 1, lines, ref, defaults, args, keywords => do
    let code := (← get).heap.code ref
    let locals ← Work.ofExcept (Call.bindArguments code defaults args keywords)
    let flow ← Run.inFrame ⟨code.name, locals, []⟩
      (block (fun lines => Call.value (function turns room lines)) turns lines code.body)
    match flow with
    | .ret v => return v
    | _ => return .none

end Placed

/-- The program, which notes all running calls where an exception is raised. -/
def Run.programPlaced (limits : Limits) (body : List Stmt) : Run Unit := do
  let _ ← Placed.block (fun lines => Call.value (Placed.function limits.turns limits.depth lines)) limits.turns [] body

/-! ### Running calls -/

namespace Machine

variable {m n : Machine} {scope : String} {callers : List String}

theorem scope_of_scopes (here : m.scopes = scope :: callers) : m.scope = scope := by
  obtain ⟨names, heap, _ | ⟨frame, outer⟩, handling, writes, clock⟩ := m <;> exact (List.cons.inj here).1

theorem depth_of_scopes (here : m.scopes = scope :: callers) : m.depth = callers.length := by
  have lengths := congrArg List.length here
  simpa [scopes, depth] using lengths

theorem scopes_bind (m : Machine) (name : String) (v : Value) : (m.bind name v).scopes = m.scopes := by
  obtain ⟨names, heap, _ | ⟨frame, outer⟩, handling, writes, clock⟩ := m
  · rfl
  · unfold bind
    simp only
    split <;> rfl

theorem scopes_unbind (m : Machine) (name : String) : (m.unbind name).scopes = m.scopes := by
  obtain ⟨names, heap, _ | ⟨frame, outer⟩, handling, writes, clock⟩ := m
  · rfl
  · unfold unbind
    simp only
    split <;> rfl

theorem scopes_rebind (m : Machine) (saved : List (String × Option Value)) :
    (Run.rebind m saved).scopes = m.scopes := by
  induction saved generalizing m with
  | nil => rfl
  | cons entry rest ih =>
    obtain ⟨name, _ | v⟩ := entry
    · exact (ih _).trans (m.scopes_unbind name)
    · exact (ih _).trans (m.scopes_bind name v)

/-- What is left when a call ends. -/
theorem scopes_tail (here : n.scopes = scope :: callers) (inside : callers ≠ []) :
    { n with frames := n.frames.tail }.scopes = callers := by
  obtain ⟨names, heap, _ | ⟨frame, outer⟩, handling, writes, clock⟩ := n
  · exact absurd (List.cons.inj here).2.symm inside
  · exact (List.cons.inj here).2

end Machine

/-! ### Exceptions on their way -/

/-- Entries for all calls that were running somewhere, one for each, down to the program itself. -/
def Complete (trace : List TraceEntry) : Prop :=
  ∃ scopes lines, lines.length = scopes.length ∧ scopes.getLast? = some "<module>" ∧ trace = standing scopes lines

/-- The exception has the entries of the calls down to `depth`. With those of the calls around it has all. -/
structure Noted (depth : Nat) (around : List TraceEntry) (f whole : Fault) : Prop where
  down_to : f.trace.getLast?.map (·.depth) = some depth
  whole_eq : whole = { f with trace := f.trace ++ around }
  complete : Complete whole.trace
  program : f.syntaxLine = none

/-- An exception inside a statement. -/
inductive Raised (scope : String) (callers : List String) (line : Nat) (outer : List Nat) : Fault → Fault → Prop
  /-- The statement itself raised it. -/
  | here {f : Fault} : f.trace = [] → f.syntaxLine = none → Raised scope callers line outer f f
  /-- It comes from a call that the statement made. -/
  | called {f whole : Fault} : Noted (callers.length + 1) (standing (scope :: callers) (line :: outer)) f whole →
    Raised scope callers line outer f whole
  /-- It comes from a statement inside. -/
  | inside {f whole : Fault} : Noted callers.length (standing callers outer) f whole →
    Raised scope callers line outer f whole

namespace Noted

variable {depth : Nat} {around : List TraceEntry} {f whole : Fault}

theorem trace_ne_nil (noted : Noted depth around f whole) : f.trace ≠ [] := by
  intro none
  have last := noted.down_to
  rw [none] at last
  cases last

theorem whole_trace_ne_nil (noted : Noted depth around f whole) : whole.trace ≠ [] := by
  rw [noted.whole_eq]
  exact List.append_ne_nil_of_left_ne_nil noted.trace_ne_nil around

end Noted

namespace Raised

variable {scope : String} {callers : List String} {line : Nat} {outer : List Nat} {f whole : Fault}

theorem exception (raised : Raised scope callers line outer f whole) : whole.exception = f.exception := by
  cases raised with
  | here => rfl
  | called noted | inside noted => rw [noted.whole_eq]

theorem id (raised : Raised scope callers line outer f whole) : whole.id = f.id := by
  cases raised with
  | here => rfl
  | called noted | inside noted => rw [noted.whole_eq]

/-- When the exception leaves the statement, the call has its entry. -/
theorem noted (raised : Raised scope callers line outer f whole) (lines : outer.length = callers.length)
    (bottom : (scope :: callers).getLast? = some "<module>") :
    Noted callers.length (standing callers outer) (f.recordFrame callers.length line scope)
      (if whole.trace = [] then { whole with trace := standing (scope :: callers) (line :: outer) } else whole) := by
  have all_lines : (line :: outer).length = (scope :: callers).length := congrArg (· + 1) lines
  cases raised with
  | here empty program =>
    have recorded : f.recordFrame callers.length line scope = { f with trace := [⟨callers.length, line, scope⟩] } := by
      simp [Fault.recordFrame, empty, program]
    rw [recorded, if_pos empty]
    exact ⟨rfl, rfl, ⟨_, _, all_lines, bottom, rfl⟩, program⟩
  | called noted =>
    have recorded : f.recordFrame callers.length line scope =
        { f with trace := f.trace ++ [⟨callers.length, line, scope⟩] } := by
      simp [Fault.recordFrame, noted.down_to, noted.program]
    rw [recorded, if_neg noted.whole_trace_ne_nil]
    refine ⟨by simp, ?_, noted.complete, noted.program⟩
    rw [noted.whole_eq]
    simp [standing]
  | inside noted =>
    have recorded : f.recordFrame callers.length line scope = f := by
      simp [Fault.recordFrame, noted.down_to]
    rw [recorded, if_neg noted.whole_trace_ne_nil]
    exact noted

end Raised

/-! ### The relation -/

namespace Run

variable {α β : Type} {scopes : List String} {passes : Fault → Fault → Prop}

/-- The runs end alike, with the same calls running; their exceptions are related. -/
inductive EndsNoted (scopes : List String) (passes : Fault → Fault → Prop) :
    EStateM.Result Halt Machine α → EStateM.Result Halt Machine α → Prop
  | ok {a : α} {n : Machine} : n.scopes = scopes → EndsNoted scopes passes (.ok a n) (.ok a n)
  | fault {f whole : Fault} {n : Machine} : n.scopes = scopes → passes f whole →
    EndsNoted scopes passes (.error (.fault f) n) (.error (.fault whole) n)
  | crash {message : String} {n : Machine} :
    EndsNoted scopes passes (.error (.crash message) n) (.error (.crash message) n)
  | turns {n : Machine} : EndsNoted scopes passes (.error .turns n) (.error .turns n)

/-- `copy` does what `run` does where these calls run, and knows where it is. -/
def Notes (scopes : List String) (passes : Fault → Fault → Prop) (run copy : Run α) : Prop :=
  ∀ m : Machine, m.scopes = scopes → EndsNoted scopes passes (run m) (copy m)

namespace Notes

theorem done (a : α) : Notes scopes passes (pure a) (pure a) := fun _ here => .ok here

theorem halt {f whole : Fault} (related : passes f whole) :
    Notes scopes passes (throw (.fault f) : Run α) (throw (.fault whole)) :=
  fun _ here => .fault here related

theorem turns : Notes scopes passes (throw .turns : Run α) (throw .turns) := fun _ _ => .turns

theorem andThen {run copy : Run α} {next after : α → Run β} (first : Notes scopes passes run copy)
    (second : ∀ a, Notes scopes passes (next a) (after a)) :
    Notes scopes passes (run >>= next) (copy >>= after) := by
  intro m here
  have ends := first m here
  change EndsNoted scopes passes (EStateM.bind run next m) (EStateM.bind copy after m)
  unfold EStateM.bind
  generalize run m = result at ends ⊢
  generalize copy m = result' at ends ⊢
  cases ends with
  | ok here => exact second _ _ here
  | fault here related => exact .fault here related
  | crash => exact .crash
  | turns => exact .turns

theorem attempt {run copy : Run α} {caught : Fault → Fault → Prop} {next after : Except Fault α → Run β}
    (first : Notes scopes caught run copy) (second : ∀ a, Notes scopes passes (next (.ok a)) (after (.ok a)))
    (third : ∀ f whole, caught f whole → Notes scopes passes (next (.error f)) (after (.error whole))) :
    Notes scopes passes (run.attempt >>= next) (copy.attempt >>= after) := by
  intro m here
  have ends := first m here
  change EndsNoted scopes passes (EStateM.bind run.attempt next m) (EStateM.bind copy.attempt after m)
  unfold EStateM.bind Run.attempt
  generalize run m = result at ends ⊢
  generalize copy m = result' at ends ⊢
  cases ends with
  | ok here => exact second _ _ here
  | fault here related => exact third _ _ related _ here
  | crash => exact .crash
  | turns => exact .turns

theorem ensure {run copy : Run α} {last : Machine → Machine} (first : Notes scopes passes run copy)
    (kept : ∀ m : Machine, (last m).scopes = m.scopes) :
    Notes scopes passes (run.ensure last) (copy.ensure last) := by
  intro m here
  have ends := first m here
  unfold Run.ensure
  generalize run m = result at ends ⊢
  generalize copy m = result' at ends ⊢
  cases ends with
  | ok here => exact .ok ((kept _).trans here)
  | fault here related => exact .fault ((kept _).trans here) related
  | crash => exact .crash
  | turns => exact .turns

/-- A piece that looks at the machine. -/
theorem look {next after : Machine → Run β} (second : ∀ m, Notes scopes passes (next m) (after m)) :
    Notes scopes passes (MonadState.get >>= next) (MonadState.get >>= after) :=
  fun m here => second m m here

theorem change {f : Machine → Machine} (kept : ∀ m : Machine, (f m).scopes = m.scopes) :
    Notes scopes passes (modify f) (modify f) :=
  fun m here => .ok ((kept m).trans here)

theorem newCode (code : Code) : Notes scopes passes (Run.newCode code) (Run.newCode code) := fun _ here => .ok here

/-! ### Pieces inside a statement -/

section

variable {scope : String} {callers : List String} {line : Nat} {outer : List Nat}

theorem raise (e : Exception) (id : Option Nat) :
    Notes scopes (Raised scope callers line outer) (throw (.fault (.ofException e id)) : Run α)
      (throw (.fault (.ofException e id))) :=
  halt (.here rfl rfl)

theorem ofWork (work : Work α) :
    Notes scopes (Raised scope callers line outer) (Run.ofWork work) (Run.ofWork work) := by
  intro m here
  obtain ⟨names, ⟨cells, codes⟩, frames, handling, writes, clock⟩ := m
  simp only [Run.ofWork]
  rcases work ⟨cells, clock, #[]⟩ with ⟨a, r⟩ | ⟨refusal, r⟩
  · exact .ok here
  · cases refusal with
    | exception e => exact .fault here (.here rfl rfl)
    | crash message => exact .crash

theorem lookup (name : String) :
    Notes scopes (Raised scope callers line outer) (Run.lookup name) (Run.lookup name) := by
  refine look fun m => ?_
  split
  · exact .done _
  · exact .ofWork _

theorem unbind (name : String) :
    Notes scopes (Raised scope callers line outer) (Run.unbind name) (Run.unbind name) := by
  refine look fun m => ?_
  split
  · exact change fun m => m.scopes_unbind name
  · exact .ofWork _

theorem reraise : Notes scopes (Raised scope callers line outer) Run.reraise Run.reraise := by
  refine look fun m => ?_
  split
  · exact .raise _ _
  · exact .ofWork _

theorem keeping {run copy : Run α} (names : List String) (first : Notes scopes passes run copy) :
    Notes scopes passes (Run.keeping names run) (Run.keeping names copy) :=
  look fun _ => first.ensure fun n => n.scopes_rebind _

theorem whileHandling {run copy : Run α} (handled : Handled) (first : Notes scopes passes run copy) :
    Notes scopes passes (Run.whileHandling handled run) (Run.whileHandling handled copy) := by
  unfold Run.whileHandling
  refine (change fun m => ?_).andThen fun _ => first.ensure fun m => ?_
  · rfl
  · rfl

theorem declareGlobal (names : List String) :
    Notes scopes passes (Run.declareGlobal names) (Run.declareGlobal names) := by
  refine change fun m => ?_
  obtain ⟨known, heap, _ | ⟨frame, outer⟩, handling, writes, clock⟩ := m <;> rfl

theorem likeness : Likeness (Notes scopes (Raised scope callers line outer)) where
  done := .done
  raise := .raise
  turns := .turns
  andThen := .andThen
  ofWork := .ofWork
  lookup := .lookup
  bind name v := .change fun m => m.scopes_bind name v
  unbind := .unbind
  unbinding name first := first.ensure fun m => m.scopes_unbind name
  keeping := .keeping
  whileHandling := .whileHandling
  reraise := .reraise
  declareGlobal := .declareGlobal

/-! ### Statements and calls -/

theorem inside {run copy : Run α} (notes : Notes scopes (Noted callers.length (standing callers outer)) run copy) :
    Notes scopes (Raised scope callers line outer) run copy := by
  intro m here
  have ends := notes m here
  generalize run m = result at ends ⊢
  generalize copy m = result' at ends ⊢
  cases ends with
  | ok here => exact .ok here
  | fault here noted => exact .fault here (.inside noted)
  | crash => exact .crash
  | turns => exact .turns

theorem tracing {run copy : Run α} (lines : outer.length = callers.length)
    (bottom : (scope :: callers).getLast? = some "<module>")
    (first : Notes (scope :: callers) (Raised scope callers line outer) run copy) :
    Notes (scope :: callers) (Noted callers.length (standing callers outer)) (Run.tracing line run)
      (Run.noting (line :: outer) copy) := by
  intro m here
  have ends := first m here
  unfold Run.tracing Run.noting
  generalize run m = result at ends ⊢
  generalize copy m = result' at ends ⊢
  cases ends with
  | ok here => exact .ok here
  | fault here raised =>
    refine .fault here ?_
    rw [Machine.depth_of_scopes here, Machine.scope_of_scopes here, here]
    exact raised.noted lines bottom
  | crash => exact .crash
  | turns => exact .turns

theorem inFrame {run copy : Run α} (frame : Frame)
    (first : Notes (frame.scope :: scope :: callers)
      (Noted (callers.length + 1) (standing (scope :: callers) (line :: outer))) run copy) :
    Notes (scope :: callers) (Raised scope callers line outer) (Run.inFrame frame run) (Run.inFrame frame copy) := by
  intro m here
  have entered : { m with frames := frame :: m.frames }.scopes = frame.scope :: scope :: callers :=
    congrArg (frame.scope :: ·) here
  have ends := first _ entered
  change EndsNoted _ _ (run.ensure _ { m with frames := frame :: m.frames })
    (copy.ensure _ { m with frames := frame :: m.frames })
  unfold Run.ensure
  generalize run { m with frames := frame :: m.frames } = result at ends ⊢
  generalize copy { m with frames := frame :: m.frames } = result' at ends ⊢
  cases ends with
  | ok here => exact .ok (Machine.scopes_tail here (List.cons_ne_nil _ _))
  | fault here noted => exact .fault (Machine.scopes_tail here (List.cons_ne_nil _ _)) (.called noted)
  | crash => exact .crash
  | turns => exact .turns

end

end Notes

end Run

/-! ### Programs -/

section

variable {scope : String} {callers : List String} {outer : List Nat} {call : ValueCaller}
  {callPlaced : List Nat → ValueCaller}

/-- What the statements of the call `scope` can rely on, wherever they stand. -/
structure NotesCalls (scope : String) (callers : List String) (outer : List Nat) (call : ValueCaller)
    (callPlaced : List Nat → ValueCaller) : Prop where
  lines : outer.length = callers.length
  bottom : (scope :: callers).getLast? = some "<module>"
  like (line : Nat) : Run.Likeness.Calls (Run.Notes (scope :: callers) (Raised scope callers line outer)) call
    (callPlaced (line :: outer))

namespace Exec

variable (calls : NotesCalls scope callers outer call callPlaced) (turns : Nat)

include calls

mutual

theorem notes_block (body : List Stmt) :
    Run.Notes (scope :: callers) (Noted callers.length (standing callers outer)) (block ⟨call, turns⟩ body)
      (Placed.block callPlaced turns outer body) := by
  cases body with
  | nil =>
    simp only [block, Placed.block]
    exact .done _
  | cons s rest =>
    obtain ⟨line, kind⟩ := s
    simp only [block, Placed.block]
    refine (Run.Notes.tracing calls.lines calls.bottom (notes_statement line kind)).andThen fun flow => ?_
    cases flow with
    | normal => exact notes_block rest
    | stop | next | ret => exact .done _

theorem notes_statement (line : Nat) (kind : StmtKind) :
    Run.Notes (scope :: callers) (Raised scope callers line outer) (statement ⟨call, turns⟩ kind)
      (Placed.statement callPlaced turns outer line kind) := by
  have like := calls.like line
  cases kind with
  | cond branches orelse =>
    simp only [statement, Placed.statement]
    exact notes_branch line (notes_block orelse).inside branches
  | loop cond body =>
    simp only [statement, Placed.statement]
    refine like.whileTrue ?_ (notes_block body).inside turns
    exact (Eval.alike_expr like cond).andThen fun _ => .ofWork _
  | each target source body =>
    simp only [statement, Placed.statement]
    refine (Eval.alike_expr like source).andThen fun v => like.visit (fun item => ?_) v
    exact (Eval.alike_assign like target item).andThen fun _ => (notes_block body).inside
  | define name params body =>
    simp only [statement, Placed.statement, define]
    refine Run.Notes.andThen ?_ fun _ => .done _
    refine (alike_defaults like params).andThen fun _ => (Run.Notes.ofWork _).andThen fun _ => ?_
    exact (Run.Notes.newCode _).andThen fun _ => like.bind _ _
  | attempt body handlers orelse final =>
    simp only [statement, Placed.statement]
    have finally_ {last last' : Run Flow}
        (lasts : Run.Notes (scope :: callers) (Raised scope callers line outer) last last') :=
      (notes_block final).inside.andThen (like.proceed lasts)
    refine Run.Notes.attempt (Run.Notes.attempt (notes_block body) (fun flow => ?_)
      fun f whole noted => notes_handle line (.inside noted) handlers)
      (fun flow => finally_ (.done flow)) fun f whole raised => finally_ (.halt raised)
    cases flow with
    | normal => exact (notes_block orelse).inside
    | stop | next | ret => exact .done _
  | _ =>
    simp only [Placed.statement]
    exact alike_plain like turns trivial

theorem notes_branch (line : Nat) {orelse orelse' : Run Flow}
    (others : Run.Notes (scope :: callers) (Raised scope callers line outer) orelse orelse')
    (branches : List (Expr × List Stmt)) :
    Run.Notes (scope :: callers) (Raised scope callers line outer) (branch ⟨call, turns⟩ orelse branches)
      (Placed.branch callPlaced turns outer line orelse' branches) := by
  cases branches with
  | nil =>
    simp only [branch, Placed.branch]
    exact others
  | cons first rest =>
    simp only [branch, Placed.branch]
    refine (Eval.alike_expr (calls.like line) first.1).andThen fun v => (Run.Notes.ofWork _).andThen fun holds => ?_
    cases holds with
    | false => exact notes_branch line others rest
    | true => exact (notes_block first.2).inside

theorem notes_handle (line : Nat) {f whole : Fault} (raised : Raised scope callers line outer f whole)
    (handlers : List Handler) :
    Run.Notes (scope :: callers) (Raised scope callers line outer) (handle ⟨call, turns⟩ f handlers)
      (Placed.handle callPlaced turns outer line whole handlers) := by
  cases handlers with
  | nil =>
    simp only [handle, Placed.handle]
    exact .halt raised
  | cons first rest =>
    obtain ⟨class_, name, body⟩ := first
    have like := calls.like line
    have handled : Run.Notes (scope :: callers) (Raised scope callers line outer)
        (Run.handling f name (block ⟨call, turns⟩ body))
        (Run.handling whole name (Placed.block callPlaced turns outer body)) :=
      like.handling raised.exception raised.id name (notes_block body).inside
    cases class_ with
    | none =>
      simp only [handle, Placed.handle]
      exact handled
    | some class_ =>
      simp only [handle, Placed.handle, raised.exception]
      refine (Eval.alike_expr like class_).andThen fun v => (like.isCaughtBy _ v).andThen fun caught => ?_
      cases caught with
      | false => exact notes_handle line raised rest
      | true => exact handled

end

end Exec

theorem Call.notes_function (turns room : Nat) (line : Nat) (lines : outer.length = callers.length)
    (bottom : (scope :: callers).getLast? = some "<module>") (ref : Nat) (defaults : List (Option Value))
    (args : List Value) (keywords : Keywords) :
    Run.Notes (scope :: callers) (Raised scope callers line outer)
      (function turns room ref defaults args keywords)
      (Placed.function turns room (line :: outer) ref defaults args keywords) := by
  induction room generalizing scope callers line outer ref defaults args keywords with
  | zero =>
    simp only [function, Placed.function]
    exact .ofWork _
  | succ room ih =>
    simp only [function, Placed.function]
    refine .look fun m => (Run.Notes.ofWork _).andThen fun locals => ?_
    have more_lines : (line :: outer).length = (scope :: callers).length := congrArg (· + 1) lines
    have calls : NotesCalls (m.heap.code ref).name (scope :: callers) (line :: outer)
        (value (function turns room)) (fun lines => value (Placed.function turns room lines)) :=
      ⟨more_lines, bottom, fun inner => alike_value Run.Notes.likeness (ih inner more_lines bottom)⟩
    refine (Run.Notes.inFrame _ (Exec.notes_block calls turns _)).andThen fun flow => ?_
    cases flow <;> exact .done _

end

/-- Both runs of a program end alike, and an exception has all its entries in both. -/
theorem Run.notes_program (limits : Limits) (body : List Stmt) :
    Notes ["<module>"] (Noted 0 []) (Run.program limits body) (Run.programPlaced limits body) := by
  have calls : NotesCalls "<module>" [] [] (Call.value (Call.function limits.turns limits.depth))
      (fun lines => Call.value (Placed.function limits.turns limits.depth lines)) :=
    ⟨rfl, rfl, fun line => Call.alike_value Run.Notes.likeness (Call.notes_function _ _ line rfl rfl)⟩
  exact (Exec.notes_block calls limits.turns body).andThen fun _ => .done ()

end SnippetKernel
