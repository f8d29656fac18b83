import SnippetKernel.Proofs.Program.Evaluation
import SnippetKernel.Proofs.Source.Renumber

/-! Two runs of programs that differ in their line numbers alone. One starts where the other does, with
other numbers in the code on the heap and with something written before; then it goes on in the same way,
and the lines of a traceback are all that differs in the end. Each way of putting pieces of a program
together keeps that, and leaves the calls and the exceptions being handled as they were.

Statements and calls. A statement's number is noted when an exception passes by, and goes with the code of a function to
the heap; nothing else is done with it. -/
namespace SnippetKernel

open Source

/-- Only statements have numbers. -/
def Code.renumber (g : Nat → Nat) (c : Code) : Code := { c with body := renumberBlock g c.body }

def Heap.renumber (g : Nat → Nat) (h : Heap) : Heap :=
  { h with codes := h.codes.map (·.renumber g) }

def TraceEntry.renumber (g : Nat → Nat) (e : TraceEntry) : TraceEntry := { e with line := g e.line }

def Fault.renumber (g : Nat → Nat) (f : Fault) : Fault :=
  { f with trace := f.trace.map (·.renumber g), syntaxLine := f.syntaxLine.map g }

def Halt.renumber (g : Nat → Nat) : Halt → Halt
  | .fault f => .fault (f.renumber g)
  | .crash message => .crash message
  | .turns => .turns

/-- The machine with other numbers, and with something written before all else. -/
def Machine.mirror (g : Nat → Nat) (before : Array (Stream × String)) (m : Machine) : Machine :=
  { m with heap := m.heap.renumber g, writes := before ++ m.writes }

/-- The calls around are the same, and the exceptions being handled. The innermost call may have bound
names. -/
structure Machine.Level (m n : Machine) : Prop where
  handling : n.handling = m.handling
  height : n.frames.length = m.frames.length
  outer : n.frames.tail = m.frames.tail

namespace Machine.Level

theorem refl (m : Machine) : m.Level m := ⟨rfl, rfl, rfl⟩

theorem trans {l m n : Machine} (first : l.Level m) (second : m.Level n) : l.Level n :=
  ⟨second.handling.trans first.handling, second.height.trans first.height,
    second.outer.trans first.outer⟩

end Machine.Level

theorem Heap.code_renumber (g : Nat → Nat) (h : Heap) (ref : Nat) :
    (h.renumber g).code ref = (h.code ref).renumber g := by
  simp only [Heap.code, Heap.renumber, Array.getElem?_map]
  cases h.codes[ref]? <;> rfl

theorem Fault.recordFrame_renumber (g : Nat → Nat) (f : Fault) (depth line : Nat) (scope : String) :
    (f.renumber g).recordFrame depth (g line) scope = (f.recordFrame depth line scope).renumber g := by
  have last : ((f.renumber g).trace.getLast?.map (·.depth)) = f.trace.getLast?.map (·.depth) := by
    simp only [Fault.renumber, List.getLast?_map, Option.map_map]
    rfl
  have noted : (f.renumber g).syntaxLine.isSome = f.syntaxLine.isSome := Option.isSome_map
  unfold Fault.recordFrame
  rw [last, noted]
  split
  · rfl
  · simp only [Fault.renumber, List.map_append, List.map_cons, List.map_nil, TraceEntry.renumber]

namespace Run

variable {α β : Type}

/-- How the same piece of a program ends with other numbers. -/
def mirrorResult (g : Nat → Nat) (before : Array (Stream × String)) :
    EStateM.Result Halt Machine α → EStateM.Result Halt Machine α
  | .ok a m => .ok a (m.mirror g before)
  | .error halt m => .error (halt.renumber g) (m.mirror g before)

/-- A piece of a program ends in a machine that is level with the one it began in, unless the interpreter
gives up. -/
def EndsLevel (m : Machine) : EStateM.Result Halt Machine α → Prop
  | .ok _ n => m.Level n
  | .error (.fault _) n => m.Level n
  | .error _ _ => True

/-- `copy` does with other numbers what `run` does. -/
structure Mirrors (g : Nat → Nat) (before : Array (Stream × String)) (run copy : Run α) : Prop where
  same : ∀ m, copy (m.mirror g before) = mirrorResult g before (run m)
  level : ∀ m, EndsLevel m (run m)

theorem EndsLevel.after {m n : Machine} {r : EStateM.Result Halt Machine α} (first : m.Level n)
    (second : EndsLevel n r) : EndsLevel m r := by
  match r, second with
  | .ok _ _, second => exact first.trans second
  | .error (.fault _) _, second => exact first.trans second
  | .error (.crash _) _, _ => trivial
  | .error .turns _, _ => trivial

namespace Mirrors

variable {g : Nat → Nat} {before : Array (Stream × String)}

theorem done (a : α) : Mirrors g before (pure a) (pure a) :=
  ⟨fun _ => rfl, fun m => .refl m⟩

theorem halt (h : Halt) : Mirrors (α := α) g before (throw h) (throw (h.renumber g)) := by
  refine ⟨fun _ => rfl, fun m => ?_⟩
  cases h with
  | fault => exact .refl m
  | crash => trivial
  | turns => trivial

theorem andThen {run copy : Run α} {next after : α → Run β} (first : Mirrors g before run copy)
    (second : ∀ a, Mirrors g before (next a) (after a)) :
    Mirrors g before (run >>= next) (copy >>= after) := by
  constructor
  · intro m
    change EStateM.bind copy after _ = mirrorResult g before (EStateM.bind run next m)
    rw [EStateM.bind, EStateM.bind, first.same]
    cases run m with
    | ok a n => exact (second a).same n
    | error h n => rfl
  · intro m
    have level := first.level m
    change EndsLevel m (EStateM.bind run next m)
    unfold EStateM.bind
    cases ended : run m with
    | ok a n =>
      rw [ended] at level
      exact .after level ((second a).level n)
    | error h n =>
      rw [ended] at level
      cases h with
      | fault => exact level
      | crash => trivial
      | turns => trivial

/-- A piece that looks at the machine. -/
theorem look {next after : Machine → Run β}
    (second : ∀ m : Machine, Mirrors g before (next m) (after (m.mirror g before))) :
    Mirrors g before (MonadState.get >>= next) (MonadState.get >>= after) :=
  ⟨fun m => (second m).same m, fun m => (second m).level m⟩

theorem change {f copy : Machine → Machine}
    (same : ∀ m : Machine, copy (m.mirror g before) = (f m).mirror g before)
    (level : ∀ m : Machine, m.Level (f m)) : Mirrors g before (modify f) (modify copy) :=
  ⟨fun m => congrArg (EStateM.Result.ok ()) (same m), level⟩

/-- Work sees nothing of what differs. -/
theorem ofWork (work : Work α) : Mirrors g before (Run.ofWork work) (Run.ofWork work) := by
  constructor
  · intro m
    obtain ⟨names, ⟨cells, codes⟩, frames, handling, writes, clock⟩ := m
    simp only [Run.ofWork, Machine.mirror, Heap.renumber]
    rcases work ⟨cells, clock, #[]⟩ with ⟨a, r⟩ | ⟨refusal, r⟩
    · simp only [mirrorResult, Machine.mirror, Heap.renumber, Array.append_assoc]
    · cases refusal with
      | exception e =>
        simp only [mirrorResult, Machine.mirror, Heap.renumber, Array.append_assoc, Halt.renumber]
        rfl
      | crash message =>
        simp only [mirrorResult, Machine.mirror, Heap.renumber, Array.append_assoc, Halt.renumber]
  · intro m
    obtain ⟨names, ⟨cells, codes⟩, frames, handling, writes, clock⟩ := m
    simp only [Run.ofWork]
    rcases work ⟨cells, clock, #[]⟩ with ⟨a, r⟩ | ⟨refusal, r⟩
    · exact Machine.Level.mk rfl rfl rfl
    · cases refusal with
      | exception e => exact Machine.Level.mk rfl rfl rfl
      | crash message => trivial

theorem ensure {run copy : Run α} {after last : Machine → Machine}
    (first : Mirrors g before run copy)
    (same : ∀ m : Machine, last (m.mirror g before) = (after m).mirror g before)
    (level : ∀ m : Machine, m.Level (after m)) :
    Mirrors g before (run.ensure after) (copy.ensure last) := by
  constructor
  · intro m
    unfold Run.ensure
    rw [first.same]
    cases run m with
    | ok a n => exact congrArg (EStateM.Result.ok a) (same n)
    | error h n =>
      cases h with
      | fault f => exact congrArg (EStateM.Result.error (Halt.fault (f.renumber g))) (same n)
      | crash => rfl
      | turns => rfl
  · intro m
    have ends := first.level m
    unfold Run.ensure
    cases ended : run m with
    | ok a n =>
      rw [ended] at ends
      exact Machine.Level.trans ends (level n)
    | error h n =>
      rw [ended] at ends
      cases h with
      | fault => exact Machine.Level.trans ends (level n)
      | crash => trivial
      | turns => trivial

/-- An exception that was caught has other numbers in its trace too. -/
theorem attempt {run copy : Run α} {next after : Except Fault α → Run β}
    (first : Mirrors g before run copy)
    (second : ∀ a, Mirrors g before (next (.ok a)) (after (.ok a)))
    (third : ∀ f, Mirrors g before (next (.error f)) (after (.error (f.renumber g)))) :
    Mirrors g before (run.attempt >>= next) (copy.attempt >>= after) := by
  constructor
  · intro m
    change EStateM.bind copy.attempt after _ = mirrorResult g before (EStateM.bind run.attempt next m)
    unfold EStateM.bind Run.attempt
    rw [first.same]
    cases run m with
    | ok a n => exact (second a).same n
    | error h n =>
      cases h with
      | fault f => exact (third f).same n
      | crash => rfl
      | turns => rfl
  · intro m
    have ends := first.level m
    change EndsLevel m (EStateM.bind run.attempt next m)
    unfold EStateM.bind Run.attempt
    cases ended : run m with
    | ok a n =>
      rw [ended] at ends
      exact .after ends ((second a).level n)
    | error h n =>
      rw [ended] at ends
      cases h with
      | fault f => exact .after ends ((third f).level n)
      | crash => trivial
      | turns => trivial

theorem tracing {run copy : Run α} (line : Nat) (first : Mirrors g before run copy) :
    Mirrors g before (Run.tracing line run) (Run.tracing (g line) copy) := by
  constructor
  · intro m
    unfold Run.tracing
    rw [first.same]
    cases run m with
    | ok a n => rfl
    | error h n =>
      cases h with
      | fault f =>
        have noted := Fault.recordFrame_renumber g f n.depth line n.scope
        exact congrArg (fun f => EStateM.Result.error (Halt.fault f) (n.mirror g before)) noted
      | crash => rfl
      | turns => rfl
  · intro m
    have ends := first.level m
    unfold Run.tracing
    cases ended : run m with
    | ok a n =>
      rw [ended] at ends
      exact ends
    | error h n =>
      rw [ended] at ends
      cases h with
      | fault => exact ends
      | crash => trivial
      | turns => trivial

theorem inFrame {run copy : Run α} (frame : Frame) (first : Mirrors g before run copy) :
    Mirrors g before (Run.inFrame frame run) (Run.inFrame frame copy) := by
  constructor
  · intro m
    have inner := first.same { m with frames := frame :: m.frames }
    change (copy.ensure _) (Machine.mirror g before { m with frames := frame :: m.frames }) =
      mirrorResult g before ((run.ensure _) { m with frames := frame :: m.frames })
    unfold Run.ensure
    rw [inner]
    cases run { m with frames := frame :: m.frames } with
    | ok a n => rfl
    | error h n => cases h <;> rfl
  · intro m
    have ends := first.level { m with frames := frame :: m.frames }
    have restored {n : Machine} (level : Machine.Level { m with frames := frame :: m.frames } n) :
        m.Level { n with frames := n.frames.tail } :=
      ⟨level.handling, congrArg List.length level.outer, congrArg List.tail level.outer⟩
    change EndsLevel m ((run.ensure _) { m with frames := frame :: m.frames })
    unfold Run.ensure
    cases ended : run { m with frames := frame :: m.frames } with
    | ok a n =>
      rw [ended] at ends
      exact restored ends
    | error h n =>
      rw [ended] at ends
      cases h with
      | fault => exact restored ends
      | crash => trivial
      | turns => trivial

theorem whileHandling {run copy : Run α} (handled : Handled) (first : Mirrors g before run copy) :
    Mirrors g before (Run.whileHandling handled run) (Run.whileHandling handled copy) := by
  constructor
  · intro m
    have inner := first.same { m with handling := handled :: m.handling }
    change (copy.ensure _) (Machine.mirror g before { m with handling := handled :: m.handling }) =
      mirrorResult g before ((run.ensure _) { m with handling := handled :: m.handling })
    unfold Run.ensure
    rw [inner]
    cases run { m with handling := handled :: m.handling } with
    | ok a n => rfl
    | error h n => cases h <;> rfl
  · intro m
    have ends := first.level { m with handling := handled :: m.handling }
    have restored {n : Machine} (level : Machine.Level { m with handling := handled :: m.handling } n) :
        m.Level { n with handling := n.handling.tail } :=
      ⟨congrArg List.tail level.handling, level.height, level.outer⟩
    change EndsLevel m ((run.ensure _) { m with handling := handled :: m.handling })
    unfold Run.ensure
    cases ended : run { m with handling := handled :: m.handling } with
    | ok a n =>
      rw [ended] at ends
      exact restored ends
    | error h n =>
      rw [ended] at ends
      cases h with
      | fault => exact restored ends
      | crash => trivial
      | turns => trivial

end Mirrors

end Run

/-! Bindings are made without a look at what differs. -/

namespace Machine

variable (g : Nat → Nat) (before : Array (Stream × String)) (m : Machine)

theorem bind_mirror (name : String) (v : Value) :
    (m.mirror g before).bind name v = (m.bind name v).mirror g before := by
  obtain ⟨names, heap, _ | ⟨frame, outer⟩, handling, writes, clock⟩ := m
  · rfl
  · simp only [mirror, bind]
    split <;> rfl

theorem unbind_mirror (name : String) :
    (m.mirror g before).unbind name = (m.unbind name).mirror g before := by
  obtain ⟨names, heap, _ | ⟨frame, outer⟩, handling, writes, clock⟩ := m
  · rfl
  · simp only [mirror, unbind]
    split <;> rfl

theorem level_bind (name : String) (v : Value) : m.Level (m.bind name v) := by
  obtain ⟨names, heap, _ | ⟨frame, outer⟩, handling, writes, clock⟩ := m
  · exact ⟨rfl, rfl, rfl⟩
  · simp only [bind]
    split <;> exact ⟨rfl, rfl, rfl⟩

theorem level_unbind (name : String) : m.Level (m.unbind name) := by
  obtain ⟨names, heap, _ | ⟨frame, outer⟩, handling, writes, clock⟩ := m
  · exact ⟨rfl, rfl, rfl⟩
  · simp only [unbind]
    split <;> exact ⟨rfl, rfl, rfl⟩

theorem rebind_mirror (saved : List (String × Option Value)) :
    Run.rebind (m.mirror g before) saved = (Run.rebind m saved).mirror g before := by
  induction saved generalizing m with
  | nil => rfl
  | cons binding rest ih =>
    obtain ⟨name, _ | v⟩ := binding
    · rw [Run.rebind, unbind_mirror, ih, Run.rebind]
    · rw [Run.rebind, bind_mirror, ih, Run.rebind]

theorem level_rebind (saved : List (String × Option Value)) : m.Level (Run.rebind m saved) := by
  induction saved generalizing m with
  | nil => exact .refl m
  | cons binding rest ih =>
    obtain ⟨name, _ | v⟩ := binding
    · exact (m.level_unbind name).trans (ih _)
    · exact (m.level_bind name v).trans (ih _)

end Machine

namespace Run.Mirrors

variable {α : Type} {g : Nat → Nat} {before : Array (Stream × String)}

theorem keeping {run copy : Run α} (names : List String) (first : Mirrors g before run copy) :
    Mirrors g before (Run.keeping names run) (Run.keeping names copy) :=
  look fun _ => first.ensure (fun n => n.rebind_mirror g before _) fun n => n.level_rebind _

theorem bind (name : String) (v : Value) : Mirrors g before (Run.bind name v) (Run.bind name v) :=
  change (fun m => m.bind_mirror g before name v) fun m => m.level_bind name v

theorem lookup (name : String) : Mirrors g before (Run.lookup name) (Run.lookup name) := by
  refine look fun m => ?_
  have same : (m.mirror g before).lookup? name = m.lookup? name := rfl
  rw [same]
  cases (m.lookup? name).or (Builtins.global? name) with
  | some v => exact .done v
  | none => exact .ofWork _

theorem unbind (name : String) : Mirrors g before (Run.unbind name) (Run.unbind name) := by
  refine look fun m => ?_
  have same : (m.mirror g before).binding? name = m.binding? name := rfl
  rw [same]
  cases m.binding? name with
  | some v => exact change (fun m => m.unbind_mirror g before name) fun m => m.level_unbind name
  | none => exact .ofWork _

theorem unbinding {run copy : Run α} (name : String) (first : Mirrors g before run copy) :
    Mirrors g before (run.ensure (·.unbind name)) (copy.ensure (·.unbind name)) :=
  first.ensure (fun m => m.unbind_mirror g before name) fun m => m.level_unbind name

theorem reraise : Mirrors g before Run.reraise Run.reraise := by
  refine look fun m => ?_
  have same : (m.mirror g before).handling = m.handling := rfl
  rw [same]
  cases m.handling with
  | nil => exact .ofWork _
  | cons handled rest => exact .halt _

theorem declareGlobal (names : List String) :
    Mirrors g before (Run.declareGlobal names) (Run.declareGlobal names) := by
  refine change (fun m => ?_) fun m => ?_
  · obtain ⟨known, heap, _ | ⟨frame, outer⟩, handling, writes, clock⟩ := m <;> rfl
  · obtain ⟨known, heap, _ | ⟨frame, outer⟩, handling, writes, clock⟩ := m <;> exact ⟨rfl, rfl, rfl⟩

/-- What is no statement has no numbers. -/
theorem likeness : Likeness (Mirrors g before) where
  done := .done
  raise e id := .halt (.fault (.ofException e id))
  turns := .halt .turns
  andThen := .andThen
  ofWork := .ofWork
  lookup := .lookup
  bind := .bind
  unbind := .unbind
  unbinding := .unbinding
  keeping := .keeping
  whileHandling := .whileHandling
  reraise := .reraise
  declareGlobal := .declareGlobal

end Run.Mirrors

/-! ### Statements and calls -/

open Run

namespace Run.Mirrors

variable {g : Nat → Nat} {before : Array (Stream × String)}

theorem newCode (code : Code) :
    Mirrors g before (Run.newCode code) (Run.newCode (code.renumber g)) := by
  refine ⟨fun m => ?_, fun m => ⟨rfl, rfl, rfl⟩⟩
  have size : (m.mirror g before).heap.codes.size = m.heap.codes.size := Array.size_map
  have pushed : (m.mirror g before).heap.codes.push (code.renumber g) =
      (m.heap.codes.push code).map (·.renumber g) := Array.map_push.symm
  change EStateM.Result.ok (m.mirror g before).heap.codes.size
      { m.mirror g before with
        heap := { m.heap with codes := (m.mirror g before).heap.codes.push (code.renumber g) } } = _
  rw [size, pushed]
  rfl

end Run.Mirrors

namespace Exec

variable {g : Nat → Nat} {before : Array (Stream × String)} {call copy : ValueCaller}

theorem mirrors_define (calls : Likeness.Calls (Mirrors g before) call copy) (code : Code) :
    Mirrors g before (define call code) (define copy (code.renumber g)) := by
  unfold define
  refine (alike_defaults calls code.params).andThen fun _ => (Mirrors.ofWork _).andThen fun _ => ?_
  exact (Mirrors.newCode code).andThen fun _ => .bind _ _

variable (calls : Likeness.Calls (Mirrors g before) call copy) (turns : Nat)

include calls

mutual

theorem mirrors_block (body : List Stmt) :
    Mirrors g before (block ⟨call, turns⟩ body) (block ⟨copy, turns⟩ (renumberBlock g body)) := by
  cases body with
  | nil =>
    simp only [block, renumberBlock]
    exact .done _
  | cons s rest =>
    obtain ⟨line, kind⟩ := s
    simp only [block, renumberBlock, Stmt.renumber]
    exact (Mirrors.tracing line (mirrors_statement kind)).andThen (calls.proceed (mirrors_block rest))

theorem mirrors_statement (kind : StmtKind) :
    Mirrors g before (statement ⟨call, turns⟩ kind) (statement ⟨copy, turns⟩ (kind.renumber g)) := by
  cases kind with
  | cond branches orelse =>
    simp only [statement, StmtKind.renumber]
    exact mirrors_branch (mirrors_block orelse) branches
  | loop cond body =>
    simp only [statement, StmtKind.renumber]
    refine calls.whileTrue ?_ (mirrors_block body) turns
    exact (Eval.alike_expr calls cond).andThen fun _ => .ofWork _
  | each target source body =>
    simp only [statement, StmtKind.renumber]
    refine (Eval.alike_expr calls source).andThen fun v => calls.visit (fun item => ?_) v
    exact (Eval.alike_assign calls target item).andThen fun _ => mirrors_block body
  | define name params body =>
    simp only [statement, StmtKind.renumber]
    exact (mirrors_define calls ⟨name, params, body⟩).andThen fun _ => .done _
  | attempt body handlers orelse final =>
    simp only [statement, StmtKind.renumber]
    have finally_ {last last' : Run Flow} (lasts : Mirrors g before last last') :=
      (mirrors_block final).andThen (calls.proceed lasts)
    refine Mirrors.attempt (Mirrors.attempt (mirrors_block body) (fun flow => ?_) fun f => mirrors_handle f handlers)
      (fun flow => finally_ (.done flow)) fun f => finally_ (.halt (.fault f))
    cases flow with
    | normal => exact mirrors_block orelse
    | stop | next | ret => exact .done _
  | _ =>
    simp only [StmtKind.renumber]
    exact alike_plain calls turns trivial

theorem mirrors_branch {orelse orelse' : Run Flow} (others : Mirrors g before orelse orelse')
    (branches : List (Expr × List Stmt)) :
    Mirrors g before (branch ⟨call, turns⟩ orelse branches)
      (branch ⟨copy, turns⟩ orelse' (renumberBranches g branches)) := by
  cases branches with
  | nil =>
    simp only [branch, renumberBranches]
    exact others
  | cons first rest =>
    simp only [branch, renumberBranches]
    refine (Eval.alike_expr calls first.1).andThen fun v => (Mirrors.ofWork _).andThen fun holds => ?_
    cases holds with
    | false => exact mirrors_branch others rest
    | true => exact mirrors_block first.2

theorem mirrors_handle (fault : Fault) (handlers : List Handler) :
    Mirrors g before (handle ⟨call, turns⟩ fault handlers)
      (handle ⟨copy, turns⟩ (fault.renumber g) (renumberHandlers g handlers)) := by
  cases handlers with
  | nil =>
    simp only [handle, renumberHandlers]
    exact .halt _
  | cons first rest =>
    obtain ⟨class_, name, body⟩ := first
    cases class_ with
    | none =>
      simp only [handle, renumberHandlers, Handler.renumber]
      exact calls.handling rfl rfl name (mirrors_block body)
    | some class_ =>
      simp only [handle, renumberHandlers, Handler.renumber]
      refine (Eval.alike_expr calls class_).andThen fun v => (calls.isCaughtBy _ v).andThen fun caught => ?_
      cases caught with
      | false => exact mirrors_handle fault rest
      | true => exact calls.handling rfl rfl name (mirrors_block body)

end

end Exec

namespace Call

variable {g : Nat → Nat} {before : Array (Stream × String)}

/-- Arguments are bound by the name and the parameters of the code. -/
theorem bindArguments_renumber (code : Code) (defaults : List (Option Value)) (args : List Value)
    (keywords : Keywords) :
    bindArguments (code.renumber g) defaults args keywords =
      bindArguments code defaults args keywords := by
  have filled (slots : Array (Option Value)) :
      fillSlots (code.renumber g) slots keywords = fillSlots code slots keywords := by
    induction keywords generalizing slots with
    | nil => rfl
    | cons entry rest ih =>
      simp only [fillSlots, ih]
      rfl
  unfold bindArguments
  simp only [filled]
  rfl

theorem mirrors_function (turns room : Nat) (ref : Nat) (defaults : List (Option Value)) (args : List Value)
    (keywords : Keywords) :
    Mirrors g before (function turns room ref defaults args keywords)
      (function turns room ref defaults args keywords) := by
  induction room generalizing ref defaults args keywords with
  | zero =>
    simp only [function]
    exact .ofWork _
  | succ room ih =>
    simp only [function]
    refine Mirrors.look fun m => ?_
    have found : (m.mirror g before).heap.code ref = (m.heap.code ref).renumber g :=
      Heap.code_renumber g m.heap ref
    rw [found, bindArguments_renumber]
    refine (Mirrors.ofWork _).andThen fun locals => ?_
    refine (Mirrors.inFrame _ (Exec.mirrors_block (alike_value Mirrors.likeness ih) turns _)).andThen fun flow => ?_
    cases flow <;> exact .done _

end Call

/-- Running a program with other numbers, on a heap whose code has other numbers too. -/
theorem Run.mirrors_program (g : Nat → Nat) (before : Array (Stream × String)) (limits : Limits)
    (body : List Stmt) :
    Mirrors g before (Run.program limits body) (Run.program limits (renumberBlock g body)) :=
  (Exec.mirrors_block (Call.alike_value Mirrors.likeness (Call.mirrors_function _ _)) _ body).andThen fun _ => .done _

end SnippetKernel
