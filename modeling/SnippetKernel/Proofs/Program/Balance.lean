import SnippetKernel.Proofs.Program.ClosedStatements
import SnippetKernel.Proofs.Program.Guarantee

/-! Calls and handled exceptions in balance. There are never more calls inside one another than the limit allows, and
whatever ends leaves the calls and the exceptions being handled as they were. -/
namespace SnippetKernel

open Source

namespace Machine

/-- The calls are the same, and the exceptions being handled. The innermost call may have bound names. -/
structure Balanced (m n : Machine) : Prop where
  scopes : n.frames.map (·.scope) = m.frames.map (·.scope)
  outer : n.frames.tail = m.frames.tail
  handling : n.handling = m.handling

namespace Balanced

variable {l m n : Machine}

theorem refl (m : Machine) : m.Balanced m := ⟨rfl, rfl, rfl⟩

theorem trans (first : l.Balanced m) (second : m.Balanced n) : l.Balanced n :=
  ⟨second.scopes.trans first.scopes, second.outer.trans first.outer, second.handling.trans first.handling⟩

theorem depth (balanced : m.Balanced n) : n.depth = m.depth := by
  simpa [Machine.depth] using congrArg List.length balanced.scopes

end Balanced

theorem balanced_bind (m : Machine) (name : String) (v : Value) : m.Balanced (m.bind name v) := by
  obtain ⟨names, heap, _ | ⟨frame, outer⟩, handling, writes, clock⟩ := m
  · exact ⟨rfl, rfl, rfl⟩
  · unfold bind
    simp only
    split <;> exact ⟨rfl, rfl, rfl⟩

theorem balanced_unbind (m : Machine) (name : String) : m.Balanced (m.unbind name) := by
  obtain ⟨names, heap, _ | ⟨frame, outer⟩, handling, writes, clock⟩ := m
  · exact ⟨rfl, rfl, rfl⟩
  · unfold unbind
    simp only
    split <;> exact ⟨rfl, rfl, rfl⟩

theorem balanced_rebind (m : Machine) (saved : List (String × Option Value)) : m.Balanced (Run.rebind m saved) := by
  induction saved generalizing m with
  | nil => exact .refl m
  | cons entry rest ih =>
    obtain ⟨name, _ | v⟩ := entry
    · exact (m.balanced_unbind name).trans (ih _)
    · exact (m.balanced_bind name v).trans (ih _)

end Machine

/-! ### The guarantee -/

variable {α : Type} {good : α → Prop} {k limit : Nat}

/-- A piece that begins with `k` calls around it ends in balance. -/
def balance (le : k ≤ limit) : Guarantee where
  inv m := m.depth = k
  step := Machine.Balanced
  lost n := n.depth ≤ limit
  refl := .refl
  trans := .trans
  lost_of_inv inv := inv ▸ le

namespace Run

variable {le : k ≤ limit} {run : Run α}

theorem meets_balance_change {f : Machine → Machine} (balanced : ∀ m : Machine, m.Balanced (f m)) :
    (balance le).Meets (fun _ => True) (modify f) :=
  .change fun m inv => ⟨(balanced m).depth.trans inv, balanced m⟩

theorem meets_balance_ofWork {work : Work α} (stays : Work.Stays .whole good work) :
    (balance le).Meets good (Run.ofWork work) :=
  .ofWork stays (fun _ _ => Cells.within_whole _) fun _ _ _ _ inv _ => ⟨inv, rfl, rfl, rfl⟩

/-- A piece in balance is still so if something in balance follows it. -/
theorem meets_balance_ensure (inner : (balance le).Meets good run) (last : Machine → Machine → Machine)
    (balanced : ∀ m n : Machine, n.Balanced (last m n)) (m : Machine) (inv : (balance le).inv m) :
    (balance le).Ends good m (run.ensure (last m) m) := by
  apply Guarantee.Meets.enclosed id last inner (fun _ inv => inv) _ (fun _ lost => lost) m inv
  intro m n inv inv' step
  have whole := Machine.Balanced.trans step (balanced m n)
  exact ⟨whole.depth.trans inv, whole⟩

theorem meets_balance_whileHandling (handled : Handled) (inner : (balance le).Meets good run) :
    (balance le).Meets good (Run.whileHandling handled run) := by
  apply Guarantee.Meets.enclosed (fun m => { m with handling := handled :: m.handling })
    (fun _ n => { n with handling := n.handling.tail }) inner
  · exact fun m inv => inv
  · intro m n inv inv' step
    exact ⟨inv', step.scopes, step.outer, congrArg List.tail step.handling⟩
  · exact fun _ lost => lost

/-- A call in a frame of its own. -/
theorem meets_balance_inFrame {more : k + 1 ≤ limit} (frame : Frame) (inner : (balance more).Meets good run) :
    (balance le).Meets good (Run.inFrame frame run) := by
  apply Guarantee.Meets.enclosed (fun m => { m with frames := frame :: m.frames })
    (fun _ n => { n with frames := n.frames.tail }) inner
  · exact fun m inv => congrArg (· + 1) inv
  · intro m n inv inv' step
    have same : n.frames.tail = m.frames := step.outer
    exact ⟨(congrArg List.length same).trans inv, congrArg _ same, congrArg _ same, step.handling⟩
  · exact fun _ lost => lost

/-- The guarantee of balance is closed. -/
theorem closed_balance (le : k ≤ limit) : Closed .whole True fun _ => (balance le).Meets where
  done _ := .done
  halt _ := .halt
  andThen := .andThen
  ofWork _ := meets_balance_ofWork
  lookup _ := .lookup (fun _ _ _ v _ => v.within_whole) fun _ => meets_balance_ofWork
  bind _ _ := meets_balance_change fun m => m.balanced_bind _ _
  keeping _ _ _ names _ inner := by
    apply Guarantee.Meets.look
    intro m inv
    let saved (m : Machine) := names.map fun name => (name, m.binding? name)
    exact meets_balance_ensure inner (fun m n => Run.rebind n (saved m))
      (fun m n => n.balanced_rebind _) m inv
  unbind name := by
    apply Guarantee.Meets.look
    intro m inv
    cases m.binding? name with
    | none => exact meets_balance_ofWork (.raise _ _) m inv
    | some _ => exact meets_balance_change (fun m => m.balanced_unbind name) m inv
  unbinding name inner := meets_balance_ensure inner (fun _ n => n.unbind name) fun _ n => n.balanced_unbind name
  attempt := .attempt
  tracing := .tracing
  whileHandling := meets_balance_whileHandling
  reraise := .reraise fun _ => meets_balance_ofWork
  newCode _ m inv := ⟨trivial, inv, rfl, rfl, rfl⟩
  declareGlobal names _ := by
    apply meets_balance_change
    intro m
    obtain ⟨known, heap, _ | ⟨frame, outer⟩, handling, writes, clock⟩ := m <;> exact ⟨rfl, rfl, rfl⟩

end Run

/-! ### The moments of a run -/

/-- Looks at the machine; the run goes no further if `stop` holds there. -/
def Run.watch (stop : Machine → Bool) : Run Unit := fun m =>
  if stop m then .error (.crash "stopped") m else .ok () m

namespace Call

/-- A call of a function, with a look at the machine when the call begins and when it ends. -/
def functionUntil (stop : Machine → Bool) (turns : Nat) : (room : Nat) → FunctionCaller
  | 0, _, _, _, _ => Work.raise .recursion "maximum recursion depth exceeded"
  | room + 1, ref, defaults, args, keywords => do
    let code := (← get).heap.code ref
    let locals ← Work.ofExcept (bindArguments code defaults args keywords)
    let flow ← Run.inFrame ⟨code.name, locals, []⟩ do
      Run.watch stop
      let flow ← Exec.block ⟨value (functionUntil stop turns room), turns⟩ code.body
      Run.watch stop
      return flow
    match flow with
    | .ret v => return v
    | _ => return .none

theorem watch_never : Run.watch (fun _ => false) = pure () := rfl

/-- Looking changes nothing. -/
theorem functionUntil_never (turns room : Nat) : functionUntil (fun _ => false) turns room = function turns room := by
  induction room with
  | zero => rfl
  | succ room ih =>
    funext ref defaults args keywords
    simp only [functionUntil, ih, watch_never, pure_bind, bind_pure]
    rfl

theorem meets_balance_watch {le : k ≤ limit} (stop : Machine → Bool) :
    (balance le).Meets (fun _ => True) (Run.watch stop) := by
  intro m inv
  unfold Run.watch
  split
  · exact Guarantee.lost_of_inv _ inv
  · exact ⟨trivial, inv, .refl m⟩

/-- With room for `room` more calls, the limit is kept by all that a function calls. -/
theorem balanced_functionUntil (stop : Machine → Bool) (turns room : Nat) {k limit : Nat} (le : k + room ≤ limit) :
    Run.Closed.Functions .whole True (fun _ => (balance (Nat.le_of_add_right_le le)).Meets)
      (functionUntil stop turns room) := by
  induction room generalizing k with
  | zero =>
    apply Run.Closed.Functions.mk (Run.closed_balance _)
    intro p ref defaults args keywords _ _ _ _
    exact Run.meets_balance_ofWork (.raise _ _)
  | succ room ih =>
    have within : k + 1 + room ≤ limit := by omega
    have calls := closed_value (ih within)
    have closed := Run.closed_balance (Nat.le_of_add_right_le le)
    apply Run.Closed.Functions.mk closed
    intro p ref defaults args keywords _ _ _ _
    apply Guarantee.Meets.look
    intro m inv
    apply closed_entered closed (p := p) (Value.defaultsWithin_whole _) (fun v _ => v.within_whole)
      (fun entry _ => entry.2.within_whole) _ m inv
    intro locals _
    apply Run.meets_balance_inFrame
    · apply Guarantee.Meets.andThen (meets_balance_watch stop)
      intro _ _
      apply Guarantee.Meets.andThen (Exec.closed_block calls turns _ fun _ => trivial)
      intro flow here
      exact Guarantee.Meets.andThen (meets_balance_watch stop) fun _ _ => .done here

end Call

/-- The program, with a look at the machine whenever a call of a function begins or ends. -/
def Run.programUntil (stop : Machine → Bool) (limits : Limits) (body : List Stmt) : Run Unit := do
  let _ ← Exec.block ⟨Call.value (Call.functionUntil stop limits.turns limits.depth), limits.turns⟩ body

/-- The piece leaves the calls and the exceptions being handled as they were, whether it gives a result or raises an
exception. -/
def Run.Balanced (run : Run α) : Prop := ∀ m,
  match run m with
  | .ok _ n | .error (.fault _) n => m.Balanced n
  | .error _ _ => True

theorem Run.balanced_of_meets {room : Nat} {run : Run α}
    (meets : ∀ k, (balance (Nat.le_add_right k room)).Meets good run) : run.Balanced := by
  intro m
  have ends := meets m.depth m rfl
  cases ended : run m with
  | ok a n =>
    rw [ended] at ends
    exact ends.2.2
  | error h n =>
    rw [ended] at ends
    cases h with
    | fault => exact ends.2
    | crash => trivial
    | turns => trivial

/-- There are never more calls inside one another than the limit allows: not at the end of a run, and not when a call
begins or ends, which is when their number changes. Whatever ends with a result or with an exception leaves the same
calls and the same exceptions being handled. -/
theorem Run.calls_balanced (limits : Limits) :
    (∀ (names : Namespace Value) (heap : Heap) (clock : Clock) (body : List Stmt) (stop : Machine → Bool),
      ((Run.programUntil stop limits body).leaves (Machine.start names heap clock)).depth ≤ limits.depth) ∧
    (∀ body : List Stmt, Run.programUntil (fun _ => false) limits body = Run.program limits body) ∧
    ∀ room : Nat,
      let call := Call.value (Call.function limits.turns room)
      (∀ e : Expr, (Eval.expr call e).Balanced) ∧
      (∀ kind : StmtKind, (Exec.statement ⟨call, limits.turns⟩ kind).Balanced) ∧
      (∀ body : List Stmt, (Exec.block ⟨call, limits.turns⟩ body).Balanced) ∧
      ∀ (callee : Value) (args : List Value) (keywords : Keywords), (call callee args keywords).Balanced := by
  constructor
  · intro names heap clock body stop
    have start : 0 + limits.depth ≤ limits.depth := by omega
    have calls := Call.closed_value (Call.balanced_functionUntil stop limits.turns limits.depth start)
    have meets : (balance (Nat.le_of_add_right_le start)).Meets (fun _ => True)
        (Run.programUntil stop limits body) :=
      .andThen (Exec.closed_block calls limits.turns body fun _ => trivial) fun _ _ => .done trivial
    exact meets.lost_leaves rfl
  constructor
  · intro body
    unfold Run.programUntil Run.program
    rw [Call.functionUntil_never]
  · intro room call
    have calls (k : Nat) : Run.Closed.Calls .whole True
        (fun _ => (balance (Nat.le_add_right k room)).Meets) call := by
      have functions := Call.balanced_functionUntil (fun _ => false) limits.turns room (Nat.le_refl (k + room))
      rw [Call.functionUntil_never] at functions
      exact Call.closed_value functions
    constructor
    · intro e
      exact Run.balanced_of_meets fun k => Eval.closed_expr (calls k) .call e
    constructor
    · intro kind
      exact Run.balanced_of_meets fun k => Exec.closed_statement (calls k) _ kind fun _ => trivial
    constructor
    · intro body
      exact Run.balanced_of_meets fun k => Exec.closed_block (calls k) _ body fun _ => trivial
    · intro callee args keywords
      exact Run.balanced_of_meets fun k => (calls k).called .call callee.within_whole (fun v _ => v.within_whole)
        fun entry _ => entry.2.within_whole

end SnippetKernel
