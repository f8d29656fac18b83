import SnippetKernel.Proofs.Kernel.Passive
import SnippetKernel.Proofs.Program.Codes
import SnippetKernel.Proofs.Source.Placement

/-! What `break`, `continue` and `return` leave. In a program that was read they stand where there is something to
leave, and no more than that is left: the statements behind a loop or behind a call are not passed over. This holds of
the functions of earlier programs too, since nothing but such programs has put them on the heap. -/
namespace SnippetKernel

open Source

namespace Flow

/-- How a statement may end that stands inside these. -/
def MayLeave (outer : List StmtKind) : Flow → Prop
  | .normal => True
  | .stop | .next => InLoop outer
  | .ret _ => InFunction outer

/-- How the body of a function may end. -/
def EndsCall : Flow → Prop
  | .normal | .ret _ => True
  | .stop | .next => False

end Flow

namespace Exec

variable {o : Outside} {body : List Stmt}

theorem ends_within {outer : List StmtKind} {kind : StmtKind} (fits : blockFits .outermost body)
    (within : Within body outer kind) : Run.Ends (Flow.MayLeave outer) (statement o kind) := by
  intro m flow n ended
  have allowed := ends_statement kind (within.fits fits) m flow n ended
  have noted := surroundings_iff outer
  cases flow with
  | normal => exact trivial
  | stop | next => exact noted.1.mp allowed
  | ret v => exact noted.2.mp allowed

theorem ends_function (fits : blockFits { inLoop := false, inFunction := true } body) :
    Run.Ends Flow.EndsCall (block o body) := by
  intro m flow n ended
  have allowed := ends_block body fits m flow n ended
  cases flow with
  | normal | ret => exact trivial
  | stop | next => cases allowed

end Exec

/-! ### The functions on the heap -/

theorem Run.programUntil_never (limits : Limits) (body : List Stmt) :
    Run.programUntil (fun _ => false) limits body = Run.program limits body := by
  unfold Run.programUntil Run.program
  rw [Call.functionUntil_never]

theorem Machine.codesFit_interpret {m : Machine} (fit : m.heap.CodesFit) (limits : Limits) (source : String) :
    (m.interpret limits source).machine.heap.CodesFit := by
  unfold Machine.interpret
  cases read : parse source with
  | error e => exact fit
  | ok body =>
    simp only [Machine.machine_perform, ← Run.programUntil_never]
    exact Run.codesFit_leaves (blockFits_of_parse read) fit

theorem Heap.codesFit_empty : Heap.empty.CodesFit := fun code mem => absurd mem (Array.not_mem_empty code)

namespace Engine

theorem codesFit_reset {e : Engine} (fit : e.heap.CodesFit) : e.reset.2.heap.CodesFit := by
  simp only [reset, sweep]
  split
  · exact Heap.codesFit_empty
  · exact fit

theorem codesFit_handleFrame {e : Engine} (fit : e.heap.CodesFit) (vitals : Vitals) (frame : ByteArray) :
    (e.handleFrame vitals frame).2.heap.CodesFit := by
  unfold handleFrame
  cases Request.ofFrame frame with
  | error failure => exact fit
  | ok request =>
    cases request with
    | execute code => exact Machine.codesFit_interpret (m := e.machine) fit e.limits code
    | inspect pattern => exact fit
    | reset => exact codesFit_reset fit
    | status => exact fit

end Engine

theorem Listener.codesFit_handleAll {e : Engine} (fit : e.heap.CodesFit) (frames : List (Vitals × ByteArray)) :
    (handleAll e frames).2.heap.CodesFit := by
  induction frames generalizing e with
  | nil => exact fit
  | cons frame rest ih =>
    rw [handleAll_cons]
    exact ih (Engine.codesFit_handleFrame fit frame.1 frame.2)

/-! ### Programs -/

/-- A `break` in a loop in a function. -/
theorem parse_break :
    (match parse "def f():\n  while f():\n    break" with
      | .ok [.mk _ (.define _ _ [.mk _ (.loop _ [.mk _ .stop])])] => true
      | _ => false) = true := by
  decide +kernel

/-- In a program that was read, `break` and `continue` stand in a loop of the same function, and `return` in a
function, and no statement ends with one of them unless that is so. Therefore the program ends normally, each part of
it goes on where the part before it came to its end, and the body of a function ends normally or with `return`; so do
the bodies of all functions that can be called, at every moment while the program runs on a kernel, whatever ran
there before. -/
theorem flows_of_parse {source : String} {body : List Stmt} (read : parse source = .ok body) :
    (∀ outer kind, Within body outer kind →
      (kind = .stop ∨ kind = .next → InLoop outer) ∧ (∀ value, kind = .ret value → InFunction outer) ∧
      ∀ o, Run.Ends (Flow.MayLeave outer) (Exec.statement o kind)) ∧
    (∀ o, Run.Ends (· = .normal) (Exec.block o body)) ∧
    (∀ o first second m, body = first ++ second → Exec.block o body m =
      match Exec.block o first m with
      | .ok _ n => Exec.block o second n
      | .error halt n => .error halt n) ∧
    (∀ outer name params inner, Within body outer (.define name params inner) →
      ∀ o, Run.Ends Flow.EndsCall (Exec.block o inner)) ∧
    ∀ limits clock frames stop,
      let e := (Listener.handleAll (.start limits clock) frames).2
      ∀ code ∈ ((Run.programUntil stop e.limits body).leaves e.machine).heap.codes,
        ∀ o, Run.Ends Flow.EndsCall (Exec.block o code.body) := by
  have fits := blockFits_of_parse read
  constructor
  · intro outer kind within
    obtain ⟨in_loop, in_function⟩ := within.placed fits
    exact ⟨in_loop, in_function, fun o => Exec.ends_within fits within⟩
  constructor
  · intro o m flow n ended
    exact Exec.normal_of_fits fits ended
  constructor
  · rintro o first second m rfl
    have in_front : blockFits .outermost first := by
      rw [blockFits_eq_all, List.all_append, Bool.and_eq_true, ← blockFits_eq_all] at fits
      exact fits.1
    exact Exec.block_append_of_fits in_front second m
  constructor
  · intro outer name params inner within o
    exact Exec.ends_function (within.fits fits)
  · intro limits clock frames stop e code mem o
    have before : e.heap.CodesFit := Listener.codesFit_handleAll Heap.codesFit_empty frames
    exact Exec.ends_function (Run.codesFit_leaves (m := e.machine) fits before code mem)

/-- A loop in a function, and `break` in the loop. -/
theorem flows_of_parse_break :
    ∃ body outer, parse "def f():\n  while f():\n    break" = .ok body ∧ Within body outer .stop ∧ InLoop outer ∧
      ∀ o, Run.Ends (· = .normal) (Exec.block o body) := by
  have shape := parse_break
  split at shape
  · next line name params line' cond line'' read =>
    have function := Within.here (List.mem_singleton_self (Stmt.mk line (.define name params
      [.mk line' (.loop cond [.mk line'' .stop])])))
    have loop := function.inside (List.mem_singleton_self _) (List.mem_singleton_self _)
    have within := loop.inside (List.mem_singleton_self _) (List.mem_singleton_self _)
    obtain ⟨statements, normal, -⟩ := flows_of_parse read
    exact ⟨_, _, read, within, (statements _ _ within).1 (.inl rfl), normal⟩
  · cases shape

end SnippetKernel
