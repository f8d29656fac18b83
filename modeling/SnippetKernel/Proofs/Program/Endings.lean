import SnippetKernel.Program.Call
import SnippetKernel.Proofs.Source.Placement

/-! How blocks end. Where statements stand in the right places, `break` and `continue` end nothing but the
bodies of loops, and `return` ends nothing but the bodies of functions; so the statements of a program end
normally, or else with an exception. -/
namespace SnippetKernel

open Source

/-- How statements may end in such surroundings. -/
def Flow.Allowed (s : Source.Surroundings) : Flow → Prop
  | .normal => True
  | .stop | .next => s.inLoop = true
  | .ret _ => s.inFunction = true

namespace Run

variable {α β : Type}

/-- Whatever the piece gives is `good`. -/
def Ends (good : α → Prop) (run : Run α) : Prop := ∀ m a n, run m = .ok a n → good a

namespace Ends

variable {good : α → Prop} {best : β → Prop} {run : Run α} {next : α → Run β} {s : Source.Surroundings}

theorem done {a : α} (h : good a) : Ends good (pure a) := by
  rintro m b n ⟨⟩
  exact h

theorem halt (h : Halt) : Ends good (throw h) := fun _ _ _ ended => nomatch ended

theorem raise (kind : ExceptionKind) (message : String) :
    Ends good (Run.ofWork (Work.raise kind message)) := fun _ _ _ ended => nomatch ended

theorem andThen (first : Ends good run) (second : ∀ a, good a → Ends best (next a)) :
    Ends best (run >>= next) := by
  intro m b n ended
  change EStateM.bind run next m = _ at ended
  unfold EStateM.bind at ended
  split at ended
  · next a m' gave => exact second a (first m a m' gave) m' b n ended
  · cases ended

theorem after (second : ∀ a, Ends best (next a)) : Ends best (run >>= next) := by
  have anything : Ends (fun _ => True) run := fun _ _ _ _ => trivial
  exact anything.andThen fun a _ => second a

theorem ensure (first : Ends good run) (last : Machine → Machine) : Ends good (run.ensure last) := by
  intro m a n ended
  unfold Run.ensure at ended
  split at ended
  · next b m' gave =>
    cases ended
    exact first m _ m' gave
  · cases ended
  · cases ended

theorem tracing (line : Nat) (first : Ends good run) : Ends good (Run.tracing line run) := by
  intro m a n ended
  unfold Run.tracing at ended
  split at ended
  · next b m' gave =>
    cases ended
    exact first m _ _ gave
  · cases ended
  · cases ended

/-- An attempt gives what the work gives, or an exception. -/
theorem attempt (good : α → Prop) (first : Ends good run) :
    Ends (fun outcome => ∀ a, outcome = .ok a → good a) run.attempt := by
  intro m outcome n ended a same
  unfold Run.attempt at ended
  split at ended
  · next b m' gave =>
    cases ended
    cases same
    exact first m _ _ gave
  · cases ended
    cases same
  · cases ended

theorem ofAttempt {outcome : Except Fault α} (h : ∀ a, outcome = .ok a → good a) :
    Ends good (Run.ofAttempt outcome) := by
  cases outcome with
  | ok a => exact .done (h a rfl)
  | error f => exact .halt _

/-- A loop ends its body's `break` and `continue`, and passes `return` on. -/
theorem loop (flow : Flow) {rest : Run Flow} (goesOn : Ends (Flow.Allowed s) rest) :
    flow.Allowed { s with inLoop := true } → Ends (Flow.Allowed s) (match flow with
      | .stop => return .normal
      | .ret v => return .ret v
      | _ => rest) := by
  intro h
  cases flow with
  | normal => exact goesOn
  | stop => exact .done trivial
  | next => exact goesOn
  | ret v => exact .done h

theorem whileTrue (cond : Run Bool) {body : Run Flow}
    (bodies : Ends (Flow.Allowed { s with inLoop := true }) body) (turns : Nat) :
    Ends (Flow.Allowed s) (Run.whileTrue cond body turns) := by
  induction turns with
  | zero => exact .halt _
  | succ turns ih =>
    refine .after fun holds => ?_
    cases holds with
    | false => exact .done trivial
    | true => exact bodies.andThen fun flow => .loop flow ih

theorem forEach {body : α → Run Flow} (bodies : ∀ a, Ends (Flow.Allowed { s with inLoop := true }) (body a))
    (items : List α) : Ends (Flow.Allowed s) (Run.forEach body items) := by
  induction items with
  | nil => exact .done trivial
  | cons item rest ih => exact (bodies item).andThen fun flow => .loop flow ih

theorem forRange {body : Value → Run Flow}
    (bodies : ∀ v, Ends (Flow.Allowed { s with inLoop := true }) (body v)) (r : Range) (i left : Nat) :
    Ends (Flow.Allowed s) (Run.forRange body r i left) := by
  induction left generalizing i with
  | zero => exact .done trivial
  | succ left ih =>
    unfold Run.forRange
    split
    · exact .done trivial
    · exact (bodies _).andThen fun flow => .loop flow (ih _)

theorem handling {body : Run Flow} (bodies : Ends (Flow.Allowed s) body) (fault : Fault)
    (name : Option String) : Ends (Flow.Allowed s) (Run.handling fault name body) := by
  have inner (handled : Handled) : Ends (Flow.Allowed s) (Run.handlingAs handled name body) := by
    have inside : Ends (Flow.Allowed s) (Run.whileHandling handled body) := .after fun _ => bodies.ensure _
    cases name with
    | none => exact inside
    | some name => exact .after fun _ => inside.ensure _
  unfold Run.handling
  split
  · exact .after fun id => inner _
  · exact .after fun id => inner _

end Ends

end Run

namespace Exec

open Run

variable {o : Outside}

theorem ends_visit {s : Source.Surroundings} (v : Value) {body : Value → Run Flow}
    (bodies : ∀ v, Ends (Flow.Allowed { s with inLoop := true }) (body v)) :
    Ends (Flow.Allowed s) (visit v body) := by
  unfold visit
  split
  · exact .forRange bodies _ _ _
  · exact .after fun items => .forEach bodies items

mutual

theorem ends_block {s : Source.Surroundings} (body : List Stmt) (fits : blockFits s body) :
    Ends (Flow.Allowed s) (block o body) := by
  cases body with
  | nil =>
    simp only [block]
    exact .done trivial
  | cons stmt rest =>
    obtain ⟨line, kind⟩ := stmt
    simp only [blockFits, Stmt.fits, Bool.and_eq_true] at fits
    simp only [block]
    refine ((ends_statement kind fits.1).tracing line).andThen fun flow allowed => ?_
    cases flow with
    | normal => exact ends_block rest fits.2
    | stop => exact .done allowed
    | next => exact .done allowed
    | ret v => exact .done allowed

theorem ends_statement {s : Source.Surroundings} (kind : StmtKind) (fits : kind.fits s) :
    Ends (Flow.Allowed s) (statement o kind) := by
  cases kind with
  | cond branches orelse =>
    simp only [StmtKind.fits, Bool.and_eq_true] at fits
    simp only [statement]
    exact ends_branch (ends_block orelse fits.2) branches fits.1
  | loop cond body =>
    simp only [statement]
    simp only [StmtKind.fits] at fits
    exact .whileTrue _ (ends_block body fits) _
  | each target source body =>
    simp only [statement]
    simp only [StmtKind.fits] at fits
    exact .after fun v => ends_visit v fun item => .after fun _ => ends_block body fits
  | ret value =>
    cases value with
    | none =>
      simp only [statement]
      exact .done fits
    | some value =>
      simp only [statement]
      exact .after fun v => .done fits
  | raise value =>
    cases value with
    | none =>
      simp only [statement]
      refine .after fun m => ?_
      split
      · exact .halt _
      · exact .raise _ _
    | some value =>
      simp only [statement]
      refine .after fun v => ?_
      unfold raiseValue
      split
      · exact .halt _
      · exact .raise _ _
      · exact .raise _ _
  | attempt body handlers orelse final =>
    simp only [StmtKind.fits, Bool.and_eq_true] at fits
    obtain ⟨⟨⟨in_body, in_handlers⟩, in_orelse⟩, in_final⟩ := fits
    simp only [statement]
    refine (Ends.attempt (Flow.Allowed s) ?_).andThen fun outcome allowed => ?_
    · refine (Ends.attempt _ (ends_block body in_body)).andThen fun first allowed => ?_
      split
      · exact ends_handle _ handlers in_handlers
      · exact ends_block orelse in_orelse
      · exact .done (allowed _ rfl)
    · refine (ends_block final in_final).andThen fun flow last => ?_
      cases flow with
      | normal => exact .ofAttempt allowed
      | stop => exact .done last
      | next => exact .done last
      | ret v => exact .done last
  | stop =>
    simp only [statement]
    exact .done fits
  | next =>
    simp only [statement]
    exact .done fits
  | pass =>
    simp only [statement]
    exact .done trivial
  | _ =>
    simp only [statement]
    first
      | exact .after fun _ => .done trivial
      | exact .after fun _ => .after fun _ => .done trivial

theorem ends_branch {s : Source.Surroundings} {orelse : Run Flow} (others : Ends (Flow.Allowed s) orelse)
    (branches : List (Expr × List Stmt)) (fits : branchesFit s branches) :
    Ends (Flow.Allowed s) (branch o orelse branches) := by
  cases branches with
  | nil =>
    simp only [branch]
    exact others
  | cons first rest =>
    simp only [branchesFit, Bool.and_eq_true] at fits
    simp only [branch]
    refine .after fun v => .after fun holds => ?_
    cases holds with
    | false => exact ends_branch others rest fits.2
    | true => exact ends_block first.2 fits.1

theorem ends_handle {s : Source.Surroundings} (fault : Fault) (handlers : List Handler) (fits : handlersFit s handlers) :
    Ends (Flow.Allowed s) (handle o fault handlers) := by
  cases handlers with
  | nil =>
    simp only [handle]
    exact .halt _
  | cons first rest =>
    obtain ⟨class_, name, body⟩ := first
    simp only [handlersFit, Handler.fits, Bool.and_eq_true] at fits
    cases class_ with
    | none =>
      simp only [handle]
      exact .handling (ends_block body fits.1) fault name
    | some class_ =>
      simp only [handle]
      refine .after fun v => .after fun caught => ?_
      cases caught with
      | false => exact ends_handle fault rest fits.2
      | true => exact .handling (ends_block body fits.1) fault name

end

/-- The statements of a program end normally if they end without an exception. -/
theorem normal_of_fits {body : List Stmt} (fits : blockFits .outermost body) {m n : Machine} {flow : Flow}
    (ended : block o body m = .ok flow n) : flow = .normal := by
  have allowed := ends_block (o := o) body fits m flow n ended
  cases flow with
  | normal => rfl
  | stop => cases allowed
  | next => cases allowed
  | ret v => cases allowed

theorem block_append (o : Outside) (first second : List Stmt) :
    block o (first ++ second) = (do
      match ← block o first with
      | .normal => block o second
      | flow => return flow) := by
  induction first with
  | nil => simp [block]
  | cons stmt rest ih =>
    obtain ⟨line, kind⟩ := stmt
    simp only [List.cons_append, block, ih, bind_assoc]
    refine congrArg _ (funext fun flow => ?_)
    cases flow <;> simp

theorem block_append_of_fits {first : List Stmt} (fits : blockFits .outermost first) (second : List Stmt)
    (m : Machine) :
    block o (first ++ second) m =
      match block o first m with
      | .ok _ n => block o second n
      | .error halt n => .error halt n := by
  rw [block_append]
  change EStateM.bind (block o first) _ m = _
  unfold EStateM.bind
  cases ended : block o first m with
  | ok flow n =>
    obtain rfl := normal_of_fits fits ended
    rfl
  | error halt n => rfl

end Exec

/-- A program goes on where another came to its end. -/
theorem Run.program_append (limits : Limits) {first : List Stmt} (fits : blockFits .outermost first)
    (second : List Stmt) (m : Machine) :
    Run.program limits (first ++ second) m =
      match Run.program limits first m with
      | .ok _ n => Run.program limits second n
      | .error halt n => .error halt n := by
  have program (body : List Stmt) (m : Machine) : Run.program limits body m =
      match Exec.block ⟨Call.value (Call.function limits.turns limits.depth), limits.turns⟩ body m with
      | .ok _ n => .ok () n
      | .error halt n => .error halt n := by
    change EStateM.bind (Exec.block _ body) _ m = _
    unfold EStateM.bind
    cases Exec.block _ body m <;> rfl
  rw [program, program, Exec.block_append_of_fits fits]
  cases Exec.block _ first m with
  | ok flow n => exact (program second n).symm
  | error halt n => rfl

end SnippetKernel
