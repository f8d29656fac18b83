import SnippetKernel.Proofs.Program.Balance
import SnippetKernel.Proofs.Program.Evaluation
import SnippetKernel.Proofs.Program.Endings
import SnippetKernel.Proofs.Program.Invariants

/-! The code of functions. Nothing but `def` puts code on the heap, and that code is a part of the program. So if the
statements of programs stand where they may, then so do those of every function that can be called. -/
namespace SnippetKernel

open Source

/-- Every function on the heap has a body that may be that of a function. -/
def Heap.CodesFit (h : Heap) : Prop :=
  ∀ code ∈ h.codes, blockFits { inLoop := false, inFunction := true } code.body

theorem Heap.CodesFit.code {h : Heap} (fit : h.CodesFit) (ref : Nat) :
    blockFits { inLoop := false, inFunction := true } (h.code ref).body := by
  unfold Heap.code
  cases found : h.codes[ref]? with
  | none => rfl
  | some code => exact fit code (Array.mem_of_getElem? found)

namespace Machine

theorem heap_bind (m : Machine) (name : String) (v : Value) : (m.bind name v).heap = m.heap := by
  obtain ⟨names, heap, _ | ⟨frame, outer⟩, handling, writes, clock⟩ := m
  · rfl
  · unfold bind
    simp only
    split <;> rfl

theorem heap_unbind (m : Machine) (name : String) : (m.unbind name).heap = m.heap := by
  obtain ⟨names, heap, _ | ⟨frame, outer⟩, handling, writes, clock⟩ := m
  · rfl
  · unfold unbind
    simp only
    split <;> rfl

theorem heap_rebind (m : Machine) (saved : List (String × Option Value)) : (Run.rebind m saved).heap = m.heap := by
  induction saved generalizing m with
  | nil => rfl
  | cons entry rest ih =>
    obtain ⟨name, _ | v⟩ := entry
    · exact (ih _).trans (m.heap_unbind name)
    · exact (ih _).trans (m.heap_bind name v)

end Machine

namespace Run

variable {α : Type} {run : Run α}

/-- However a piece ends, the functions on the heap still have bodies that fit. -/
def codesFit : Guarantee where
  inv m := m.heap.CodesFit
  step _ _ := True
  lost m := m.heap.CodesFit
  refl _ := trivial
  trans _ _ := trivial
  lost_of_inv fit := fit

/-- The piece puts no code on the heap that does not fit. -/
def KeepsCodes (run : Run α) : Prop := codesFit.Meets (fun _ => True) run

namespace KeepsCodes

theorem change {f : Machine → Machine} (same : ∀ m : Machine, (f m).heap = m.heap) : KeepsCodes (modify f) := by
  apply Guarantee.Meets.change
  intro m fit
  have after : (f m).heap.CodesFit := (same m).symm ▸ fit
  exact ⟨after, trivial⟩

theorem enclosed (keeps : KeepsCodes run) {enter leave : Machine → Machine} (entered : ∀ m, (enter m).heap = m.heap)
    (left : ∀ m, (leave m).heap = m.heap) (m : Machine) (fit : m.heap.CodesFit) :
    codesFit.Ends (fun _ => True) m (run.ensure leave (enter m)) := by
  apply Guarantee.Meets.enclosed enter (fun _ => leave) keeps _ _ (fun _ lost => lost) m fit
  · intro m fit
    have before : (enter m).heap.CodesFit := (entered m).symm ▸ fit
    exact before
  · intro m n _ fit _
    have after : (leave n).heap.CodesFit := (left n).symm ▸ fit
    exact ⟨after, trivial⟩

theorem ofWork (work : Work α) : KeepsCodes (Run.ofWork work) := by
  have stays : Work.Stays .whole (fun _ => True) work := by
    intro r _
    cases work r with
    | ok a n => exact ⟨trivial, n.cells.within_whole⟩
    | error e n => exact n.cells.within_whole
  exact Guarantee.Meets.ofWork stays (fun m _ => m.heap.toCells.within_whole) fun _ _ _ _ fit _ => ⟨fit, trivial⟩

theorem lookup (name : String) : KeepsCodes (Run.lookup name) := by
  apply Guarantee.Meets.look
  intro m fit
  cases (m.lookup? name).or (Builtins.global? name) with
  | none => exact ofWork _ m fit
  | some v => exact Guarantee.Meets.done trivial m fit

theorem unbind (name : String) : KeepsCodes (Run.unbind name) := by
  apply Guarantee.Meets.look
  intro m fit
  cases m.binding? name with
  | none => exact ofWork _ m fit
  | some _ => exact change (fun m => m.heap_unbind name) m fit

theorem reraise : KeepsCodes Run.reraise := by
  apply Guarantee.Meets.look
  intro m fit
  cases m.handling with
  | nil => exact ofWork _ m fit
  | cons handled rest => exact Guarantee.Meets.halt _ m fit

theorem keeping (names : List String) (keeps : KeepsCodes run) : KeepsCodes (Run.keeping names run) := by
  apply Guarantee.Meets.look
  intro m fit
  exact keeps.enclosed (fun _ => rfl) (fun n => n.heap_rebind _) m fit

theorem declareGlobal (names : List String) : KeepsCodes (Run.declareGlobal names) := by
  apply change
  intro m
  obtain ⟨known, heap, _ | ⟨frame, outer⟩, handling, writes, clock⟩ := m <;> rfl

theorem attempt (keeps : KeepsCodes run) : KeepsCodes run.attempt := by
  rw [← bind_pure run.attempt]
  exact Guarantee.Meets.andThen (Guarantee.Meets.attempt keeps) fun _ _ => .done trivial

theorem newCode {code : Code} (fits : blockFits { inLoop := false, inFunction := true } code.body) :
    KeepsCodes (Run.newCode code) := by
  intro m fit
  refine ⟨trivial, fun other mem => ?_, trivial⟩
  rcases Array.mem_push.mp mem with mem | rfl
  · exact fit other mem
  · exact fits

end KeepsCodes

/-- The pieces are one and the same, and keep the codes. -/
structure KeepsCodesAlike (run copy : Run α) : Prop where
  same : copy = run
  keeps : KeepsCodes run

theorem KeepsCodes.alike (keeps : KeepsCodes run) : KeepsCodesAlike run run := ⟨rfl, keeps⟩

theorem KeepsCodesAlike.attempt (alike : KeepsCodesAlike run run) : KeepsCodesAlike run.attempt run.attempt :=
  alike.keeps.attempt.alike

theorem likeness_keepsCodes : Likeness KeepsCodesAlike where
  done _ := KeepsCodes.alike (.done trivial)
  raise _ _ := KeepsCodes.alike (.halt _)
  turns := KeepsCodes.alike (.halt _)
  andThen first second := by
    obtain ⟨rfl, first⟩ := first
    obtain rfl := funext fun a => (second a).same
    exact KeepsCodes.alike (.andThen first fun a _ => (second a).keeps)
  ofWork work := (KeepsCodes.ofWork work).alike
  lookup name := (KeepsCodes.lookup name).alike
  bind name v := (KeepsCodes.change fun m => m.heap_bind name v).alike
  unbind name := (KeepsCodes.unbind name).alike
  unbinding name inner := by
    obtain ⟨rfl, keeps⟩ := inner
    exact KeepsCodes.alike (keeps.enclosed (fun _ => rfl) fun m => m.heap_unbind name)
  keeping names inner := by
    obtain ⟨rfl, keeps⟩ := inner
    exact (keeps.keeping names).alike
  whileHandling _ inner := by
    obtain ⟨rfl, keeps⟩ := inner
    exact KeepsCodes.alike (keeps.enclosed (fun _ => rfl) fun _ => rfl)
  reraise := KeepsCodes.reraise.alike
  declareGlobal names := (KeepsCodes.declareGlobal names).alike

end Run

/-! ### Statements -/

namespace Exec

open Run

variable {call : ValueCaller} (calls : Likeness.Calls KeepsCodesAlike call call)

include calls

theorem keepsCodes_define {code : Code} (fits : blockFits { inLoop := false, inFunction := true } code.body) :
    KeepsCodesAlike (define call code) (define call code) := by
  have like := calls.toLikeness
  unfold define
  refine like.andThen (alike_defaults calls code.params) fun values => like.andThen (like.ofWork _) fun id => ?_
  exact like.andThen (KeepsCodes.newCode fits).alike fun ref => like.bind _ _

mutual

theorem keepsCodes_block {s : Source.Surroundings} (turns : Nat) (body : List Stmt) (fits : blockFits s body) :
    KeepsCodesAlike (block ⟨call, turns⟩ body)
      (block ⟨call, turns⟩ body) := by
  have like := calls.toLikeness
  cases body with
  | nil =>
    simp only [block]
    exact like.done _
  | cons stmt rest =>
    obtain ⟨line, kind⟩ := stmt
    simp only [blockFits, Stmt.fits, Bool.and_eq_true] at fits
    simp only [block]
    have first : KeepsCodes (Run.tracing line (statement ⟨call, turns⟩ kind)) :=
      Guarantee.Meets.tracing line (keepsCodes_statement turns kind fits.1).keeps
    exact like.andThen first.alike (like.proceed (keepsCodes_block turns rest fits.2))

theorem keepsCodes_statement {s : Source.Surroundings} (turns : Nat) (kind : StmtKind) (fits : kind.fits s) :
    KeepsCodesAlike (statement ⟨call, turns⟩ kind)
      (statement ⟨call, turns⟩ kind) := by
  have like := calls.toLikeness
  cases kind with
  | cond branches orelse =>
    simp only [StmtKind.fits, Bool.and_eq_true] at fits
    simp only [statement]
    exact keepsCodes_branch turns (keepsCodes_block turns orelse fits.2) branches fits.1
  | loop cond body =>
    simp only [StmtKind.fits] at fits
    simp only [statement]
    have conds := like.andThen (Eval.alike_expr calls cond) fun v => like.ofWork (Work.truthy v)
    exact like.whileTrue conds (keepsCodes_block turns body fits) turns
  | each target source body =>
    simp only [StmtKind.fits] at fits
    simp only [statement]
    refine like.andThen (Eval.alike_expr calls source) fun v => like.visit (fun item => ?_) v
    exact like.andThen (Eval.alike_assign calls target item) fun _ => keepsCodes_block turns body fits
  | define name params body =>
    simp only [statement]
    exact like.andThen (keepsCodes_define calls fits) fun _ => like.done _
  | attempt body handlers orelse final =>
    simp only [StmtKind.fits, Bool.and_eq_true] at fits
    obtain ⟨⟨⟨in_body, in_handlers⟩, in_orelse⟩, in_final⟩ := fits
    simp only [statement]
    refine like.andThen (KeepsCodesAlike.attempt ?_) fun outcome => ?_
    · refine like.andThen (keepsCodes_block turns body in_body).attempt fun first => ?_
      split
      · exact keepsCodes_handle turns _ handlers in_handlers
      · exact keepsCodes_block turns orelse in_orelse
      · exact like.done _
    · refine like.andThen (keepsCodes_block turns final in_final) fun flow => ?_
      cases flow with
      | normal =>
        cases outcome with
        | ok flow => exact like.done flow
        | error fault => exact KeepsCodes.alike (.halt _)
      | stop | next | ret => exact like.done _
  | _ => exact alike_plain calls turns trivial

theorem keepsCodes_branch {s : Source.Surroundings} (turns : Nat) {orelse : Run Flow} (others : KeepsCodesAlike orelse orelse)
    (branches : List (Expr × List Stmt)) (fits : branchesFit s branches) :
    KeepsCodesAlike (branch ⟨call, turns⟩ orelse branches)
      (branch ⟨call, turns⟩ orelse branches) := by
  have like := calls.toLikeness
  cases branches with
  | nil =>
    simp only [branch]
    exact others
  | cons first rest =>
    simp only [branchesFit, Bool.and_eq_true] at fits
    simp only [branch]
    refine like.andThen (Eval.alike_expr calls first.1) fun v => like.test v ?_ ?_
    · exact keepsCodes_block turns first.2 fits.1
    · exact keepsCodes_branch turns others rest fits.2

theorem keepsCodes_handle {s : Source.Surroundings} (turns : Nat) (fault : Fault) (handlers : List Handler)
    (fits : handlersFit s handlers) : KeepsCodesAlike (handle ⟨call, turns⟩ fault handlers)
      (handle ⟨call, turns⟩ fault handlers) := by
  have like := calls.toLikeness
  cases handlers with
  | nil =>
    simp only [handle]
    exact KeepsCodes.alike (.halt _)
  | cons first rest =>
    obtain ⟨class_, name, body⟩ := first
    simp only [handlersFit, Handler.fits, Bool.and_eq_true] at fits
    have inside := like.handling (rfl : fault.exception = _) rfl name (keepsCodes_block turns body fits.1)
    cases class_ with
    | none =>
      simp only [handle]
      exact inside
    | some class_ =>
      simp only [handle]
      refine like.andThen (Eval.alike_expr calls class_) fun v => ?_
      refine like.andThen (like.isCaughtBy _ v) fun caught => ?_
      cases caught with
      | false => exact keepsCodes_handle turns fault rest fits.2
      | true => exact inside

end

end Exec

/-! ### Calls -/

namespace Call

open Run

theorem keepsCodes_watch (stop : Machine → Bool) : KeepsCodes (Run.watch stop) := by
  intro m fit
  unfold Run.watch
  split
  · exact fit
  · exact ⟨trivial, fit, trivial⟩

/-- The body of a function is found on the heap, so it fits. -/
theorem keepsCodes_functionUntil (stop : Machine → Bool) (turns room : Nat) (ref : Nat)
    (defaults : List (Option Value)) (args : List Value) (keywords : Keywords) :
    KeepsCodes (functionUntil stop turns room ref defaults args keywords) := by
  induction room generalizing ref defaults args keywords with
  | zero =>
    simp only [functionUntil]
    exact KeepsCodes.ofWork _
  | succ room ih =>
    have calls := alike_value likeness_keepsCodes fun ref defaults args keywords => (ih ref defaults args keywords).alike
    apply Guarantee.Meets.look
    intro m fit
    have body := (Exec.keepsCodes_block calls turns _ (fit.code ref)).keeps
    have watched : KeepsCodes (do
        Run.watch stop
        let flow ← Exec.block ⟨value (functionUntil stop turns room), turns⟩ (m.heap.code ref).body
        Run.watch stop
        return flow) :=
      .andThen (keepsCodes_watch stop) fun _ _ => .andThen body fun _ _ =>
        .andThen (keepsCodes_watch stop) fun _ _ => .done trivial
    refine Guarantee.Meets.andThen (KeepsCodes.ofWork _) (fun locals _ => ?_) m fit
    refine Guarantee.Meets.andThen (watched.enclosed (fun _ => rfl) fun _ => rfl) fun flow _ => ?_
    cases flow with
    | ret | normal | stop | next => exact .done trivial

end Call

/-- At every moment of a run, the functions on the heap have bodies that fit. -/
theorem Run.codesFit_leaves {stop : Machine → Bool} {limits : Limits} {body : List Stmt}
    (fits : blockFits .outermost body) {m : Machine} (fit : m.heap.CodesFit) :
    ((Run.programUntil stop limits body).leaves m).heap.CodesFit := by
  have calls := Call.alike_value likeness_keepsCodes fun ref defaults args keywords =>
    (Call.keepsCodes_functionUntil stop limits.turns limits.depth ref defaults args keywords).alike
  have keeps : KeepsCodes (Run.programUntil stop limits body) :=
    .andThen (Exec.keepsCodes_block calls limits.turns body fits).keeps fun _ _ => .done trivial
  exact Guarantee.Meets.lost_leaves keeps fit

/-- Whatever programs run, the code of a function stays: what is on the heap as code is never changed. -/
theorem Run.program_codes (limits : Limits) (body : List Stmt) {m : Machine} {ref : Nat} {code : Code}
    (there : m.heap.codes[ref]? = some code) : ((Run.program limits body).leaves m).heap.codes[ref]? = some code := by
  let Stays (m : Machine) : Prop := m.heap.codes[ref]? = some code
  have lasts : Machine.Lasting Stays := {
    set := fun _ _ there => there
    remove := fun _ there => there
    frames := fun _ there => there
    handling := fun _ there => there
    worked := fun _ _ _ there => there
    newCode := fun _ there => by
      have inside := (Array.getElem?_eq_some_iff.1 there).1
      exact (Array.getElem?_push_lt inside).trans (Array.getElem?_eq_getElem inside ▸ there) }
  exact Run.program_lasting lasts limits body there

end SnippetKernel
