import SnippetKernel.Proofs.Supervisor.Tracking

/-! What a start is in the middle of. Its questions, with their answers, show whether it is about to look for a
child, to end it or to hold it, or can be left waiting; and no start does other things than these, whatever the
answers are. -/
namespace SnippetKernel

variable {α β : Type}

inductive Phase where
  /-- It is not about to start or to end a child. -/
  | idle
  /-- It is to find out whether a child is alive. -/
  | entered
  /-- A child is held that may be alive. -/
  | asked (pid : Pid)
  /-- No child is alive. -/
  | gone
  /-- It has taken the child and is to end it. -/
  | taken (pid : Pid)
  /-- It has started the child and is to hold it. -/
  | started (pid : Pid)
  /-- It has done what a start does not do. -/
  | lost
  deriving DecidableEq

namespace Phase

/-! ### The next phase -/

def looked : Phase → Held → Phase
  | entered, .nothing | entered, .ended _ _ => gone
  -- Such a number is none of a process, and it is not asked about.
  | entered, .unknown pid => if pid = 0 ∨ Pid.greatest < pid then gone else asked pid
  | p, _ => p

def took (p : Phase) (held : Option Pid) : Phase :=
  match p with
  | idle | entered | asked _ => held.elim gone taken
  | _ => lost

/-- A child that was taken has ended before another is started. -/
def spawned (p : Phase) (outcome : Except OsError Pid) : Phase :=
  match p, outcome with
  | gone, .ok pid | taken _, .ok pid => started pid
  | gone, .error _ | taken _, .error _ => gone
  | _, _ => lost

/-- A child that was started is not forgotten. -/
def left : Phase → Phase
  | started _ | lost => lost
  | _ => idle

def after (p : Phase) : (q : Ask) → q.Answer → Phase
  | .setStarting true, _ => if p = idle then entered else lost
  | .setStarting false, _ => p.left
  | .checkHeld, held => p.looked held
  | .isAlive pid, false => if p = asked pid then gone else p
  | .takeHeld, held => p.took held
  | .spawn _, outcome => p.spawned outcome
  | .hold pid, _ => if p = started pid then idle else lost
  | _, _ => p

/-- A child is looked for or taken. -/
def CanTake : Phase → Prop
  | idle | entered | asked _ => True
  | _ => False

def CanSpawn : Phase → Prop
  | gone | taken _ => True
  | _ => False

def CanLeave (p : Phase) : Prop := p.left = idle

variable {p : Phase}

theorem CanSpawn.leave (free : p.CanSpawn) : p.CanLeave := by
  cases p with
  | gone | taken => rfl
  | _ => exact free.elim

theorem CanLeave.not_lost (can_leave : p.CanLeave) : p ≠ lost := by
  rintro rfl
  exact nomatch can_leave

theorem CanTake.took (can_take : p.CanTake) (held : Option Pid) : p.took held = held.elim gone taken := by
  cases p with
  | idle | entered | asked => rfl
  | _ => exact can_take.elim

theorem CanTake.not_lost (can_take : p.CanTake) : p ≠ lost := by
  rintro rfl
  exact can_take

end Phase

/-! ### Computations that keep to the phases -/

/-- Whatever the answers are, it does in each phase what a start may do then. -/
def Host.Paces (d : Host α) (atEnd : α → Phase → Prop) (p : Phase) : Prop :=
  d.Meets (fun p q answer p' => p' = p.after q answer) (· ≠ .lost) atEnd p

namespace Host.Paces

variable {p : Phase} {atEnd : β → Phase → Prop}

theorem ask {q : Ask} {f : q.Answer → Host β} (now : p ≠ .lost)
    (next : ∀ answer, Host.Paces (f answer) atEnd (p.after q answer)) : Host.Paces (Host.ask q >>= f) atEnd p := by
  refine ⟨now, ?_⟩
  rintro answer _ rfl
  exact next answer

theorem not_lost {atEnd : α → Phase → Prop} {d : Host α} (at_end : ∀ a p, atEnd a p → p ≠ .lost)
    (paces : Host.Paces d atEnd p) : p ≠ .lost := by
  cases d with
  | done a => exact at_end a p paces
  | ask q next => exact paces.1

/-- Questions that do not change the phase. -/
theorem of_asks {kind : Ask → Prop} {d : Host α} (asks : Dialogue.Asks kind d)
    (stays : ∀ q answer, kind q → p.after q answer = p) (now : p ≠ .lost) :
    Host.Paces d (fun _ p' => p' = p) p := by
  refine asks.meets (fun p₁ q answer p₂ of_kind next same => ?_) (fun p' same => same ▸ now) rfl
  rw [next, same, stays q answer of_kind]

end Host.Paces

def Errand.Paces (t : Errand α) (atEnd : Except Failure α → Phase → Prop) (p : Phase) : Prop :=
  Host.Paces t.run atEnd p

namespace Errand.Paces

variable {p : Phase} {atEnd : Except Failure β → Phase → Prop}

theorem ask {q : Ask} {f : q.Answer → Errand β} (now : p ≠ .lost)
    (next : ∀ answer, Errand.Paces (f answer) atEnd (p.after q answer)) :
    Errand.Paces (liftM (Host.ask q) >>= f) atEnd p :=
  Host.Paces.ask now next

theorem lift {between : α → Phase → Prop} {d : Host α} {f : α → Errand β} (first : Host.Paces d between p)
    (second : ∀ a p', between a p' → Errand.Paces (f a) atEnd p') : Errand.Paces (liftM d >>= f) atEnd p :=
  Errand.Meets.lift first second

theorem bind {between : Except Failure α → Phase → Prop} {t : Errand α} {f : α → Errand β}
    (first : Errand.Paces t between p) (second : ∀ a p', between (.ok a) p' → Errand.Paces (f a) atEnd p')
    (failed : ∀ e p', between (.error e) p' → atEnd (.error e) p') : Errand.Paces (t >>= f) atEnd p :=
  Errand.Meets.bind first second failed

end Errand.Paces

/-! ### The parts of a start -/

namespace Supervisor

variable {p : Phase}

theorem after_prepares {q : Ask} (answer : q.Answer) (prepares : Launch.Prepares q) : p.after q answer = p := by
  cases q with
  | makeDirectory | openLog => rfl
  | _ => exact prepares.elim

/-- While it ends a child, it is in the same phase. -/
theorem after_watches {q : Ask} (answer : q.Answer) (watches : Watches q) (pid : Pid) :
    (Phase.taken pid).after q answer = .taken pid := by
  cases q with
  | isAlive other =>
    cases answer with
    | true | false => rfl
  | poll | signal | pause | clock => rfl
  | _ => exact watches.elim

theorem paces_isChildAlive :
    Host.Paces isChildAlive (fun alive p => match alive with
      | true => p.CanTake
      | false => p = .gone) .entered := by
  refine .ask nofun fun answer => ?_
  cases answer with
  | nothing | ended => exact rfl
  | running pid => exact trivial
  | unknown pid =>
    simp only [Phase.after, Phase.looked]
    unfold Pid.isAlive
    split
    case isTrue => exact rfl
    case isFalse =>
      refine ⟨nofun, ?_⟩
      rintro alive _ rfl
      cases alive with
      | true => exact trivial
      | false => exact if_pos rfl

theorem paces_childExit? : Host.Paces childExit? (fun _ p => p = .idle) .idle := by
  refine .ask nofun fun answer => ?_
  cases answer with
  | nothing | ended | running | unknown => rfl

theorem paces_terminateChild (can_take : p.CanTake) : Errand.Paces terminateChild (fun _ p => p.CanSpawn) p := by
  refine .ask can_take.not_lost fun held => ?_
  rw [Phase.after, can_take.took]
  cases held with
  | none => trivial
  | some pid =>
    have ended : Errand.Paces ((Target.child pid).terminate grace) (fun _ p => p.CanSpawn) (.taken pid) := by
      refine Dialogue.Meets.imp (fun _ p same => ?_) (Host.Paces.of_asks
        ((Target.child pid).asks_terminate grace) (fun _ answer watches => after_watches answer watches pid) nofun)
      rw [same]
      trivial
    exact .bind ended (fun _ _ free => free) fun _ _ free => free

theorem paces_spawn (l : Launch) (free : p.CanSpawn) :
    Errand.Paces l.spawn (fun outcome p => match outcome with
      | .ok pid => p = .started pid
      | .error _ => p.CanSpawn) p := by
  have prepared := Host.Paces.of_asks l.asks_command (p := p) (fun _ answer => after_prepares answer)
    free.leave.not_lost
  refine .bind prepared (fun command p' same => ?_) fun _ p' same => same ▸ free
  subst same
  refine .ask free.leave.not_lost fun answer => ?_
  cases p' with
  | gone | taken =>
    cases answer with
    | ok pid => rfl
    | error e => trivial
  | _ => exact free.elim

theorem paces_await (s : Supervisor) (pid : Pid) (left : Nat) :
    Errand.Paces (s.await pid left) (fun _ p => p.CanLeave) .idle := by
  induction left with
  | zero => exact .bind (paces_terminateChild trivial) (fun _ _ free => free.leave) fun _ _ free => free.leave
  | succ left ih =>
    refine .ask nofun fun reachable => ?_
    split
    · exact rfl
    refine .lift paces_childExit? fun exit p same => ?_
    subst same
    cases exit with
    | some status => exact rfl
    | none => exact .ask nofun fun _ => ih

theorem paces_launched (s : Supervisor) (free : p.CanSpawn) :
    Errand.Paces (do
      let pid ← s.launch.spawn
      Host.ask (.hold pid)
      s.await pid s.attempts) (fun _ p => p.CanLeave) p := by
  refine .bind (paces_spawn s.launch free) (fun pid p' same => ?_) fun _ _ free => free.leave
  subst same
  refine .ask nofun fun _ => ?_
  rw [show (Phase.started pid).after (.hold pid) () = .idle from if_pos rfl]
  exact paces_await s pid s.attempts

theorem paces_spawnAndAwait (s : Supervisor) : Errand.Paces s.spawnAndAwait (fun _ p => p.CanLeave) .entered := by
  refine .lift paces_isChildAlive fun alive p holds => ?_
  cases alive with
  | false =>
    subst holds
    exact paces_launched s trivial
  | true =>
    exact .bind (paces_terminateChild holds) (fun _ _ free => paces_launched s free) fun _ _ free => free.leave

theorem paces_start (s : Supervisor) : Errand.Paces s.start (fun _ p => p = .idle) .idle := by
  refine .ask nofun fun reachable => ?_
  split
  · exact rfl
  refine .ask nofun fun _ => .lift (paces_spawnAndAwait s) fun outcome p can_leave => ?_
  exact .ask can_leave.not_lost fun _ => can_leave

end Supervisor

end SnippetKernel
