import Mathlib.Data.Set.Subsingleton
import Mathlib.Order.BooleanAlgebra.Set
import SnippetKernel.Process.Termination
import SnippetKernel.Proofs.Host.Runs

/-! The processes that a supervisor has started, as its surroundings know them, and how they fare while it asks
its questions. A child can end at any time, a signal can be refused, and a child can outlive a forced end; but
what is answered is true.

Ending a child. However it comes out, the child has ended then or was asked to end by force. -/
namespace SnippetKernel

structure Children where
  /-- Those that have not ended. -/
  alive : Set Pid
  /-- The one that is held. -/
  held : Option Pid
  /-- Those that were asked to end by force, since they were started. -/
  forced : Set Pid
  processes : ∀ pid ∈ alive, pid ≠ 0 ∧ pid ≤ Pid.greatest

namespace Children

/-- Before anything is started. -/
def initial : Children := ⟨∅, none, ∅, by simp⟩

/-! ### The answers to questions -/

/-- Those that may be alive after an answer: each of them can have ended since. -/
def aliveAfter (c : Children) : (q : Ask) → q.Answer → Set Pid
  | .spawn _, .ok pid => insert pid c.alive
  | _, _ => c.alive

def heldAfter (c : Children) : (q : Ask) → q.Answer → Option Pid
  | .checkHeld, .ended _ _ | .takeHeld, _ => none
  | .hold pid, _ => some pid
  | _, _ => c.held

def forcedAfter (c : Children) : (q : Ask) → q.Answer → Set Pid
  | .spawn _, .ok pid => c.forced \ {pid}
  | .signal pid .kill, _ => insert pid c.forced
  | _, _ => c.forced

/-- The answer is true of what was before or of what is now. -/
def Truthful (before now : Children) : (q : Ask) → q.Answer → Prop
  -- No two processes that are alive have one number.
  | .spawn _, .ok pid => pid ∉ before.alive
  | .poll pid, .running => pid ∈ before.alive
  | .poll pid, .ended _ | .isAlive pid, false | .signal pid _, .error .noProcess => pid ∉ now.alive
  | .checkHeld, .nothing => before.held = none
  | .checkHeld, .running pid => before.held = some pid ∧ pid ∈ before.alive
  | .checkHeld, .ended pid _ => before.held = some pid ∧ pid ∉ now.alive
  | .checkHeld, .unknown pid => before.held = some pid
  | .held, held | .takeHeld, held => held = before.held
  | _, _ => True

structure Step (before : Children) (q : Ask) (answer : q.Answer) (now : Children) : Prop where
  alive : now.alive ⊆ before.aliveAfter q answer
  held : now.held = before.heldAfter q answer
  forced : now.forced = before.forcedAfter q answer
  truthful : before.Truthful now q answer

/-! ### Children that are not given up -/

/-- Those alive that were not asked to end by force. -/
def unforced (c : Children) : Set Pid := c.alive \ c.forced

/-- There is at most one of them. -/
def AtMostOne (c : Children) : Prop := c.unforced.Subsingleton

/-- There is none, except perhaps this one. -/
def Only (c : Children) (pid : Pid) : Prop := ∀ other ∈ c.unforced, other = pid

/-- Each of them is the one that is held. -/
def Tracked (c : Children) : Prop := ∀ pid ∈ c.unforced, c.held = some pid

/-- There is none. -/
def Gone (c : Children) : Prop := ∀ pid, pid ∉ c.unforced

theorem tracked_initial : initial.Tracked := by simp [Tracked, unforced, initial]

theorem Only.atMostOne {c : Children} {pid : Pid} (only : c.Only pid) : c.AtMostOne :=
  fun one one_in other other_in => (only one one_in).trans (only other other_in).symm

theorem Gone.tracked {c : Children} (gone : c.Gone) : c.Tracked :=
  fun pid pid_in => absurd pid_in (gone pid)

theorem Tracked.only {c : Children} {pid : Pid} (tracked : c.Tracked) (held : c.held = some pid) : c.Only pid :=
  fun other other_in => Option.some.inj ((tracked other other_in).symm.trans held)

theorem Tracked.gone {c : Children} (tracked : c.Tracked) (held : c.held = none) : c.Gone :=
  fun pid pid_in => by simpa [held] using tracked pid pid_in

theorem Tracked.atMostOne {c : Children} (tracked : c.Tracked) : c.AtMostOne :=
  fun one one_in other other_in =>
    Option.some.inj ((tracked one one_in).symm.trans (tracked other other_in))

theorem Gone.atMostOne {c : Children} (gone : c.Gone) : c.AtMostOne := gone.tracked.atMostOne

theorem Only.gone {c : Children} {pid : Pid} (only : c.Only pid) (not_alive : pid ∉ c.alive) : c.Gone :=
  fun other other_in => not_alive (only other other_in ▸ other_in.1)

theorem Only.tracked {c : Children} {pid : Pid} (only : c.Only pid) (held : c.held = some pid) : c.Tracked :=
  fun other other_in => by rw [only other other_in, held]

/-! ### What an answer does to them -/

section

variable {before now : Children}

theorem Only.fewer {pid : Pid} (only : before.Only pid) (fewer : now.unforced ⊆ before.unforced) : now.Only pid :=
  fun other other_in => only other (fewer other_in)

theorem Gone.fewer (gone : before.Gone) (fewer : now.unforced ⊆ before.unforced) : now.Gone :=
  fun pid pid_in => gone pid (fewer pid_in)

theorem Tracked.fewer (tracked : before.Tracked) (fewer : now.unforced ⊆ before.unforced)
    (held : now.held = before.held) : now.Tracked :=
  fun pid pid_in => held.trans (tracked pid (fewer pid_in))

/-- Only a start makes more of them. -/
theorem Step.fewer {q : Ask} {answer : q.Answer} (step : before.Step q answer now)
    (no_start : ∀ command, q ≠ .spawn command) : now.unforced ⊆ before.unforced := by
  obtain ⟨alive, -, forced, -⟩ := step
  intro pid ⟨pid_alive, not_forced⟩
  rw [forced] at not_forced
  cases q with
  | spawn command => exact absurd rfl (no_start command)
  | signal other s =>
    cases s with
    | terminate => exact ⟨alive pid_alive, not_forced⟩
    | kill => exact ⟨alive pid_alive, fun was_forced => not_forced (Or.inr was_forced)⟩
  | _ => exact ⟨alive pid_alive, not_forced⟩

theorem Step.started {command : Command} {pid : Pid} (step : before.Step (.spawn command) (.ok pid) now)
    (gone : before.Gone) : now.Only pid := by
  intro other ⟨other_alive, not_forced⟩
  rw [step.forced] at not_forced
  rcases step.alive other_alive with same | was_alive
  · exact same
  · by_contra different
    exact gone other ⟨was_alive, fun was_forced => not_forced ⟨was_forced, different⟩⟩

theorem Step.not_started {command : Command} {e : OsError} (step : before.Step (.spawn command) (.error e) now)
    (gone : before.Gone) : now.Gone := by
  intro other ⟨other_alive, not_forced⟩
  rw [step.forced] at not_forced
  exact gone other ⟨step.alive other_alive, not_forced⟩

theorem Step.killed {pid : Pid} {answer : Except OsError Unit}
    (step : before.Step (.signal pid .kill) answer now) (only : now.Only pid) : now.Gone := by
  intro other other_in
  refine other_in.2 ?_
  rw [step.forced, only other other_in]
  exact Set.mem_insert pid before.forced

/-- A question that neither starts a process nor is about what is held. -/
def Calm : Ask → Prop
  | .spawn _ | .checkHeld | .takeHeld | .hold _ => False
  | _ => True

variable {q : Ask} {answer : q.Answer}

theorem Step.fewer_of_calm (step : before.Step q answer now) (calm : Calm q) : now.unforced ⊆ before.unforced :=
  step.fewer fun _ start => by simp [start, Calm] at calm

theorem Step.held_of_calm (step : before.Step q answer now) (calm : Calm q) : now.held = before.held := by
  cases q with
  | spawn | checkHeld | takeHeld | hold => exact calm.elim
  | _ => exact step.held

theorem Step.only (step : before.Step q answer now) (calm : Calm q) {pid : Pid} (only : before.Only pid) :
    now.Only pid :=
  only.fewer (step.fewer_of_calm calm)

theorem Step.gone (step : before.Step q answer now) (calm : Calm q) (gone : before.Gone) : now.Gone :=
  gone.fewer (step.fewer_of_calm calm)

theorem Step.tracked (step : before.Step q answer now) (calm : Calm q) (tracked : before.Tracked) : now.Tracked :=
  tracked.fewer (step.fewer_of_calm calm) (step.held_of_calm calm)

end

end Children

/-! ### Ending a child -/

open Children

variable {α β : Type} {c : Children}

/-! ### Steps of a computation -/

/-- There is never more than one child that was not asked to end by force, and in the end there is what is
said. -/
def Host.Minds (d : Host α) (atEnd : α → Children → Prop) (c : Children) : Prop :=
  d.Meets Step AtMostOne atEnd c

namespace Host.Minds

variable {atEnd : β → Children → Prop}

theorem ask {q : Ask} {f : q.Answer → Host β} (now : c.AtMostOne)
    (next : ∀ answer c', c.Step q answer c' → Host.Minds (f answer) atEnd c') :
    Host.Minds (Host.ask q >>= f) atEnd c :=
  ⟨now, next⟩

theorem bind {between : α → Children → Prop} {d : Host α} {f : α → Host β} (first : Host.Minds d between c)
    (second : ∀ a c', between a c' → Host.Minds (f a) atEnd c') : Host.Minds (d >>= f) atEnd c :=
  Dialogue.Meets.bind first second

theorem imp {atEnd weaker : α → Children → Prop} {d : Host α} (implies : ∀ a c', atEnd a c' → weaker a c')
    (minds : Host.Minds d atEnd c) : Host.Minds d weaker c :=
  Dialogue.Meets.imp implies minds

end Host.Minds

def Errand.Minds (t : Errand α) (atEnd : Except Failure α → Children → Prop) (c : Children) : Prop :=
  Host.Minds t.run atEnd c

namespace Errand.Minds

variable {atEnd : Except Failure β → Children → Prop}

theorem ask {q : Ask} {f : q.Answer → Errand β} (now : c.AtMostOne)
    (next : ∀ answer c', c.Step q answer c' → Errand.Minds (f answer) atEnd c') :
    Errand.Minds (liftM (Host.ask q) >>= f) atEnd c :=
  ⟨now, next⟩

theorem lift {between : α → Children → Prop} {d : Host α} {f : α → Errand β} (first : Host.Minds d between c)
    (second : ∀ a c', between a c' → Errand.Minds (f a) atEnd c') : Errand.Minds (liftM d >>= f) atEnd c :=
  Errand.Meets.lift first second

theorem bind {between : Except Failure α → Children → Prop} {t : Errand α} {f : α → Errand β}
    (first : Errand.Minds t between c) (second : ∀ a c', between (.ok a) c' → Errand.Minds (f a) atEnd c')
    (failed : ∀ e c', between (.error e) c' → atEnd (.error e) c') : Errand.Minds (t >>= f) atEnd c :=
  Errand.Meets.bind first second failed

end Errand.Minds

/-! ### Computations that leave the children alone -/

theorem Host.Minds.of_gone {d : Host α} (asks : Dialogue.Asks Calm d) (gone : c.Gone) :
    Host.Minds d (fun _ c' => c'.Gone) c :=
  asks.meets (fun _ _ _ _ calm step => step.gone calm) (fun _ => Gone.atMostOne) gone

theorem Host.Minds.of_tracked {d : Host α} (asks : Dialogue.Asks Calm d) (tracked : c.Tracked) :
    Host.Minds d (fun _ c' => c'.Tracked) c :=
  asks.meets (fun _ _ _ _ calm step => step.tracked calm) (fun _ => Tracked.atMostOne) tracked

/-- Questions that are asked of a process that is to end. -/
def Watches : Ask → Prop
  | .poll _ | .isAlive _ | .signal .. | .pause _ | .clock => True
  | _ => False

theorem Watches.calm (q : Ask) (watches : Watches q) : Calm q := by
  cases q with
  | spawn | checkHeld | takeHeld | hold => exact watches
  | _ => trivial

/-- Questions by which the end of a process is waited for. They do nothing to it. -/
def Looks : Ask → Prop
  | .poll _ | .isAlive _ | .pause _ | .clock => True
  | _ => False

theorem Looks.watches (q : Ask) (looks : Looks q) : Watches q := by
  cases q with
  | poll | isAlive | pause | clock => trivial
  | _ => exact looks.elim

theorem asks_isAlive (pid : Pid) : Dialogue.Asks Looks pid.isAlive := by
  unfold Pid.isAlive
  split
  · trivial
  · exact .question trivial

namespace Target

theorem asks_isRunning (t : Target) : Dialogue.Asks Looks t.isRunning := by
  cases t with
  | child pid =>
    refine .bind (.question trivial) fun answer => ?_
    cases answer with
    | running | ended => trivial
    | unknown => exact asks_isAlive pid
  | foreign pid => exact asks_isAlive pid

theorem asks_lookUntil (t : Target) (deadline reached : Nat) :
    Dialogue.Asks Looks (t.lookUntil deadline reached) := by
  induction reached using lookUntil.induct deadline with
  | _ reached ih =>
    rw [lookUntil]
    refine .bind t.asks_isRunning fun running => ?_
    split
    · refine .bind (.question trivial) fun reading => ?_
      split
      case isTrue => trivial
      case isFalse early => exact .bind (.question trivial) fun _ => ih reading early
    · trivial

theorem asks_waitForExit (t : Target) (limit : Duration) : Dialogue.Asks Looks (t.waitForExit limit) :=
  .bind (.question trivial) fun _ => t.asks_lookUntil _ _

/-- Questions that are asked to end a process: looks, and signals to this process only. -/
def Treats (t : Target) (q : Ask) : Prop := Looks q ∨ ∃ s, q = .signal t.pid s

theorem Treats.watches {t : Target} (q : Ask) (treats : t.Treats q) : Watches q := by
  rcases treats with looks | ⟨s, rfl⟩
  · exact looks.watches
  · trivial

theorem treats_stop (t : Target) (grace : Duration) : Errand.Asks t.Treats (t.stop grace) := by
  have waits (limit : Duration) : Dialogue.Asks t.Treats (t.waitForExit limit) :=
    (t.asks_waitForExit limit).imp fun _ => .inl
  unfold stop
  split
  · trivial
  refine .ask (.inr ⟨_, rfl⟩) fun asked => ?_
  split
  · trivial
  refine .lift (waits grace) fun ended => ?_
  split
  · trivial
  refine .ask (.inr ⟨_, rfl⟩) fun forced => ?_
  split
  · exact .lift (waits settlePeriod) fun _ => trivial
  · exact .lift (waits settlePeriod) fun _ => trivial
  · trivial

theorem treats_terminate (t : Target) (grace : Duration) : Errand.Asks t.Treats (t.terminate grace) := by
  refine .lift (t.asks_isRunning.imp fun _ => .inl) fun running => ?_
  split
  · exact t.treats_stop grace
  · trivial

theorem asks_terminate (t : Target) (grace : Duration) : Errand.Asks Watches (t.terminate grace) :=
  (t.treats_terminate grace).imp Treats.watches

/-! ### The child that is ended -/

variable {pid : Pid}

theorem minds_isAlive (only : c.Only pid) :
    Host.Minds pid.isAlive
      (fun alive c' => c'.Only pid ∧ c'.held = c.held ∧ (alive = false → c'.Gone)) c := by
  unfold Pid.isAlive
  split
  case isTrue no_process =>
    refine ⟨only, rfl, fun _ => only.gone fun pid_alive => ?_⟩
    have process := c.processes pid pid_alive
    exact no_process.elim process.1 (UInt32.not_lt.mpr process.2)
  case isFalse =>
    refine .question only.atMostOne fun alive c' step => ?_
    have only := step.only trivial only
    cases alive with
    | true => exact ⟨only, step.held, nofun⟩
    | false => exact ⟨only, step.held, fun _ => only.gone step.truthful⟩

theorem minds_isRunning (only : c.Only pid) :
    Host.Minds (child pid).isRunning (fun running c' => c'.Only pid ∧ (running = false → c'.Gone)) c := by
  refine .ask only.atMostOne fun answer c' step => ?_
  have only := step.only trivial only
  cases answer with
  | running => exact ⟨only, nofun⟩
  | ended s => exact ⟨only, fun _ => only.gone step.truthful⟩
  | unknown => exact (minds_isAlive only).imp fun _ _ ⟨only, _, gone⟩ => ⟨only, gone⟩

theorem minds_lookUntil (only : c.Only pid) (deadline reached : Nat) :
    Host.Minds ((child pid).lookUntil deadline reached)
      (fun ended c' => c'.Only pid ∧ (ended = true → c'.Gone)) c := by
  induction reached using lookUntil.induct deadline generalizing c with
  | _ reached ih =>
    rw [lookUntil]
    refine .bind (minds_isRunning only) fun running c' ⟨only, gone⟩ => ?_
    cases running with
    | false => exact ⟨only, fun _ => gone rfl⟩
    | true =>
      refine .ask only.atMostOne fun reading c'' step => ?_
      have only := step.only trivial only
      split
      case isTrue => exact ⟨only, nofun⟩
      case isFalse early =>
        exact .ask only.atMostOne fun _ c'' step => ih reading early (step.only trivial only)

theorem minds_waitForExit (only : c.Only pid) (limit : Duration) :
    Host.Minds ((child pid).waitForExit limit)
      (fun ended c' => c'.Only pid ∧ (ended = true → c'.Gone)) c :=
  .ask only.atMostOne fun _ _ step => minds_lookUntil (step.only trivial only) _ _

theorem minds_stop (only : c.Only pid) (grace : Duration) :
    Errand.Minds ((child pid).stop grace) (fun _ c' => c'.Gone) c := by
  unfold stop
  split
  case isTrue too_great =>
    exact only.gone fun pid_alive => UInt32.not_lt.mpr (c.processes pid pid_alive).2 too_great
  refine .ask only.atMostOne fun asked c' step => ?_
  have only := step.only trivial only
  split
  case h_1 => exact only.gone step.truthful
  refine .lift (minds_waitForExit only grace) fun ended c' ⟨only, gone⟩ => ?_
  split
  case isTrue ended => exact gone ended
  refine .ask only.atMostOne fun forced c'' step => ?_
  have gone := step.killed (step.only trivial only)
  have settles := ((child pid).asks_waitForExit settlePeriod).imp Looks.watches
  have settled := Host.Minds.of_gone (settles.imp Watches.calm) gone
  split
  case h_1 | h_2 => exact .lift settled fun _ _ gone => gone
  case h_3 => exact gone

theorem minds_terminate (only : c.Only pid) (grace : Duration) :
    Errand.Minds ((child pid).terminate grace) (fun _ c' => c'.Gone) c := by
  refine .lift (minds_isRunning only) fun running c' ⟨only, gone⟩ => ?_
  cases running with
  | true => exact minds_stop only grace
  | false => exact gone rfl

/-! ### A child that outlives it -/

variable {c' : Children}

theorem isRunning_of_alive (pid_alive : pid ∈ c.alive) : Dialogue.Ends Step (child pid).isRunning c true c :=
  .ask (⟨subset_rfl, rfl, rfl, pid_alive⟩ : c.Step (.poll pid) .running c) .done

theorem waitForExit_outlived (pid_alive : pid ∈ c.alive) (limit : Duration) :
    Dialogue.Ends Step ((child pid).waitForExit limit) c false c := by
  have read (reading : Duration) : c.Step .clock reading c := ⟨subset_rfl, rfl, rfl, trivial⟩
  have late : 0 + limit.nanos ≤ max 0 limit.nanos := Nat.zero_add _ ▸ Nat.le_max_right 0 limit.nanos
  refine .ask (read ⟨0⟩) ?_
  show Dialogue.Ends Step ((child pid).lookUntil (0 + limit.nanos) 0) c false c
  rw [lookUntil]
  refine .bind (isRunning_of_alive pid_alive) (.bind (.question (read limit)) ?_)
  rw [if_pos late]
  exact .done

theorem terminate_outlived (pid_alive : pid ∈ c.alive) (outlives : pid ∈ c'.alive)
    (killed : c.Step (.signal pid .kill) (.ok ()) c') (grace : Duration) :
    Errand.Ends Step ((child pid).terminate grace) c (.ok .survived) c' := by
  refine .lift (isRunning_of_alive pid_alive) ?_
  have asked : c.Step (.signal pid .terminate) (.ok ()) c := ⟨subset_rfl, rfl, rfl, trivial⟩
  have in_range : ¬Pid.greatest < (child pid).pid := UInt32.not_lt.mpr (c.processes pid pid_alive).2
  simp only [stop, if_neg in_range]
  refine .ask asked (.lift (waitForExit_outlived pid_alive grace) ?_)
  exact .ask killed (.lift (waitForExit_outlived outlives settlePeriod) .done)

end Target

end SnippetKernel
