import SnippetKernel.Proofs.Host.Runs
import SnippetKernel.Proofs.Supervisor.Children

/-! How a process is made to end. It is looked at, asked to end, looked at until it has ended or its time is up, and only
then ended by force. What the looks show is read off the course of the computation alone, and whatever the process
does, the outcome says no more than they have shown. -/
namespace SnippetKernel

namespace Target

/-! ### Looks -/

/-- What a question and its answer show of the process: whether it is running, if they show that. -/
def found? (t : Target) : Turn Ask.Answer → Option Bool
  | ⟨.poll pid, .running⟩ => if t = child pid then some true else none
  | ⟨.poll pid, .ended _⟩ => if t = child pid then some false else none
  -- The number of a child that nothing is known of is asked about, unless it is none of a process.
  | ⟨.poll pid, .unknown⟩ => if t = child pid ∧ (pid = 0 ∨ Pid.greatest < pid) then some false else none
  | ⟨.isAlive pid, alive⟩ => if pid = t.pid then some alive else none
  | _ => none

/-- What the looks at the process show, one after another. -/
def looks (t : Target) (said : List (Turn Ask.Answer)) : List Bool := said.filterMap t.found?

@[simp] theorem looks_append (t : Target) (said later : List (Turn Ask.Answer)) :
    t.looks (said ++ later) = t.looks said ++ t.looks later :=
  List.filterMap_append

theorem looks_cons_some {t : Target} {turn : Turn Ask.Answer} {running : Bool} (shown : t.found? turn = some running)
    (later : List (Turn Ask.Answer)) : t.looks (turn :: later) = running :: t.looks later :=
  List.filterMap_cons_some shown

theorem looks_cons_none {t : Target} {turn : Turn Ask.Answer} (shown : t.found? turn = none)
    (later : List (Turn Ask.Answer)) : t.looks (turn :: later) = t.looks later :=
  List.filterMap_cons_none shown

/-- There are looks at it: not so at a stranger with the number of no process. -/
def Visible : Target → Prop
  | child _ => True
  | foreign pid => ¬(pid = 0 ∨ Pid.greatest < pid)

variable {S : Type} {step : S → (q : Ask) → q.Answer → S → Prop} {log : List (Episode Ask.Answer S)} {s s' : S}
  {t : Target} {pid : Pid}

theorem isAlive_cases {alive : Bool} (course : Dialogue.Course step pid.isAlive s log alive s') :
    ((pid = 0 ∨ Pid.greatest < pid) ∧ log = [] ∧ alive = false) ∨
      ¬(pid = 0 ∨ Pid.greatest < pid) ∧ log = [⟨s, .isAlive pid, alive, s'⟩] := by
  unfold Pid.isAlive at course
  split at course
  case isTrue none =>
    obtain ⟨rfl, rfl, -⟩ := Dialogue.Course.of_done course
    exact .inl ⟨none, rfl, rfl⟩
  case isFalse some => exact .inr ⟨some, (Dialogue.Course.of_question course).2⟩

/-- A look shows what is made of it, and shows it last. -/
theorem isRunning_looks {running : Bool} (visible : t.Visible)
    (course : Dialogue.Course step t.isRunning s log running s') :
    ∃ front look, log = front ++ [look] ∧ t.looks (turns front) = [] ∧ t.found? look.turn = some running := by
  cases t with
  | foreign pid =>
    obtain ⟨none, -⟩ | ⟨-, rfl⟩ := isAlive_cases course
    · exact absurd none visible
    · exact ⟨[], _, rfl, rfl, if_pos rfl⟩
  | child pid =>
    obtain ⟨answer, later, s₁, -, rfl, rest⟩ := Dialogue.Course.of_ask course
    cases answer with
    | running =>
      obtain ⟨rfl, rfl, -⟩ := Dialogue.Course.of_done rest
      exact ⟨[], _, rfl, rfl, if_pos rfl⟩
    | ended status =>
      obtain ⟨rfl, rfl, -⟩ := Dialogue.Course.of_done rest
      exact ⟨[], _, rfl, rfl, if_pos rfl⟩
    | unknown =>
      obtain ⟨none, rfl, rfl⟩ | ⟨some, rfl⟩ := isAlive_cases rest
      · exact ⟨[], _, rfl, rfl, if_pos ⟨rfl, none⟩⟩
      · have unseen : (child pid).found? ⟨.poll pid, .unknown⟩ = none := if_neg fun both => some both.2
        exact ⟨[_], _, rfl, looks_cons_none unseen [], if_pos rfl⟩

theorem looks_isRunning {running : Bool} (visible : t.Visible)
    (course : Dialogue.Course step t.isRunning s log running s') : t.looks (turns log) = [running] := by
  obtain ⟨front, look, rfl, before, shown⟩ := isRunning_looks visible course
  rw [turns_append, looks_append, before, turns_cons, looks_cons_some shown]
  rfl

theorem visible_of_running (course : Dialogue.Course step t.isRunning s log true s') : t.Visible := by
  cases t with
  | child pid => trivial
  | foreign pid =>
    obtain ⟨-, -, absurd⟩ | ⟨some, -⟩ := isAlive_cases course
    · exact nomatch absurd
    · exact some

/-- A look that does not show the process running shows nothing else. -/
theorem looks_of_absent (looked : Dialogue.Course step t.isRunning s log false s') :
    t.looks (turns log) = [] ∨ t.looks (turns log) = [false] := by
  by_cases visible : t.Visible
  · exact .inr (looks_isRunning visible looked)
  cases t with
  | child pid => exact absurd trivial visible
  | foreign pid =>
    obtain ⟨-, rfl, -⟩ | ⟨some, -⟩ := isAlive_cases looked
    · exact .inl rfl
    · exact absurd some visible

/-! ### Waiting -/

/-- How a process is looked at until it has ended or the deadline has passed, which the clock shows. It had shown the
moment `reached`. -/
inductive Watch (step : S → (q : Ask) → q.Answer → S → Prop) (t : Target) (deadline : Nat) :
    (reached : Nat) → S → List (Episode Ask.Answer S) → Bool → S → Prop
  | gone {reached : Nat} {s s₁ : S} {looking : List (Episode Ask.Answer S)}
      (looked : Dialogue.Course step t.isRunning s looking false s₁) : Watch step t deadline reached s looking true s₁
  | late {reached : Nat} {s s₁ s₂ : S} {looking : List (Episode Ask.Answer S)} {shown : Duration}
      (looked : Dialogue.Course step t.isRunning s looking true s₁) (timed : step s₁ .clock shown s₂)
      (late : deadline ≤ max reached shown.nanos) :
      Watch step t deadline reached s (looking ++ [⟨s₁, .clock, shown, s₂⟩]) false s₂
  | again {reached : Nat} {s s₁ s₂ s₃ s₄ : S} {looking later : List (Episode Ask.Answer S)} {shown : Duration}
      {ended : Bool} (looked : Dialogue.Course step t.isRunning s looking true s₁) (timed : step s₁ .clock shown s₂)
      (paused : step s₂ (.pause lookInterval) () s₃)
      (rest : Watch step t deadline (max reached shown.nanos + lookInterval.nanos) s₃ later ended s₄) :
      Watch step t deadline reached s
        (looking ++ ⟨s₁, .clock, shown, s₂⟩ :: ⟨s₂, .pause lookInterval, (), s₃⟩ :: later) ended s₄

theorem lookUntil_watch {deadline reached : Nat} {ended : Bool}
    (course : Dialogue.Course step (t.lookUntil deadline reached) s log ended s') :
    Watch step t deadline reached s log ended s' := by
  -- Each turn comes nearer to the deadline, whatever the clock shows; so the induction is that of the recursion.
  induction reached using lookUntil.induct deadline generalizing s log with
  | _ reached ih =>
    rw [lookUntil] at course
    obtain ⟨first, later, running, s₁, rfl, looked, then_⟩ := course.of_bind
    cases running with
    | false =>
      obtain ⟨rfl, rfl, rfl⟩ := Dialogue.Course.of_done then_
      rw [List.append_nil]
      exact .gone looked
    | true =>
      obtain ⟨reading, rest, s₂, timed, rfl, decided⟩ := Dialogue.Course.of_ask then_
      split at decided
      case isTrue late =>
        obtain ⟨rfl, rfl, rfl⟩ := Dialogue.Course.of_done decided
        exact .late looked timed late
      case isFalse early =>
        obtain ⟨_, rest, s₃, paused, rfl, again⟩ := Dialogue.Course.of_ask decided
        exact .again looked timed paused (ih reading early again)

theorem Watch.looks {deadline reached : Nat} {ended : Bool} (visible : t.Visible)
    (watch : Watch step t deadline reached s log ended s') :
    ∃ n, t.looks (turns log) = List.replicate n true ++ [!ended] := by
  induction watch with
  | gone looked => exact ⟨0, looks_isRunning visible looked⟩
  | late looked =>
    refine ⟨0, ?_⟩
    rw [turns_append, looks_append, looks_isRunning visible looked, turns_cons, looks_cons_none rfl]
    rfl
  | again looked _ _ _ ih =>
    obtain ⟨n, shown⟩ := ih
    refine ⟨n + 1, ?_⟩
    rw [turns_append, looks_append, looks_isRunning visible looked, turns_cons, looks_cons_none rfl, turns_cons,
      looks_cons_none rfl, shown]
    rfl

/-- Before the last look the process is running, and the last look decides. -/
theorem looks_waitForExit (visible : t.Visible) {limit : Duration} {ended : Bool}
    (course : Dialogue.Course step (t.waitForExit limit) s log ended s') :
    ∃ n, t.looks (turns log) = List.replicate n true ++ [!ended] := by
  obtain ⟨begun, later, s₁, -, rfl, rest⟩ := Dialogue.Course.of_ask course
  rw [turns_cons, looks_cons_none rfl]
  exact (lookUntil_watch rest).looks visible

/-! ### Asking and forcing -/

/-- The process is running, is asked to end, and is running still when its time is up. -/
inductive Outlives (step : S → (q : Ask) → q.Answer → S → Prop) (t : Target) (grace : Duration) :
    S → List (Episode Ask.Answer S) → S → Prop
  | mk {s s₁ s₂ s₃ : S} {looking waiting : List (Episode Ask.Answer S)} {answer : Except OsError Unit}
      (looked : Dialogue.Course step t.isRunning s looking true s₁)
      (asked : step s₁ (.signal t.pid .terminate) answer s₂)
      (waited : Dialogue.Course step (t.waitForExit grace) s₂ waiting false s₃) :
      Outlives step t grace s (looking ++ ⟨s₁, .signal t.pid .terminate, answer, s₂⟩ :: waiting) s₃

/-- All that ending a process can come to. -/
inductive Way (step : S → (q : Ask) → q.Answer → S → Prop) (t : Target) (grace : Duration) :
    S → List (Episode Ask.Answer S) → Except Failure Termination → S → Prop
  | absent {s s₁ : S} {looking : List (Episode Ask.Answer S)}
      (looked : Dialogue.Course step t.isRunning s looking false s₁) :
      Way step t grace s looking (.ok .notRunning) s₁
  | outOfRange {s s₁ : S} {looking : List (Episode Ask.Answer S)} {e : Failure}
      (looked : Dialogue.Course step t.isRunning s looking true s₁) :
      Way step t grace s looking (.error e) s₁
  | vanished {s s₁ s₂ : S} {looking : List (Episode Ask.Answer S)}
      (looked : Dialogue.Course step t.isRunning s looking true s₁)
      (asked : step s₁ (.signal t.pid .terminate) (.error .noProcess) s₂) :
      Way step t grace s (looking ++ [⟨s₁, .signal t.pid .terminate, .error .noProcess, s₂⟩])
        (.ok .notRunning) s₂
  | graceful {s s₁ s₂ s₃ : S} {looking waiting : List (Episode Ask.Answer S)} {answer : Except OsError Unit}
      (looked : Dialogue.Course step t.isRunning s looking true s₁)
      (asked : step s₁ (.signal t.pid .terminate) answer s₂)
      (waited : Dialogue.Course step (t.waitForExit grace) s₂ waiting true s₃) :
      Way step t grace s (looking ++ ⟨s₁, .signal t.pid .terminate, answer, s₂⟩ :: waiting) (.ok .graceful) s₃
  | refused {s s₁ s₂ : S} {waiting : List (Episode Ask.Answer S)} {e : OsError} {failure : Failure}
      (outlives : Outlives step t grace s waiting s₁)
      (forced : step s₁ (.signal t.pid .kill) (.error e) s₂) :
      Way step t grace s (waiting ++ [⟨s₁, .signal t.pid .kill, .error e, s₂⟩]) (.error failure) s₂
  | forced {s s₁ s₂ s₃ : S} {waiting settling : List (Episode Ask.Answer S)} {answer : Except OsError Unit}
      (ended : Bool) (outlives : Outlives step t grace s waiting s₁)
      (forced : step s₁ (.signal t.pid .kill) answer s₂)
      (settled : Dialogue.Course step (t.waitForExit settlePeriod) s₂ settling ended s₃) :
      Way step t grace s (waiting ++ ⟨s₁, .signal t.pid .kill, answer, s₂⟩ :: settling)
        (.ok (if ended then .killed else .survived)) s₃

theorem terminate_way {grace : Duration} {outcome : Except Failure Termination}
    (course : Errand.Course step (t.terminate grace) s log outcome s') : Way step t grace s log outcome s' := by
  obtain ⟨looking, later, running, s₁, rfl, looked, stopping⟩ := Errand.Course.of_lift course
  cases running with
  | false =>
    obtain ⟨rfl, rfl, rfl⟩ := Errand.Course.of_pure stopping
    rw [List.append_nil]
    exact .absent looked
  | true =>
    simp only [if_true, stop] at stopping
    split at stopping
    case isTrue =>
      obtain ⟨rfl, rfl, rfl⟩ := Errand.Course.of_throw stopping
      rw [List.append_nil]
      exact .outOfRange looked
    case isFalse =>
    obtain ⟨answer, rest, s₂, asked, rfl, asking⟩ := Errand.Course.of_ask stopping
    split at asking
    case h_1 =>
      obtain ⟨rfl, rfl, rfl⟩ := Errand.Course.of_pure asking
      exact .vanished looked asked
    case h_2 =>
    obtain ⟨waiting, rest, ended, s₃, rfl, waited, forcing⟩ := Errand.Course.of_lift asking
    cases ended with
    | true =>
      obtain ⟨rfl, rfl, rfl⟩ := Errand.Course.of_pure forcing
      rw [List.append_nil]
      exact .graceful looked asked waited
    | false =>
      have outlives := Outlives.mk looked asked waited
      obtain ⟨answer, rest, s₄, forced, rfl, settling⟩ := Errand.Course.of_ask forcing
      rw [← List.cons_append, ← List.append_assoc]
      split at settling
      case h_1 | h_2 =>
        obtain ⟨settled, rest, ended, s₅, rfl, settles, done⟩ := Errand.Course.of_lift settling
        obtain ⟨rfl, rfl, rfl⟩ := Errand.Course.of_pure done
        rw [List.append_nil]
        exact .forced ended outlives forced settles
      case h_3 =>
        obtain ⟨rfl, rfl, rfl⟩ := Errand.Course.of_throw settling
        exact .refused outlives forced

/-! ### What is shown in each way -/

variable {grace : Duration} {outcome : Except Failure Termination}

def Forces : Ask → Prop
  | .signal _ .kill => True
  | _ => False

theorem Looks.unforced (q : Ask) (looks : Looks q) : ¬Forces q := by
  cases q with
  | signal => exact looks.elim
  | _ => exact id

theorem unforced_isRunning {running : Bool} (course : Dialogue.Course step t.isRunning s log running s') :
    ∀ e ∈ log, ¬Forces e.question :=
  course.of_asks (t.asks_isRunning.imp Looks.unforced)

theorem unforced_waitForExit {limit : Duration} {ended : Bool}
    (course : Dialogue.Course step (t.waitForExit limit) s log ended s') : ∀ e ∈ log, ¬Forces e.question :=
  course.of_asks ((t.asks_waitForExit limit).imp Looks.unforced)

theorem unforced_asked {looking waiting : List (Episode Ask.Answer S)} {answer : Except OsError Unit}
    (first : ∀ e ∈ looking, ¬Forces e.question) (later : ∀ e ∈ waiting, ¬Forces e.question) :
    ∀ e ∈ looking ++ ⟨s, .signal t.pid .terminate, answer, s'⟩ :: waiting, ¬Forces e.question := by
  intro e said
  rcases List.mem_append.mp said with earlier | said
  · exact first e earlier
  rcases List.mem_cons.mp said with rfl | afterwards
  · exact id
  · exact later e afterwards

theorem Outlives.unforced (outlives : Outlives step t grace s log s') : ∀ e ∈ log, ¬Forces e.question := by
  obtain ⟨looked, asked, waited⟩ := outlives
  exact unforced_asked (unforced_isRunning looked) (unforced_waitForExit waited)

theorem Outlives.visible (outlives : Outlives step t grace s log s') : t.Visible := by
  obtain ⟨looked, asked, waited⟩ := outlives
  exact visible_of_running looked

/-- A process that is asked to end was running, and what comes then is shown by the last look. -/
theorem looks_asked {ended : Bool} {limit : Duration} {s₁ s₂ : S} {looking waiting : List (Episode Ask.Answer S)}
    {answer : Except OsError Unit} (looked : Dialogue.Course step t.isRunning s looking true s₁)
    (waited : Dialogue.Course step (t.waitForExit limit) s₂ waiting ended s') :
    ∃ n, t.looks (turns (looking ++ ⟨s₁, .signal t.pid .terminate, answer, s₂⟩ :: waiting)) =
      true :: List.replicate n true ++ [!ended] := by
  have visible := visible_of_running looked
  obtain ⟨n, shown⟩ := looks_waitForExit visible waited
  rw [turns_append, turns_cons, looks_append, looks_cons_none rfl, looks_isRunning visible looked, shown]
  exact ⟨n, rfl⟩

theorem Outlives.looks (outlives : Outlives step t grace s log s') :
    ∃ n, t.looks (turns log) = true :: List.replicate n true := by
  obtain ⟨looked, asked, waited⟩ := outlives
  obtain ⟨n, shown⟩ := looks_asked looked waited
  exact ⟨n + 1, by rw [shown, List.replicate_succ']; rfl⟩

/-- It was running at first, and is gone in the end. -/
def BroughtDown (t : Target) (said : List (Turn Ask.Answer)) : Prop :=
  (t.looks said).head? = some true ∧ (t.looks said).getLast? = some false

/-- Either the process is brought down, or nothing but that it is running was found out when anything was asked of
it. -/
theorem Way.looks (way : Way step t grace s log outcome s') :
    (outcome = .ok .graceful ∨ outcome = .ok .killed) ∧
        (∃ n, t.looks (turns log) = true :: List.replicate n true ++ [false]) ∨
      (outcome ≠ .ok .graceful ∧ outcome ≠ .ok .killed) ∧
        ((∃ n, t.looks (turns log) = List.replicate n true) ∨ t.looks (turns log) = [false]) := by
  have shown_running {looking : List (Episode Ask.Answer S)} {s₁ : S}
      (looked : Dialogue.Course step t.isRunning s looking true s₁) : t.looks (turns looking) = [true] :=
    looks_isRunning (visible_of_running looked) looked
  cases way with
  | absent looked => exact .inr ⟨⟨nofun, nofun⟩, (looks_of_absent looked).imp_left fun none => ⟨0, none⟩⟩
  | outOfRange looked => exact .inr ⟨⟨nofun, nofun⟩, .inl ⟨1, shown_running looked⟩⟩
  | vanished looked asked =>
    refine .inr ⟨⟨nofun, nofun⟩, .inl ⟨1, ?_⟩⟩
    rw [turns_append, turns_cons, looks_append, looks_cons_none rfl, shown_running looked]
    rfl
  | graceful looked asked waited => exact .inl ⟨.inl rfl, looks_asked looked waited⟩
  | refused outlives forced =>
    obtain ⟨n, shown⟩ := outlives.looks
    refine .inr ⟨⟨nofun, nofun⟩, .inl ⟨n + 1, ?_⟩⟩
    rw [turns_append, turns_cons, looks_append, looks_cons_none rfl, shown]
    exact List.append_nil _
  | forced ended outlives forced settled =>
    obtain ⟨n, shown⟩ := outlives.looks
    obtain ⟨m, settles⟩ := looks_waitForExit outlives.visible settled
    rw [turns_append, turns_cons, looks_append, looks_cons_none rfl, shown, settles]
    cases ended with
    | true =>
      refine .inl ⟨.inr rfl, n + m, ?_⟩
      rw [← List.append_assoc, List.cons_append, List.replicate_append_replicate]
      rfl
    | false =>
      refine .inr ⟨⟨nofun, nofun⟩, .inl ⟨n + 1 + (m + 1), ?_⟩⟩
      rw [← List.replicate_append_replicate, List.replicate_succ, List.replicate_succ']
      rfl

theorem BroughtDown.looks {said : List (Turn Ask.Answer)} {n : Nat}
    (shown : t.looks said = true :: List.replicate n true ++ [false]) : t.BroughtDown said :=
  ⟨by rw [shown]; rfl, by rw [shown, List.getLast?_concat]⟩

theorem Way.broughtDown_iff (way : Way step t grace s log outcome s') :
    t.BroughtDown (turns log) ↔ outcome = .ok .graceful ∨ outcome = .ok .killed := by
  constructor
  · rintro ⟨running, gone⟩
    rcases way.looks with ⟨stopped, -⟩ | ⟨-, ⟨n, shown⟩ | shown⟩
    · exact stopped
    · rw [shown] at gone
      exact nomatch List.eq_of_mem_replicate (List.mem_of_getLast? gone)
    · rw [shown] at running
      exact nomatch running
  · intro stopped
    rcases way.looks with ⟨-, n, shown⟩ | ⟨⟨not_graceful, not_killed⟩, -⟩
    · exact .looks shown
    · exact stopped.elim (absurd · not_graceful) (absurd · not_killed)

theorem Way.unforced (way : Way step t grace s log outcome s')
    (mild : outcome = .ok .notRunning ∨ outcome = .ok .graceful) : ∀ e ∈ log, ¬Forces e.question := by
  cases way with
  | absent looked => exact unforced_isRunning looked
  | vanished looked asked => exact unforced_asked (unforced_isRunning looked) fun e none => nomatch none
  | graceful looked asked waited => exact unforced_asked (unforced_isRunning looked) (unforced_waitForExit waited)
  | outOfRange | refused => exact mild.elim nofun nofun
  | forced ended =>
    cases ended with
    | true | false => exact mild.elim nofun nofun

/-- One that was running is found not to be only when it is asked to end. -/
theorem Way.vanished_of_notRunning (way : Way step t grace s log outcome s') (none : outcome = .ok .notRunning)
    (running : true ∈ t.looks (turns log)) : ⟨.signal t.pid .terminate, .error .noProcess⟩ ∈ turns log := by
  cases way with
  | absent looked =>
    rcases looks_of_absent looked with shown | shown
    · rw [shown] at running
      exact nomatch running
    · rw [shown] at running
      exact nomatch List.mem_singleton.mp running
  | vanished looked asked =>
    rw [turns_append]
    exact List.mem_append_right _ List.mem_cons_self
  | forced ended =>
    cases ended with
    | true | false => exact nomatch none
  | outOfRange | graceful | refused => exact nomatch none

end Target

/-! ### Time -/

/-- Time goes on, in nanoseconds, from question to answer and in between, at any pace. A pause takes its time or
longer, and the clock shows a moment from question to answer. All else is answered with anything. -/
def Timely (before : Nat) : (q : Ask) → q.Answer → (after : Nat) → Prop
  | .pause d, _, after => before + d.nanos ≤ after
  | .clock, shown, after => before ≤ shown.nanos ∧ shown.nanos ≤ after
  | _, _, after => before ≤ after

namespace Target

variable {log : List (Episode Ask.Answer Nat)} {s s' : Nat} {t : Target}

theorem Timely.onwards {q : Ask} {answer : q.Answer} (timely : Timely s q answer s') : s ≤ s' := by
  cases q with
  | pause d => exact Nat.le_of_add_right_le timely
  | clock => exact timely.1.trans timely.2
  | _ => exact timely

theorem Timely.course {α : Type} {d : Host α} {a : α} (course : Dialogue.Course Timely d s log a s') : s ≤ s' := by
  induction course with
  | done => exact le_rfl
  | ask answered _ ih => exact (Timely.onwards answered).trans ih

/-- The last look shows the process running, and then the clock shows that the deadline has passed. -/
def Expires (t : Target) (deadline : Nat) (log : List (Episode Ask.Answer Nat)) : Prop :=
  ∃ front look before shown after, log = front ++ [look, ⟨before, .clock, shown, after⟩] ∧
    t.found? look.turn = some true ∧ deadline ≤ shown.nanos

theorem Expires.behind {deadline : Nat} (expires : t.Expires deadline log) (earlier : List (Episode Ask.Answer Nat)) :
    t.Expires deadline (earlier ++ log) := by
  obtain ⟨front, look, before, shown, after, rfl, running, late⟩ := expires
  exact ⟨earlier ++ front, look, before, shown, after, (List.append_assoc ..).symm, running, late⟩

theorem Watch.expires (visible : t.Visible) {deadline reached : Nat} {ended : Bool} (come : reached ≤ s)
    (watch : Watch Timely t deadline reached s log ended s') (in_vain : ended = false) :
    t.Expires deadline log ∧ deadline ≤ s' := by
  induction watch with
  | gone => exact nomatch in_vain
  | @late reached s s₁ s₂ looking shown looked timed late =>
    -- The clock is never behind what it has shown before, so only what it shows now counts.
    have honest : max reached shown.nanos = shown.nanos :=
      max_eq_right (come.trans ((Timely.course looked).trans timed.1))
    rw [honest] at late
    obtain ⟨front, look, rfl, -, running⟩ := isRunning_looks visible looked
    exact ⟨⟨front, look, s₁, shown, s₂, List.append_assoc .., running, late⟩, late.trans timed.2⟩
  | @again reached s s₁ s₂ s₃ s₄ looking later shown ended looked timed paused rest ih =>
    have honest : max reached shown.nanos = shown.nanos :=
      max_eq_right (come.trans ((Timely.course looked).trans timed.1))
    have come_on : max reached shown.nanos + lookInterval.nanos ≤ s₃ := by
      rw [honest]
      exact (Nat.add_le_add_right timed.2 _).trans paused
    obtain ⟨expires, late⟩ := ih come_on in_vain
    exact ⟨(expires.behind [_, _]).behind looking, late⟩

/-- Waiting in vain takes as long as it is meant to. -/
theorem expires_waitForExit (visible : t.Visible) {limit : Duration}
    (course : Dialogue.Course Timely (t.waitForExit limit) s log false s') :
    t.Expires (s + limit.nanos) log ∧ s + limit.nanos ≤ s' := by
  obtain ⟨begun, later, s₁, ⟨not_before, not_after⟩, rfl, rest⟩ := Dialogue.Course.of_ask course
  obtain ⟨⟨front, look, before, shown, after, rfl, running, late⟩, elapsed⟩ :=
    (lookUntil_watch rest).expires visible not_after rfl
  have limit_after := Nat.add_le_add_right not_before limit.nanos
  exact ⟨⟨_ :: front, look, before, shown, after, rfl, running, limit_after.trans late⟩, limit_after.trans elapsed⟩

theorem Outlives.asked {grace : Duration} (outlives : Outlives Timely t grace s log s') :
    ∃ asked ∈ log, asked.question = .signal t.pid .terminate ∧ asked.after + grace.nanos ≤ s' := by
  obtain ⟨looked, asked, waited⟩ := outlives
  have waited_long := (expires_waitForExit (visible_of_running looked) waited).2
  exact ⟨_, List.mem_append_right _ List.mem_cons_self, rfl, waited_long⟩

/-! ### Order -/

/-- What has happened, question by question, warrants the outcome, and no force was used before its time. -/
structure Escalates (t : Target) (grace : Duration) (log : List (Episode Ask.Answer Nat))
    (outcome : Except Failure Termination) : Prop where
  /-- Before force is used, the process was asked to end, its time is up, and all looks showed it running. -/
  forced : ∀ before force later, log = before ++ force :: later → Forces force.question →
    force.question = .signal t.pid .kill ∧
      (∃ asked ∈ before, asked.question = .signal t.pid .terminate ∧ asked.after + grace.nanos ≤ force.before) ∧
      t.looks (turns before) ≠ [] ∧ ∀ running ∈ t.looks (turns before), running = true
  /-- The last look showed that it was gone. -/
  stopped : outcome = .ok .graceful ∨ outcome = .ok .killed → BroughtDown t (turns log)
  /-- The last look behind the use of force, at the end of the time that is left for it, showed it running. -/
  survived : outcome = .ok .survived → ∃ before force settling, log = before ++ force :: settling ∧
    Forces force.question ∧ t.Expires (force.after + settlePeriod.nanos) settling ∧
      ∀ running ∈ t.looks (turns log), running = true
  unforced : outcome = .ok .notRunning ∨ outcome = .ok .graceful → ∀ e ∈ log, ¬Forces e.question
  /-- No look showed it running, or the request to end found no process. -/
  notRunning : outcome = .ok .notRunning → true ∈ t.looks (turns log) →
    ⟨.signal t.pid .terminate, .error .noProcess⟩ ∈ turns log

/-- Where force is used once only, all that was said before it was said before that. -/
theorem eq_of_force {waiting before later rest : List (Episode Ask.Answer Nat)} {once force : Episode Ask.Answer Nat}
    (first : ∀ e ∈ waiting, ¬Forces e.question) (last : ∀ e ∈ rest, ¬Forces e.question)
    (same : waiting ++ once :: rest = before ++ force :: later) (forces : Forces force.question) :
    before = waiting ∧ force = once := by
  rcases List.append_eq_append_iff.mp same with ⟨between, rfl, behind⟩ | ⟨between, rfl, behind⟩
  · cases between with
    | nil =>
      cases behind
      exact ⟨List.append_nil _, rfl⟩
    | cons e between =>
      cases behind
      exact absurd forces (last force (List.mem_append_right _ List.mem_cons_self))
  · cases between with
    | nil =>
      cases behind
      exact ⟨(List.append_nil _).symm, rfl⟩
    | cons e between =>
      cases behind
      exact absurd forces (first force (List.mem_append_right _ List.mem_cons_self))

theorem Outlives.running {grace : Duration} (outlives : Outlives Timely t grace s log s') :
    t.looks (turns log) ≠ [] ∧ ∀ running ∈ t.looks (turns log), running = true := by
  obtain ⟨n, shown⟩ := outlives.looks
  rw [shown, ← List.replicate_succ]
  exact ⟨nofun, fun running mem => List.eq_of_mem_replicate mem⟩

theorem Way.survived {grace : Duration} {outcome : Except Failure Termination}
    (way : Way Timely t grace s log outcome s') (survived : outcome = .ok .survived) :
    ∃ before force settling, log = before ++ force :: settling ∧ Forces force.question ∧
      t.Expires (force.after + settlePeriod.nanos) settling ∧ ∀ running ∈ t.looks (turns log), running = true := by
  cases way with
  | absent | outOfRange | vanished | graceful | refused => exact nomatch survived
  | forced ended outlives forced settled =>
    cases ended with
    | true => exact nomatch survived
    | false =>
      refine ⟨_, _, _, rfl, trivial, (expires_waitForExit outlives.visible settled).1, fun running mem => ?_⟩
      rw [turns_append, turns_cons, looks_append, looks_cons_none rfl] at mem
      -- All looks show it running: those before force was used, since its time ran out, and those behind it.
      obtain ⟨n, settles⟩ := looks_waitForExit outlives.visible settled
      rw [settles, Bool.not_false, ← List.replicate_succ'] at mem
      rcases List.mem_append.mp mem with waiting | settling
      · exact outlives.running.2 running waiting
      · exact List.eq_of_mem_replicate settling

theorem Way.of_force {grace : Duration} {outcome : Except Failure Termination}
    (way : Way Timely t grace s log outcome s') {before later : List (Episode Ask.Answer Nat)}
    {force : Episode Ask.Answer Nat} (same : log = before ++ force :: later) (forces : Forces force.question) :
    Outlives Timely t grace s before force.before ∧ force.question = .signal t.pid .kill := by
  have force_mem : force ∈ log := same ▸ List.mem_append_right _ List.mem_cons_self
  cases way with
  | absent looked | outOfRange looked => exact absurd forces (unforced_isRunning looked force force_mem)
  | vanished looked asked =>
    have mild : Way Timely t grace s _ _ _ := .vanished looked asked
    exact absurd forces (mild.unforced (.inl rfl) force force_mem)
  | graceful looked asked waited =>
    have mild : Way Timely t grace s _ _ _ := .graceful looked asked waited
    exact absurd forces (mild.unforced (.inr rfl) force force_mem)
  | refused outlives forced =>
    obtain ⟨rfl, rfl⟩ := eq_of_force outlives.unforced (List.forall_mem_nil _) same forces
    exact ⟨outlives, rfl⟩
  | forced ended outlives forced settled =>
    obtain ⟨rfl, rfl⟩ := eq_of_force outlives.unforced (unforced_waitForExit settled) same forces
    exact ⟨outlives, rfl⟩

/-- The clock shows at once that the time is up. -/
theorem waitForExit_late {limit : Duration} {s₁ : Nat}
    (looked : Dialogue.Course Timely t.isRunning s log true s₁) (later : s + limit.nanos ≤ s₁) :
    Dialogue.Course Timely (t.waitForExit limit) s
      (⟨s, .clock, ⟨s⟩, s⟩ :: (log ++ [⟨s₁, .clock, ⟨s₁⟩, s₁⟩])) false s₁ := by
  refine .ask ⟨le_rfl, le_rfl⟩ ?_
  show Dialogue.Course Timely (t.lookUntil (s + limit.nanos) s) s _ false s₁
  rw [lookUntil]
  refine .bind looked (.ask ⟨le_rfl, le_rfl⟩ ?_)
  have late : s + limit.nanos ≤ max s s₁ := later.trans (Nat.le_max_right s s₁)
  show Dialogue.Course Timely (if s + limit.nanos ≤ max s s₁ then pure false else _) s₁ [] false s₁
  rw [if_pos late]
  exact .done

theorem waitForExit_gone {limit : Duration} (looked : Dialogue.Course Timely t.isRunning s log false s') :
    Dialogue.Course Timely (t.waitForExit limit) s (⟨s, .clock, ⟨s⟩, s⟩ :: log) true s' := by
  refine .ask ⟨le_rfl, le_rfl⟩ ?_
  show Dialogue.Course Timely (t.lookUntil (s + limit.nanos) s) s log true s'
  rw [lookUntil, ← List.append_nil log]
  exact .bind looked .done

end Target
end SnippetKernel
