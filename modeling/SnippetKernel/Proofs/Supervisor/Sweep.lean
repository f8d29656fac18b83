import SnippetKernel.Proofs.Process.Escalation
import SnippetKernel.Proofs.Process.Listing
import SnippetKernel.Supervisor.Stop

/-! Which processes are ended when a kernel is stopped. The child that is held comes first. If the endpoint still answers
then, all others are tried that listen on its port, one after another, whatever comes of each; what the listing
consists of, and what numbers it holds, is left open. No signal reaches the caller or a group of processes. -/
namespace SnippetKernel

def Signalled (said : List (Turn Ask.Answer)) (pid : Pid) : Prop :=
  ∃ turn ∈ said, ∃ s, turn.1 = .signal pid s

/-! ### One process -/

namespace Target

variable {replies : Replies Ask.Answer} {past said : List (Turn Ask.Answer)} {t : Target} {grace : Duration}
  {outcome : Except Failure Termination}

theorem broughtDown_iff_stopped (held : Errand.hold replies past (t.terminate grace) = (said, outcome)) :
    t.BroughtDown said ↔ outcome.toOption.any (·.stopped) = true := by
  obtain ⟨log, rfl, course⟩ := Dialogue.course_of_hold held
  rw [(terminate_way course).broughtDown_iff]
  rcases outcome with failure | termination
  · exact ⟨fun stopped => stopped.elim nofun nofun, nofun⟩
  · cases termination <;> simp [Except.toOption, Termination.stopped]

/-- A stranger with the number of no process is not even looked at. -/
theorem terminate_of_not_visible (not_visible : ¬t.Visible) : t.terminate grace = pure .notRunning := by
  cases t with
  | child pid => exact absurd trivial not_visible
  | foreign pid =>
    have absent : (foreign pid).isRunning = pure false := if_pos (not_not.mp not_visible)
    rw [terminate, absent]
    rfl

theorem signalled_of_terminate (held : Errand.hold replies past (t.terminate grace) = (said, outcome)) {pid : Pid}
    (signalled : Signalled said pid) : pid = t.pid ∧ t.Visible := by
  obtain ⟨turn, in_said, s, asked⟩ := signalled
  constructor
  · have treats : ∀ turn ∈ (Errand.hold replies past (t.terminate grace)).1, t.Treats turn.1 :=
      (t.treats_terminate grace).hold
    rw [held] at treats
    rcases treats turn in_said with looks | ⟨other, same⟩
    · rw [asked] at looks
      exact looks.elim
    · rw [asked] at same
      exact (Ask.signal.inj same).1
  · by_contra not_visible
    rw [terminate_of_not_visible not_visible] at held
    cases held
    cases in_said

end Target

/-! ### One after another -/

/-- What was done to end a process, and what came of it. -/
structure Attempt where
  target : Target
  said : List (Turn Ask.Answer)
  outcome : Except Failure Termination

/-- Each is made after those before, whatever came of them. -/
inductive InTurn (replies : Replies Ask.Answer) : List (Turn Ask.Answer) → List Attempt → Prop
  | nil {past : List (Turn Ask.Answer)} : InTurn replies past []
  | cons {past : List (Turn Ask.Answer)} {a : Attempt} {rest : List Attempt}
      (made : Errand.hold replies past (a.target.terminate Supervisor.grace) = (a.said, a.outcome))
      (later : InTurn replies (past ++ a.said) rest) : InTurn replies past (a :: rest)

variable {replies : Replies Ask.Answer} {past : List (Turn Ask.Answer)}

theorem InTurn.signalled {attempts : List Attempt} (in_turn : InTurn replies past attempts) {pid : Pid}
    (signalled : Signalled (attempts.flatMap (·.said)) pid) : ∃ a ∈ attempts, pid = a.target.pid ∧ a.target.Visible := by
  induction in_turn with
  | nil => exact signalled.elim fun _ said => nomatch said.1
  | @cons past a rest made later ih =>
    obtain ⟨turn, in_said, sent⟩ := signalled
    rcases List.mem_append.mp in_said with now | afterwards
    · exact ⟨a, List.mem_cons_self, Target.signalled_of_terminate made ⟨turn, now, sent⟩⟩
    · obtain ⟨b, in_rest, addressed⟩ := ih ⟨turn, afterwards, sent⟩
      exact ⟨b, List.mem_cons_of_mem a in_rest, addressed⟩

namespace Supervisor

theorem terminateAll_hold (pids : List Pid) : ∃ attempts stopped,
    (terminateAll pids).hold replies past = (attempts.flatMap (·.said), stopped) ∧
      attempts.map (·.target) = pids.map .foreign ∧ InTurn replies past attempts ∧
      (stopped = true ↔ ∃ a ∈ attempts, a.target.BroughtDown a.said) := by
  -- The rest is tried behind all that was said about the first, whatever came of it.
  induction pids generalizing past with
  | nil => exact ⟨[], false, rfl, rfl, .nil, by simp⟩
  | cons pid rest ih =>
    cases made : Errand.hold replies past ((Target.foreign pid).terminate grace) with
    | mk said outcome =>
    obtain ⟨attempts, stopped, held, targets, in_turn, stopped_iff⟩ := @ih (past ++ said)
    refine ⟨⟨.foreign pid, said, outcome⟩ :: attempts, outcome.toOption.any (·.stopped) || stopped, ?_, ?_, ?_, ?_⟩
    · rw [terminateAll, Dialogue.hold_bind made, Dialogue.hold_bind held]
      simp [Dialogue.hold, pure]
    · exact congrArg (Target.foreign pid :: ·) targets
    · exact .cons made in_turn
    · rw [Bool.or_eq_true, ← Target.broughtDown_iff_stopped made, stopped_iff, List.exists_mem_cons_iff]

/-! ### All that listen -/

/-- The listing names the process, on a line of its own. -/
def Listed (listing : Option ByteArray) (pid : Pid) : Prop :=
  ∃ text ∈ listing, ∃ line ∈ Text.linesOf text, Owners.Names line pid

/-- What is asked to find those that are to be ended: if the endpoint answers, all that are listed except for the
caller. -/
inductive Sought (s : Supervisor) : List (Turn Ask.Answer) → List Pid → Prop
  | silent : Sought s [⟨.isReachable s.endpoint startProbe, false⟩] []
  | answering {own : Pid} {listing : Option ByteArray} {pids : List Pid} (increasing : pids.Pairwise (· < ·))
      (others : ∀ pid, pid ∈ pids ↔ Listed listing pid ∧ pid ≠ own) :
      Sought s [⟨.isReachable s.endpoint startProbe, true⟩, ⟨.ownPid, own⟩, ⟨.portOwners s.endpoint.port, listing⟩] pids

/-- How those are ended that listen on the port. -/
structure Sweep (replies : Replies Ask.Answer) (past : List (Turn Ask.Answer)) (s : Supervisor) where
  asked : List (Turn Ask.Answer)
  pids : List Pid
  attempts : List Attempt
  sought : Sought s asked pids
  targets : attempts.map (·.target) = pids.map .foreign
  in_turn : InTurn replies (past ++ asked) attempts

theorem Sought.no_signal {s : Supervisor} {asked : List (Turn Ask.Answer)} {pids : List Pid}
    (sought : Sought s asked pids) {pid : Pid} {signal : Signal} : ∀ turn ∈ asked, turn.1 ≠ .signal pid signal := by
  cases sought with
  | silent | answering => simp

theorem mem_ofOutput {listing : Option ByteArray} {pid : Pid} : pid ∈ Owners.ofOutput listing ↔ Listed listing pid := by
  cases listing with
  | none => simp [Owners.ofOutput, Listed]
  | some text => simp [Owners.ofOutput, Listed, Owners.mem_ofListing]

theorem increasing_ofOutput (listing : Option ByteArray) : (Owners.ofOutput listing).Pairwise (· < ·) := by
  cases listing with
  | none => exact .nil
  | some text => exact Owners.increasing_ofListing text

namespace Sweep

variable {s : Supervisor}

def said (sweep : Sweep replies past s) : List (Turn Ask.Answer) := sweep.asked ++ sweep.attempts.flatMap (·.said)

/-- A process was running and is gone. -/
def Stops (sweep : Sweep replies past s) : Prop := ∃ a ∈ sweep.attempts, a.target.BroughtDown a.said

theorem signalled (sweep : Sweep replies past s) {pid : Pid} (signalled : Signalled sweep.said pid) :
    1 ≤ pid.toNat ∧ pid.toNat ≤ 2147483647 ∧ ∃ own, ⟨.ownPid, own⟩ ∈ sweep.asked ∧ pid ≠ own := by
  obtain ⟨asked, pids, attempts, sought, targets, in_turn⟩ := sweep
  obtain ⟨turn, in_said, signal, sent⟩ := signalled
  rcases List.mem_append.mp in_said with in_asked | tried
  · exact absurd sent (sought.no_signal turn in_asked)
  · obtain ⟨a, in_attempts, rfl, visible⟩ := in_turn.signalled ⟨turn, tried, signal, sent⟩
    have target_in : a.target ∈ pids.map .foreign := targets ▸ List.mem_map_of_mem in_attempts
    obtain ⟨pid, in_pids, same⟩ := List.mem_map.mp target_in
    rw [← same] at visible ⊢
    cases sought with
    | silent => exact nomatch in_pids
    | @answering own listing pids increasing others =>
      obtain ⟨some_process, in_range⟩ := not_or.mp visible
      have positive : pid.toNat ≠ 0 := fun zero => some_process (UInt32.toNat_inj.mp zero)
      have small : pid.toNat ≤ 2147483647 := UInt32.not_lt.mp in_range
      exact ⟨Nat.one_le_iff_ne_zero.mpr positive, small, own, by simp, ((others pid).mp in_pids).2⟩

end Sweep

/-! ### The child, then the others -/

/-- The first that was said is that this child was held, and is not any more. -/
def Took (ending : List (Turn Ask.Answer)) (pid : Pid) : Prop := ending.head? = some ⟨.takeHeld, some pid⟩

theorem took_cons {pid other : Pid} {said : List (Turn Ask.Answer)} :
    Took (⟨.takeHeld, some pid⟩ :: said) other ↔ other = pid := by
  simp [Took, eq_comm]

/-- The child alone is signalled, and what came of it is told. -/
theorem terminateChild_hold {ending : List (Turn Ask.Answer)} {child : Bool}
    (ended : Errand.hold replies past terminateChild = (ending, .ok child)) :
    (∀ pid, Signalled ending pid → Took ending pid) ∧
      (child = true ↔ ∃ pid, Took ending pid ∧ (Target.child pid).BroughtDown ending) := by
  cases taken : replies past .takeHeld with
  | none =>
    have held : Errand.hold replies past terminateChild = ([⟨.takeHeld, none⟩], .ok false) :=
      Errand.hold_ask taken Errand.hold_pure
    cases held.symm.trans ended
    refine ⟨fun pid ⟨turn, said, signal, sent⟩ => ?_, nofun, fun ⟨pid, took, _⟩ => nomatch took⟩
    rw [List.mem_singleton.mp said] at sent
    exact nomatch sent
  | some pid =>
    cases made : Errand.hold replies (past ++ [⟨.takeHeld, some pid⟩]) ((Target.child pid).terminate grace) with
    | mk said outcome =>
    cases outcome with
    | error e => exact nomatch (Errand.hold_ask taken (Errand.hold_bind_error made)).symm.trans ended
    | ok termination =>
      have held : Errand.hold replies past terminateChild =
          (⟨.takeHeld, some pid⟩ :: (said ++ []), .ok termination.stopped) :=
        Errand.hold_ask taken (Errand.hold_then made Errand.hold_pure)
      cases held.symm.trans ended
      simp only [List.append_nil, took_cons, exists_eq_left]
      constructor
      · rintro other ⟨turn, in_ending, signal, sent⟩
        rcases List.mem_cons.mp in_ending with rfl | in_said
        · exact nomatch sent
        · exact (Target.signalled_of_terminate made ⟨turn, in_said, signal, sent⟩).1
      · -- That the child was taken from where it is held shows nothing of it.
        have same_looks : (Target.child pid).looks (⟨.takeHeld, some pid⟩ :: said) = (Target.child pid).looks said :=
          Target.looks_cons_none rfl said
        rw [Target.BroughtDown, same_looks]
        exact (Target.broughtDown_iff_stopped made).symm

/-- How a kernel is stopped whose child has come to its end, in whatever way that may be. -/
structure Sweeps (replies : Replies Ask.Answer) (past : List (Turn Ask.Answer)) (s : Supervisor)
    (ending : List (Turn Ask.Answer)) (sweep : Sweep replies (past ++ ending) s) (stopped : Bool) : Prop where
  whole : s.stop.hold replies past = (ending ++ sweep.said, .ok stopped)
  child : ∀ pid, Signalled ending pid → Took ending pid
  /-- Of the others, none but single processes, and not the caller. -/
  others : ∀ pid, Signalled sweep.said pid →
    1 ≤ pid.toNat ∧ pid.toNat ≤ 2147483647 ∧ ∃ own, ⟨.ownPid, own⟩ ∈ sweep.asked ∧ pid ≠ own
  stopped_iff : stopped = true ↔
    (∃ pid, Took ending pid ∧ (Target.child pid).BroughtDown ending) ∨ sweep.Stops

/-- The child is ended first, then each other process that listens if the endpoint answers still, each once, whatever
comes of them. Only these are signalled, never the caller, and what was brought down is told. -/
theorem stop_sweeps {ending : List (Turn Ask.Answer)} {s : Supervisor} {child : Bool}
    (ended : Errand.hold replies past terminateChild = (ending, .ok child)) :
    ∃ sweep stopped, Sweeps replies past s ending sweep stopped := by
  obtain ⟨addressed, child_iff⟩ := terminateChild_hold ended
  cases reached : replies (past ++ ending) (.isReachable s.endpoint startProbe) with
  | false =>
    let sweep : Sweep replies (past ++ ending) s := ⟨_, [], [], .silent, rfl, .nil⟩
    refine ⟨sweep, child, ?whole, addressed, fun _ => sweep.signalled, ?stopped⟩
    case whole => exact Errand.hold_then ended (Errand.hold_ask reached Errand.hold_pure)
    case stopped => simp [child_iff, sweep, Sweep.Stops]
  | true =>
    let answers : Turn Ask.Answer := ⟨.isReachable s.endpoint startProbe, true⟩
    obtain ⟨own, own_is⟩ : ∃ own, replies (past ++ ending ++ [answers]) .ownPid = own := ⟨_, rfl⟩
    let owned : Turn Ask.Answer := ⟨.ownPid, own⟩
    obtain ⟨listing, listing_is⟩ : ∃ listing,
      replies (past ++ ending ++ [answers] ++ [owned]) (.portOwners s.endpoint.port) = listing := ⟨_, rfl⟩
    let listed : Turn Ask.Answer := ⟨.portOwners s.endpoint.port, listing⟩
    let pids := (Owners.ofOutput listing).filter (· ≠ own)
    obtain ⟨attempts, others, held, targets, in_turn, others_iff⟩ :=
      @terminateAll_hold replies (past ++ ending ++ [answers] ++ [owned] ++ [listed]) pids
    have increasing : pids.Pairwise (· < ·) := (increasing_ofOutput listing).filter _
    have listed_iff (pid : Pid) : pid ∈ pids ↔ Listed listing pid ∧ pid ≠ own := by
      simp [pids, mem_ofOutput]
    have all_asked : past ++ ending ++ [answers] ++ [owned] ++ [listed] = past ++ ending ++ [answers, owned, listed] := by
      simp
    let sweep : Sweep replies (past ++ ending) s :=
      ⟨_, pids, attempts, .answering increasing listed_iff, targets, all_asked ▸ in_turn⟩
    refine ⟨sweep, child || others, ?whole, addressed, fun _ => sweep.signalled, ?stopped⟩
    case whole =>
      refine Errand.hold_then ended (Errand.hold_ask reached ?_)
      refine Errand.hold_ask own_is (Errand.hold_ask listing_is ?_)
      have tried := Errand.hold_lift_then (f := fun others => pure (child || others)) held Errand.hold_pure
      rw [List.append_nil] at tried
      exact tried
    case stopped =>
      rw [Bool.or_eq_true, child_iff, others_iff]
      rfl

/-- The child has ended. Three others are listed, one of them twice, among numbers that are none of a process, and one
of them cannot be signalled. -/
def crowded : Replies Ask.Answer
  | _, .takeHeld | _, .held => some 7
  | _, .poll _ => .ended (.exited 0)
  | _, .isReachable .. => true
  | _, .ownPid => 1000
  | _, .portOwners _ => some "12\n1000\n0\n 31 \n12\n99999999999\nnone\n15\n".toUTF8
  | past, .isAlive pid => pid = 31 ∨ past.length < 20
  | _, .signal pid _ => if pid = 31 then .error .notPermitted else .ok ()
  | past, .clock => ⟨past.length⟩
  | _, .makeDirectory _ | _, .openLog _ | _, .spawn _ | _, .readFile _ => .error .accessDenied
  | _, .exchange .. => .error .unresponsive
  | _, .readInput => .empty
  | _, .checkHeld => .nothing
  | _, .isStarting => false
  | _, .write _ | _, .pause _ | _, .hold _ | _, .setStarting _ => ()

theorem stop_sweeps_crowded :
    let s := Supervisor.ofSettings ⟨⟨.loopback, Settings.defaultPort⟩, "hearth-kernel", "hearth"⟩
    let ending : List (Turn Ask.Answer) := [⟨.takeHeld, some 7⟩, ⟨.poll 7, .ended (.exited 0)⟩]
    Errand.hold crowded [] terminateChild = (ending, .ok false) ∧
      ∃ sweep stopped, Sweeps crowded [] s ending sweep stopped := by
  intro s ending
  have ended : Errand.hold crowded [] terminateChild = (ending, .ok false) := rfl
  exact ⟨ended, stop_sweeps ended⟩

end Supervisor

end SnippetKernel
