import Mathlib.Algebra.GroupWithZero.Nat
import SnippetKernel.Caller.Call
import SnippetKernel.Caller.Exchange
import SnippetKernel.Proofs.Host.Runs
import SnippetKernel.Proofs.Supervisor.Tracking

/-! Exchanges without an answer. The kernel is said not to respond if it closes the connection before a single
byte has come from it, and for no other reason.

How often a caller sends a request, whatever the exchanges come to. Code may have run although no answer
came; so it is sent a second time only if the connection was closed without a byte, and never a third time. -/
namespace SnippetKernel

namespace Received

/-- Nothing can come after it. -/
def Closes : Received → Prop
  | .closed => True
  | .bytes b => b.size = 0
  | .nothing | .broken _ => False

def size : Received → Nat
  | .bytes b => b.size
  | .closed | .nothing | .broken _ => 0

end Received

namespace Exchange

variable (e : Endpoint) (p : Patience) {replies : Replies LinkAsk.Answer} {past : List (Turn LinkAsk.Answer)}

/-- How many bytes the turn brought. -/
def sizeOf : Turn LinkAsk.Answer → Nat
  | ⟨.receive _, received, _⟩ => received.size
  | ⟨.connect, _⟩ | ⟨.send _, _⟩ => 0

def CloseOf : Turn LinkAsk.Answer → Prop
  | ⟨.receive _, received, _⟩ => received.Closes
  | ⟨.connect, _⟩ | ⟨.send _, _⟩ => False

/-- The kernel closed the connection, and not a single byte had come. -/
def ClosedEmpty (log : List (Turn LinkAsk.Answer)) : Prop :=
  (log.map sizeOf).sum = 0 ∧ ∃ last, log.getLast? = some last ∧ CloseOf last

theorem not_closedEmpty_nil : ¬ClosedEmpty [] := by
  rintro ⟨-, _, no_turn, -⟩
  cases no_turn

theorem closedEmpty_last {turn : Turn LinkAsk.Answer} : ClosedEmpty [turn] ↔ sizeOf turn = 0 ∧ CloseOf turn := by
  simp [ClosedEmpty]

theorem closedEmpty_quiet {turn : Turn LinkAsk.Answer} {log : List (Turn LinkAsk.Answer)}
    (nothing_came : sizeOf turn = 0) (still_open : ¬CloseOf turn) : ClosedEmpty (turn :: log) ↔ ClosedEmpty log := by
  cases log with
  | nil => simp [closedEmpty_last, still_open, not_closedEmpty_nil]
  | cons next log => simp [ClosedEmpty, nothing_came]

theorem not_closedEmpty_of_size {turn : Turn LinkAsk.Answer} {log : List (Turn LinkAsk.Answer)}
    (some_came : sizeOf turn ≠ 0) : ¬ClosedEmpty (turn :: log) := by
  simp [ClosedEmpty, some_came]

theorem finish_ne_unresponsive (a : Wire.Accumulator) : a.finish ≠ .error .unresponsive := by
  unfold Wire.Accumulator.finish Response.ofBytes
  split
  · nofun
  · split <;> nofun

theorem failure_ne_unresponsive (fault : LinkFault) : fault.failure e ≠ .unresponsive := by
  cases fault <;> nofun

theorem push_failure {a b : Wire.Accumulator} {bytes : ByteArray} {failure : Failure}
    (pushed : a.push bytes = (some failure, b)) : failure ≠ .unresponsive := by
  simp only [Wire.Accumulator.push, Prod.mk.injEq] at pushed
  obtain ⟨refused, -⟩ := pushed
  split at refused
  · cases refused
    rintro ⟨⟩
  · cases refused

theorem closing_outcome (a : Wire.Accumulator) :
    (if a.size = 0 then Except.error Failure.unresponsive else a.finish) = .error .unresponsive ↔ a.size = 0 := by
  by_cases none : a.size = 0
  · simp [none]
  · simp [none, finish_ne_unresponsive]

theorem receive_unresponsive (remaining : Nat) (a : Wire.Accumulator) :
    ((receive e p remaining a).hold replies past).2 = .error .unresponsive ↔
      a.size = 0 ∧ ClosedEmpty ((receive e p remaining a).hold replies past).1 := by
  induction remaining, a using receive.induct p generalizing past with
  | case1 a =>
    rw [receive, if_pos rfl]
    simp [Dialogue.hold, not_closedEmpty_nil]
  | case2 remaining a time_left =>
    rename_i again more
    rw [receive, if_neg time_left]
    simp only [Dialogue.hold]
    generalize replies past (.receive ⟨min p.read.nanos remaining⟩) = answer
    obtain ⟨received, spent⟩ := answer
    cases received with
    | nothing => exact again.trans (and_congr_right fun _ => (closedEmpty_quiet rfl id).symm)
    | closed =>
      simp only [Dialogue.hold]
      rw [closing_outcome, closedEmpty_last]
      simp [sizeOf, Received.size, CloseOf, Received.Closes]
    | broken fault =>
      simp [Dialogue.hold, closedEmpty_last, CloseOf, Received.Closes, failure_ne_unresponsive]
    | bytes bytes =>
      dsimp only
      by_cases empty : bytes.size = 0
      · rw [if_pos empty]
        simp only [Dialogue.hold]
        rw [closing_outcome, closedEmpty_last]
        simp [sizeOf, Received.size, CloseOf, Received.Closes, empty]
      · rw [if_neg empty]
        have answered : ∀ {log}, ¬ClosedEmpty (⟨.receive ⟨min p.read.nanos remaining⟩, .bytes bytes, spent⟩ :: log) :=
          not_closedEmpty_of_size empty
        simp only [answered, and_false, iff_false]
        split
        case h_1 failure b pushed =>
          exact fun eq => push_failure pushed (Except.error.inj eq)
        case h_2 b pushed =>
          have grown := (size_push pushed).1
          split
          · rintro ⟨⟩
          · rw [more spent bytes empty b pushed]
            rintro ⟨no_bytes, -⟩
            exact empty (by omega)

/-- An exchange is without an answer if the kernel closes the connection and not a byte has come, and only then. -/
theorem run_unresponsive (r : Request) :
    ((run e p r).hold replies past).2 = .error .unresponsive ↔ ClosedEmpty ((run e p r).hold replies past).1 := by
  simp only [run, Dialogue.hold]
  generalize replies past .connect = connected
  cases connected with
  | error fault => simp [Dialogue.hold, closedEmpty_last, CloseOf, failure_ne_unresponsive]
  | ok connected =>
    rw [closedEmpty_quiet rfl id]
    simp only [Dialogue.hold]
    generalize replies _ (.send (Wire.frame r)) = sent
    cases sent with
    | error fault => simp [Dialogue.hold, closedEmpty_last, CloseOf, failure_ne_unresponsive]
    | ok sent =>
      rw [closedEmpty_quiet rfl id]
      exact (receive_unresponsive e p _ _).trans (and_iff_right rfl)

end Exchange

variable {α : Type}

/-! ### Questions by which nothing is sent -/

/-- No request is sent. -/
def Silent : Ask → Prop
  | .exchange .. => False
  | _ => True

theorem Watches.silent (q : Ask) (watches : Watches q) : Silent q := by
  cases q with
  | exchange => exact watches
  | _ => trivial

theorem Launch.Prepares.silent (q : Ask) (prepares : Launch.Prepares q) : Silent q := by
  cases q with
  | exchange => exact prepares
  | _ => trivial

namespace Supervisor

theorem silent_isChildAlive : Dialogue.Asks Silent isChildAlive := by
  refine .bind (.question trivial) fun answer => ?_
  cases answer with
  | nothing | ended | running => trivial
  | unknown pid => exact ((asks_isAlive pid).imp Looks.watches).imp Watches.silent

theorem silent_childExit? : Dialogue.Asks Silent childExit? := by
  refine .bind (.question trivial) fun answer => ?_
  cases answer <;> trivial

theorem silent_terminateChild : Errand.Asks Silent terminateChild := by
  refine .ask trivial fun answer => ?_
  cases answer with
  | none => trivial
  | some pid => exact .bind (((Target.child pid).asks_terminate grace).imp Watches.silent) fun _ => trivial

theorem silent_spawn (l : Launch) : Errand.Asks Silent l.spawn := by
  refine .bind (l.asks_command.imp Launch.Prepares.silent) fun command => .ask trivial fun answer => ?_
  cases answer <;> trivial

theorem silent_await (s : Supervisor) (pid : Pid) (left : Nat) : Errand.Asks Silent (s.await pid left) := by
  induction left with
  | zero => exact .bind silent_terminateChild fun _ => trivial
  | succ left ih =>
    refine .ask trivial fun reachable => ?_
    split
    · trivial
    refine .lift silent_childExit? fun exit => ?_
    cases exit with
    | some status => trivial
    | none => exact .ask trivial fun _ => ih

theorem silent_spawnAndAwait (s : Supervisor) : Errand.Asks Silent s.spawnAndAwait := by
  have started : Errand.Asks Silent (do
      let pid ← s.launch.spawn
      Host.ask (.hold pid)
      s.await pid s.attempts) :=
    .bind (silent_spawn s.launch) fun pid => .ask trivial fun _ => silent_await s pid s.attempts
  refine .lift silent_isChildAlive fun alive => ?_
  cases alive with
  | true => exact .bind silent_terminateChild fun _ => started
  | false => exact started

theorem silent_start (s : Supervisor) : Errand.Asks Silent s.start := by
  refine .ask trivial fun reachable => ?_
  split
  · trivial
  · refine .ask trivial fun _ => .lift (silent_spawnAndAwait s) fun outcome => .ask trivial fun _ => ?_
    exact trivial

theorem silent_startRetrying (s : Supervisor) (delay : Duration) (more : Nat) :
    Errand.Asks Silent (s.startRetrying delay more) := by
  induction more with
  | zero => exact silent_start s
  | succ more ih =>
    refine .lift (silent_start s) fun outcome => ?_
    cases outcome with
    | ok started => trivial
    | error e => exact .ask trivial fun _ => ih

theorem silent_isRunning (s : Supervisor) : Dialogue.Asks Silent s.isRunning := by
  refine .bind (.question trivial) fun reachable => ?_
  split
  · trivial
  · exact silent_isChildAlive

theorem silent_ensureRunning (s : Supervisor) (attempts : Nat) (delay : Duration) :
    Errand.Asks Silent (s.ensureRunning attempts delay) := by
  refine .lift (silent_isRunning s) fun running => ?_
  split
  · trivial
  · exact .bind (silent_startRetrying s delay (attempts - 1)) fun _ => trivial

end Supervisor

/-! ### Surroundings in which the exchanges come out one by one -/

/-- What an exchange comes to. -/
abbrev Outcome : Type := Except Failure Response

def isExchange : Turn Ask.Answer → Bool
  | ⟨.exchange .., _⟩ => true
  | _ => false

/-- How many exchanges there were. -/
def exchanges (log : List (Turn Ask.Answer)) : Nat := log.countP isExchange

theorem exchanges_of_silent {log : List (Turn Ask.Answer)} (silent : ∀ turn ∈ log, Silent turn.1) :
    exchanges log = 0 := by
  refine List.countP_eq_zero.mpr fun turn said => ?_
  obtain ⟨q, answer⟩ := turn
  cases q with
  | exchange => exact (silent _ said).elim
  | _ => exact Bool.false_ne_true

/-- The exchanges come to the outcomes, in turn; all else is answered in some way. -/
def replying (outcome : Nat → Outcome) (others : Replies Ask.Answer) : Replies Ask.Answer
  | past, .exchange .. => outcome (exchanges past)
  | past, q => others past q

namespace Caller

variable (outcome : Nat → Outcome) (others : Replies Ask.Answer) {past : List (Turn Ask.Answer)}
variable (c : Caller) (r : Request) (p : Patience)

def exchanged (o : Outcome) : Turn Ask.Answer := ⟨.exchange c.supervisor.endpoint r p, o⟩

def paused (d : Duration) : Turn Ask.Answer := ⟨.pause d, ()⟩

/-- An exchange and so many more, each with a pause before it that depends on the outcome of the last. -/
def tries (rest : Outcome → Duration) (first : Nat) : (more : Nat) → List (Turn Ask.Answer)
  | 0 => [c.exchanged r p (outcome first)]
  | more + 1 =>
    c.exchanged r p (outcome first) :: paused (rest (outcome first)) :: tries rest (first + 1) more

theorem exchanges_tries (rest : Outcome → Duration) (first more : Nat) :
    exchanges (c.tries outcome r p rest first more) = more + 1 := by
  induction more generalizing first with
  | zero => rfl
  | succ more ih =>
    have later := ih (first + 1)
    calc
      exchanges (c.tries outcome r p rest first (more + 1))
        = exchanges (c.tries outcome r p rest (first + 1) more) + 0 + 1 := by
          rw [exchanges, tries, List.countP_cons_of_pos rfl, List.countP_cons_of_neg Bool.false_ne_true]
          rfl
      _ = more + 1 + 1 := by rw [later]

def retryable : Outcome → Bool
  | .ok _ => false
  | .error failure => failure.isRetryable

/-- What is waited after an outcome that lets a command be tried again. -/
def restAfter : Outcome → Duration
  | .error .busy => busyDelay
  | _ => refusedDelay

theorem retryDelay_eq (failure : Failure) : retryDelay failure = restAfter (.error failure) := by
  cases failure <;> rfl

theorem hold_exchange :
    Dialogue.hold (replying outcome others) past (c.exchange r p) =
      ([c.exchanged r p (outcome (exchanges past))], outcome (exchanges past)) :=
  rfl

theorem hold_pause {d : Duration} {t : Errand α} :
    Errand.hold (replying outcome others) past (liftM (Host.ask (.pause d)) >>= fun _ => t) =
      (paused d :: (t.hold (replying outcome others) (past ++ [paused d])).1,
        (t.hold (replying outcome others) (past ++ [paused d])).2) :=
  rfl

theorem exchanges_after (o : Outcome) : exchanges (past ++ [c.exchanged r p o]) = exchanges past + 1 := by
  rw [exchanges, List.countP_append]
  rfl

theorem exchanges_paused (d : Duration) : exchanges (past ++ [paused d]) = exchanges past := by
  rw [exchanges, List.countP_append]
  rfl

theorem hold_retrying (more : Nat) (past : List (Turn Ask.Answer)) :
    ∃ n, n ≤ more ∧ (∀ i < n, retryable (outcome (exchanges past + i))) ∧
      (n < more → ¬retryable (outcome (exchanges past + n))) ∧
      (retrying (c.exchange r p) more).hold (replying outcome others) past =
        (c.tries outcome r p restAfter (exchanges past) n, outcome (exchanges past + n)) := by
  induction more generalizing past with
  | zero => exact ⟨0, Nat.le_refl 0, nofun, nofun, rfl⟩
  | succ more ih =>
    rw [retrying, Errand.hold_lift (hold_exchange outcome others c r p)]
    cases came : outcome (exchanges past) with
    | ok response =>
      refine ⟨0, Nat.zero_le _, nofun, fun _ => ?_, ?_⟩
      · rw [Nat.add_zero, came]
        exact Bool.false_ne_true
      · rw [Nat.add_zero, tries, came]
        rfl
    | error failure =>
      by_cases again : failure.isRetryable
      · have before : exchanges (past ++ [c.exchanged r p (.error failure)] ++ [paused (retryDelay failure)]) =
            exchanges past + 1 := by
          rw [exchanges_paused, exchanges_after]
        obtain ⟨n, fits, passed, stopped, held⟩ :=
          ih (past ++ [c.exchanged r p (.error failure)] ++ [paused (retryDelay failure)])
        rw [before] at passed stopped held
        refine ⟨n + 1, Nat.succ_le_succ fits, fun i below => ?_, fun more_left => ?_, ?_⟩
        · cases i with
          | zero =>
            rw [Nat.add_zero, came]
            exact again
          | succ i =>
            rw [Nat.add_comm i 1, ← Nat.add_assoc]
            exact passed i (Nat.lt_of_succ_lt_succ below)
        · rw [Nat.add_comm n 1, ← Nat.add_assoc]
          exact stopped (Nat.lt_of_succ_lt_succ more_left)
        · rw [Nat.add_comm n 1, ← Nat.add_assoc, Nat.add_comm 1 n, tries, came, ← retryDelay_eq]
          simp only [again, if_true]
          rw [hold_pause, held]
          rfl
      · refine ⟨0, Nat.zero_le _, nofun, fun _ => ?_, ?_⟩
        · rw [Nat.add_zero, came]
          exact again
        · rw [Nat.add_zero, tries, came]
          simp only [again, Bool.false_eq_true, if_false]
          rfl

theorem hold_twice (past : List (Turn Ask.Answer)) :
    ∃ n, n ≤ 1 ∧ (n = 1 ↔ outcome (exchanges past) = .error .unresponsive) ∧
      (twice (c.exchange r p)).hold (replying outcome others) past =
        (c.tries outcome r p (fun _ => emptyDelay) (exchanges past) n, outcome (exchanges past + n)) := by
  rw [twice, Errand.hold_lift (hold_exchange outcome others c r p)]
  by_cases unresponsive : outcome (exchanges past) = .error .unresponsive
  · refine ⟨1, Nat.le_refl 1, iff_of_true rfl unresponsive, ?_⟩
    have again : Errand.hold (replying outcome others)
        (past ++ [c.exchanged r p (.error .unresponsive)] ++ [paused emptyDelay]) (.mk (c.exchange r p)) =
          ([c.exchanged r p (outcome (exchanges past + 1))], outcome (exchanges past + 1)) := by
      have first : exchanges (past ++ [c.exchanged r p (.error .unresponsive)]) = exchanges past + 1 :=
        exchanges_after c r p (.error .unresponsive)
      rw [← exchanges_paused emptyDelay] at first
      rw [← first]
      exact hold_exchange outcome others c r p
    simp only [unresponsive]
    rw [hold_pause, again, tries, unresponsive]
    rfl
  · refine ⟨0, Nat.zero_le 1, iff_of_false nofun unresponsive, ?_⟩
    rw [Nat.add_zero, tries]
    split
    · exact absurd ‹_› unresponsive
    · rfl

/-! ### What the callers do -/

/-- What comes before the first exchange of a command. -/
def seek (c : Caller) : Errand Unit :=
  if c.autoStart then c.ensureRunning
  else do if !(← c.supervisor.isRunning) then throw (.unreachable c.supervisor.endpoint.text)

theorem silent_seek : Errand.Asks Silent c.seek := by
  unfold seek
  split
  · exact c.supervisor.silent_ensureRunning _ _
  · refine .lift c.supervisor.silent_isRunning fun running => ?_
    cases running <;> trivial

/-- What the caller makes of the last outcome: an error document is a failure, and so is the document of
another action than the one that was asked for. -/
def conclusion (action : String) (read? : Response → Option α) : Outcome → Except Failure α
  | .error failure => .error failure
  | .ok (.error _ message) => .error (.remote message)
  | .ok response =>
    match read? response with
    | some a => .ok a
    | none => .error (.protocol ("expected " ++ action ++ " response, got " ++ actionOf response))

def executed? : Response → Option ExecuteResult
  | .execute result => some result
  | _ => none

def inspected? : Response → Option InspectResult
  | .inspect result => some result
  | _ => none

def wasReset? : Response → Option ResetResult
  | .reset result => some result
  | _ => none

def reported? : Response → Option StatusResult
  | .status result => some result
  | _ => none

/-- First the kernel is sought; if that fails, nothing is sent. Otherwise the request is sent again, that is for
the time with number `k`, if `goesOn k` holds and not otherwise. Nothing else happens than that and the pauses
between the exchanges, and the last outcome is the one that counts. -/
def Sends (t : Errand α) (seek : Errand Unit) (goesOn : Nat → Prop) (rest : Outcome → Duration)
    (conclude : Outcome → Except Failure α) : Prop :=
  let sought := seek.hold (replying outcome others) []
  let held := t.hold (replying outcome others) []
  let last := exchanges held.1 - 1
  exchanges sought.1 = 0 ∧
    match sought.2 with
    | .error failure => held = (sought.1, .error failure)
    | .ok () =>
      (∀ k, k < exchanges held.1 ↔ goesOn k) ∧
        held = (sought.1 ++ c.tries outcome r p rest 0 last, conclude (outcome last))

theorem sends_of_tries {t : Errand α} {seek : Errand Unit} {goesOn : Nat → Prop} {rest : Outcome → Duration}
    {conclude : Outcome → Except Failure α} (policy : Errand Response) (read : Response → Except Failure α)
    (silent : Errand.Asks Silent seek)
    (shape : t = seek >>= fun _ => policy >>= fun response => .ofOutcome (read response))
    (tried : ∀ past, exchanges past = 0 → ∃ n, (∀ k, k < n + 1 ↔ goesOn k) ∧
      policy.hold (replying outcome others) past = (c.tries outcome r p rest 0 n, outcome n))
    (concludes : ∀ o : Outcome, o >>= read = conclude o) :
    c.Sends outcome others r p t seek goesOn rest conclude := by
  subst shape
  have none_yet : exchanges (seek.hold (replying outcome others) []).1 = 0 := exchanges_of_silent silent.hold
  unfold Sends
  cases sought : seek.hold (replying outcome others) [] with
  | mk log found =>
    rw [sought] at none_yet
    refine ⟨none_yet, ?_⟩
    cases found with
    | error failure => exact Errand.hold_bind_error sought
    | ok =>
      obtain ⟨n, counted, held⟩ := tried log none_yet
      have whole : Errand.hold (replying outcome others) []
          (seek >>= fun _ => policy >>= fun response => .ofOutcome (read response)) =
            (log ++ c.tries outcome r p rest 0 n, conclude (outcome n)) := by
        rw [Errand.hold_bind_ok sought, List.nil_append, Errand.hold_ofOutcome, held, concludes]
      have sent : exchanges (log ++ c.tries outcome r p rest 0 n) = n + 1 := by
        have appended : exchanges (log ++ c.tries outcome r p rest 0 n) =
            exchanges log + exchanges (c.tries outcome r p rest 0 n) := List.countP_append
        rw [appended, none_yet, exchanges_tries, Nat.zero_add]
      simp only [whole, sent, Nat.add_sub_cancel, and_true]
      exact counted

theorem sends_execute (code : String) :
    c.Sends outcome others (.execute code) { read := .ofSeconds 30, whole := c.deadline } (c.execute code)
      c.ensureRunning (fun k => k = 0 ∨ k = 1 ∧ outcome 0 = .error .unresponsive) (fun _ => emptyDelay)
      (conclusion "execute" executed?) := by
  let patience : Patience := { read := .ofSeconds 30, whole := c.deadline }
  refine c.sends_of_tries outcome others (.execute code) patience (twice (c.exchange (.execute code) patience))
    (fun response => conclusion "execute" executed? (.ok response))
    (c.supervisor.silent_ensureRunning _ _) ?shape (fun past none_yet => ?tried) fun o => ?concludes
  case shape =>
    refine bind_congr fun _ => bind_congr fun response => ?_
    cases response <;> rfl
  case tried =>
    obtain ⟨n, fits, again, held⟩ := c.hold_twice outcome others (.execute code) patience past
    rw [none_yet, Nat.zero_add] at held
    rw [none_yet] at again
    refine ⟨n, fun k => ?_, held⟩
    rw [← again]
    omega
  case concludes => cases o <;> rfl

theorem command_eq :
    c.command r p = c.seek >>= fun _ => retrying (c.exchange r p) (commandAttempts - 1) >>= fun response =>
      .ofOutcome response.result := by
  unfold command seek
  split
  · rfl
  · rw [bind_assoc]
    refine bind_congr fun running => ?_
    cases running <;> rfl

theorem sends_command {f : Response → Errand α} {action : String} {read? : Response → Option α}
    (reads : ∀ response, response.result = .ok response →
      f response = .ofOutcome (conclusion action read? (.ok response))) :
    c.Sends outcome others r p (c.command r p >>= f) c.seek (fun k => k < commandAttempts ∧ ∀ i < k, retryable (outcome i)) restAfter
      (conclusion action read?) := by
  refine c.sends_of_tries outcome others r p (retrying (c.exchange r p) (commandAttempts - 1))
    (fun response => conclusion action read? (.ok response))
    c.silent_seek ?shape (fun past none_yet => ?tried) fun o => ?concludes
  case shape =>
    rw [command_eq]
    simp only [bind_assoc]
    refine bind_congr fun _ => bind_congr fun response => ?_
    cases response with
    | error => rfl
    | _ => exact reads _ rfl
  case tried =>
    obtain ⟨n, fits, passed, stopped, held⟩ := c.hold_retrying outcome others r p (commandAttempts - 1) past
    rw [none_yet, Nat.zero_add] at held stopped
    simp only [none_yet, Nat.zero_add] at passed
    refine ⟨n, fun k => ⟨fun sent => ⟨?_, fun i below => passed i (by omega)⟩, fun ⟨allowed, all⟩ => ?_⟩, held⟩
    · exact Nat.lt_of_lt_of_le sent (Nat.succ_le_succ fits)
    · by_contra not_sent
      exact stopped (by omega) (all n (by omega))
  case concludes => cases o <;> rfl

/-- Code is sent a second time if the first exchange was without an answer, and only then, and never a third time;
a command is sent again as long as all its failures pass and it was sent fewer than three times. An exchange is
without an answer if the connection is closed before a byte has come. -/
theorem sent_again_iff (c : Caller) (outcome : Nat → Outcome) (others : Replies Ask.Answer) :
    (∀ code, c.Sends outcome others (.execute code) { read := .ofSeconds 30, whole := c.deadline }
      (c.execute code) c.ensureRunning (fun k => k = 0 ∨ k = 1 ∧ outcome 0 = .error .unresponsive)
      (fun _ => emptyDelay) (conclusion "execute" executed?)) ∧
    (∀ pattern, c.Sends outcome others (.inspect pattern) briefly (c.inspect pattern) c.seek
      (fun k => k < commandAttempts ∧ ∀ i < k, retryable (outcome i)) restAfter
      (conclusion "inspect" inspected?)) ∧
    c.Sends outcome others .reset patiently c.reset c.seek
      (fun k => k < commandAttempts ∧ ∀ i < k, retryable (outcome i)) restAfter (conclusion "reset" wasReset?) ∧
    c.Sends outcome others .status briefly c.status c.seek
      (fun k => k < commandAttempts ∧ ∀ i < k, retryable (outcome i)) restAfter (conclusion "status" reported?) ∧
    ∀ e r p (replies : Replies LinkAsk.Answer),
      ((Exchange.run e p r).hold replies []).2 = .error .unresponsive ↔
        Exchange.ClosedEmpty ((Exchange.run e p r).hold replies []).1 := by
  refine ⟨fun code => c.sends_execute outcome others code,
    fun pattern => c.sends_command outcome others (.inspect pattern) briefly fun response answers => ?_,
    c.sends_command outcome others .reset patiently fun response answers => ?_,
    c.sends_command outcome others .status briefly fun response answers => ?_,
    fun e r p replies => Exchange.run_unresponsive e p r⟩
  all_goals
    cases response with
    | error => cases answers
    | _ => rfl

end Caller

end SnippetKernel
