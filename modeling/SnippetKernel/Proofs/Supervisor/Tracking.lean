import SnippetKernel.Proofs.Supervisor.Children
import SnippetKernel.Supervisor.Stop

/-! A supervisor that starts, stops and restarts its kernel, in any surroundings. A child that it started is the
one that it holds for as long as the child is alive, unless it had to end it by force: before it does so it lets
go of the child, and a child that outlives a forced end is forgotten. -/
namespace SnippetKernel

open Children

variable {α β : Type}

namespace Launch

/-- Questions that are asked before a process is started. -/
def Prepares : Ask → Prop
  | .makeDirectory _ | .openLog _ => True
  | _ => False

theorem Prepares.calm (q : Ask) (prepares : Prepares q) : Calm q := by
  cases q with
  | spawn | checkHeld | takeHeld | hold => exact prepares
  | _ => trivial

theorem asks_makeDirectory (path : String) : Errand.Asks Prepares (makeDirectory path) := by
  refine .ask trivial fun answer => ?_
  cases answer with
  | ok | error => trivial

theorem asks_command (l : Launch) : Errand.Asks Prepares l.command := by
  refine .bind (asks_makeDirectory _) fun _ => .bind (asks_makeDirectory _) fun _ => .ask trivial fun answer => ?_
  cases answer with
  | ok | error => trivial

end Launch

/-! ### Computations that keep track -/

def Host.Tracks (d : Host α) : Prop := ∀ c : Children, c.Tracked → Host.Minds d (fun _ c' => c'.Tracked) c

def Errand.Tracks (t : Errand α) : Prop := Host.Tracks t.run

namespace Host.Tracks

theorem pure (a : α) : Host.Tracks (pure a) := fun _ tracked => tracked

theorem of_asks {d : Host α} (asks : Dialogue.Asks Calm d) : Host.Tracks d :=
  fun _ tracked => .of_tracked asks tracked

theorem bind {d : Host α} {f : α → Host β} (first : Host.Tracks d) (second : ∀ a, Host.Tracks (f a)) :
    Host.Tracks (d >>= f) :=
  fun c tracked => .bind (first c tracked) fun a c' tracked => second a c' tracked

theorem ask {q : Ask} {f : q.Answer → Host β} (calm : Calm q) (next : ∀ answer, Host.Tracks (f answer)) :
    Host.Tracks (Host.ask q >>= f) :=
  bind (of_asks (.question calm)) next

end Host.Tracks

namespace Errand.Tracks

theorem pure (a : α) : Errand.Tracks (pure a) := fun _ tracked => tracked

theorem throw (e : Failure) : Errand.Tracks (throw e : Errand α) := fun _ tracked => tracked

theorem bind {t : Errand α} {f : α → Errand β} (first : Errand.Tracks t) (second : ∀ a, Errand.Tracks (f a)) :
    Errand.Tracks (t >>= f) :=
  fun c tracked =>
    Errand.Minds.bind (first c tracked) (fun a c' tracked => second a c' tracked) fun _ _ tracked => tracked

theorem lift {d : Host α} {f : α → Errand β} (first : Host.Tracks d) (second : ∀ a, Errand.Tracks (f a)) :
    Errand.Tracks (liftM d >>= f) :=
  fun c tracked => Errand.Minds.lift (first c tracked) fun a c' tracked => second a c' tracked

theorem ask {q : Ask} {f : q.Answer → Errand β} (calm : Calm q) (next : ∀ answer, Errand.Tracks (f answer)) :
    Errand.Tracks (liftM (Host.ask q) >>= f) :=
  lift (.of_asks (.question calm)) next

/-- A failure is an outcome like any other. -/
theorem attempt {t : Errand α} {f : Except Failure α → Errand β} (first : Errand.Tracks t)
    (second : ∀ outcome, Errand.Tracks (f outcome)) : Errand.Tracks (t.attempt >>= f) :=
  lift first second

end Errand.Tracks

namespace Supervisor

variable {c : Children}

theorem minds_isChildAlive (tracked : c.Tracked) :
    Host.Minds isChildAlive (fun alive c' => c'.Tracked ∧ (alive = false → c'.Gone)) c := by
  refine .ask tracked.atMostOne fun answer c' step => ?_
  have fewer := step.fewer nofun
  cases answer with
  | nothing =>
    have gone := (tracked.gone step.truthful).fewer fewer
    exact ⟨gone.tracked, fun _ => gone⟩
  | ended pid status =>
    have gone := ((tracked.only step.truthful.1).fewer fewer).gone step.truthful.2
    exact ⟨gone.tracked, fun _ => gone⟩
  | running pid => exact ⟨tracked.fewer fewer step.held, nofun⟩
  | unknown pid =>
    have only := (tracked.only step.truthful).fewer fewer
    refine (Target.minds_isAlive only).imp fun alive c'' ⟨only, same, gone⟩ => ⟨only.tracked ?_, gone⟩
    calc
      c''.held = c'.held := same
      _ = c.held := step.held
      _ = some pid := step.truthful

theorem minds_terminateChild (tracked : c.Tracked) : Errand.Minds terminateChild (fun _ c' => c'.Gone) c := by
  refine .ask tracked.atMostOne fun answer c' step => ?_
  have fewer := step.fewer nofun
  cases answer with
  | none => exact (tracked.gone step.truthful.symm).fewer fewer
  | some pid =>
    have only := (tracked.only step.truthful.symm).fewer fewer
    exact .bind (Target.minds_terminate only grace) (fun _ _ gone => gone) fun _ _ gone => gone

theorem minds_spawn (l : Launch) (gone : c.Gone) :
    Errand.Minds l.spawn (fun outcome c' => match outcome with
      | .ok pid => c'.Only pid
      | .error _ => c'.Gone) c := by
  have prepared := Host.Minds.of_gone (l.asks_command.imp Launch.Prepares.calm) gone
  refine .bind prepared (fun command c' gone => ?_) fun _ _ gone => gone
  refine .ask gone.atMostOne fun answer c'' step => ?_
  cases answer with
  | ok pid => exact step.started gone
  | error e => exact step.not_started gone

theorem tracks_childExit? : Host.Tracks childExit? := by
  intro c tracked
  refine .ask tracked.atMostOne fun answer c' step => ?_
  have fewer := step.fewer nofun
  cases answer with
  | ended pid status => exact (((tracked.only step.truthful.1).fewer fewer).gone step.truthful.2).tracked
  | nothing | running | unknown => exact tracked.fewer fewer step.held

theorem tracks_terminateChild : Errand.Tracks terminateChild :=
  fun _ tracked => (minds_terminateChild tracked).imp fun _ _ gone => gone.tracked

theorem tracks_await (s : Supervisor) (pid : Pid) (left : Nat) : Errand.Tracks (s.await pid left) := by
  induction left with
  | zero => exact .bind tracks_terminateChild fun _ => .throw _
  | succ left ih =>
    refine .ask trivial fun reachable => ?_
    split
    · exact .pure _
    refine .lift tracks_childExit? fun exit => ?_
    cases exit with
    | some status => exact .throw _
    | none => exact .ask trivial fun _ => ih

theorem minds_launched (s : Supervisor) (gone : c.Gone) :
    Errand.Minds (do
      let pid ← s.launch.spawn
      Host.ask (.hold pid)
      s.await pid s.attempts) (fun _ c' => c'.Tracked) c := by
  refine .bind (minds_spawn s.launch gone) (fun pid c' only => ?_) fun _ _ gone => gone.tracked
  refine .ask only.atMostOne fun _ c'' step => tracks_await s pid s.attempts c'' ?_
  exact (only.fewer (step.fewer nofun)).tracked step.held

theorem tracks_spawnAndAwait (s : Supervisor) : Errand.Tracks s.spawnAndAwait := by
  intro c tracked
  refine Errand.Minds.lift (minds_isChildAlive tracked) fun alive c' ⟨tracked, gone⟩ => ?_
  cases alive with
  | false => exact minds_launched s (gone rfl)
  | true =>
    exact Errand.Minds.bind (minds_terminateChild tracked) (fun _ _ gone => minds_launched s gone)
      fun _ _ gone => gone.tracked

theorem tracks_start (s : Supervisor) : Errand.Tracks s.start := by
  refine .ask trivial fun reachable => ?_
  split
  · exact .pure _
  refine .ask trivial fun _ => .attempt (tracks_spawnAndAwait s) fun outcome => .ask trivial fun _ => ?_
  exact fun _ tracked => tracked

theorem tracks_startRetrying (s : Supervisor) (delay : Duration) (more : Nat) :
    Errand.Tracks (s.startRetrying delay more) := by
  induction more with
  | zero => exact tracks_start s
  | succ more ih =>
    refine .attempt (tracks_start s) fun outcome => ?_
    cases outcome with
    | ok started => exact .pure _
    | error e => exact .ask trivial fun _ => ih

theorem asks_terminateAll (pids : List Pid) : Dialogue.Asks Watches (terminateAll pids) := by
  induction pids with
  | nil => trivial
  | cons pid rest ih =>
    refine .bind ((Target.foreign pid).asks_terminate grace) fun _ => ?_
    exact .bind ih fun _ => trivial

theorem tracks_stop (s : Supervisor) : Errand.Tracks s.stop := by
  refine .bind tracks_terminateChild fun ended => .ask trivial fun reachable => ?_
  split
  · refine .ask trivial fun own => .ask trivial fun owners => ?_
    exact .lift (.of_asks ((asks_terminateAll _).imp Watches.calm)) fun _ => .pure _
  · exact .pure _

theorem tracks_restart (s : Supervisor) : Errand.Tracks s.restart :=
  .bind (tracks_stop s) fun _ => .ask trivial fun _ => tracks_startRetrying s _ _

theorem tracks_isChildAlive : Host.Tracks isChildAlive :=
  fun _ tracked => (minds_isChildAlive tracked).imp fun _ _ holds => holds.1

theorem tracks_condition (s : Supervisor) : Host.Tracks s.condition := by
  refine .ask trivial fun reachable => ?_
  split
  · exact .pure _
  refine .ask trivial fun starting => ?_
  split
  · exact .pure _
  refine .bind tracks_isChildAlive fun alive => ?_
  split
  · exact .pure _
  · exact .pure _

theorem tracks_status (s : Supervisor) : Host.Tracks s.status :=
  .bind (tracks_condition s) fun _ => .ask trivial fun _ => .pure _

/-! ### Starts that spawn a process -/

variable {c' c'' : Children} {pid : Pid}

theorem spawn_ends (l : Launch) (spawned : ∀ command, c.Step (.spawn command) (.ok pid) c') :
    Errand.Ends Step l.spawn c (.ok pid) c' := by
  have made (path : String) : Errand.Ends Step (Launch.makeDirectory path) c (.ok ()) c :=
    .ask (⟨subset_rfl, rfl, rfl, trivial⟩ : c.Step (.makeDirectory path) (.ok ()) c) .done
  have opened : c.Step (.openLog l.logFile) (.ok ()) c := ⟨subset_rfl, rfl, rfl, trivial⟩
  have commanded : ∃ command, Errand.Ends Step l.command c (.ok command) c :=
    ⟨_, .bind (made _) (.bind (made _) (.ask opened .done))⟩
  obtain ⟨command, commanded⟩ := commanded
  exact .bind commanded (.ask (spawned command) .done)

theorem await_ends (s : Supervisor) : Errand.Ends Step (s.await pid s.attempts) c (.ok (.spawned pid)) c := by
  obtain ⟨left, attempts⟩ := Nat.exists_eq_add_of_lt s.attempts_pos
  rw [attempts, Nat.zero_add]
  exact .ask (⟨subset_rfl, rfl, rfl, trivial⟩ : c.Step (.isReachable s.endpoint startProbe) true c) .done

theorem start_ends (s : Supervisor) {outcome : Except Failure Started}
    (ends : Errand.Ends Step s.spawnAndAwait c outcome c') : Errand.Ends Step s.start c outcome c' := by
  have unreachable : c.Step (.isReachable s.endpoint startProbe) false c := ⟨subset_rfl, rfl, rfl, trivial⟩
  have starting : c.Step (.setStarting true) () c := ⟨subset_rfl, rfl, rfl, trivial⟩
  have started : c'.Step (.setStarting false) () c' := ⟨subset_rfl, rfl, rfl, trivial⟩
  exact .ask unreachable (.ask starting (.lift ends (.ask started .done)))

/-- Without a child there is nothing to end first. -/
theorem spawnAndAwait_alone (s : Supervisor) (held : c.held = none)
    (spawned : ∀ command, c.Step (.spawn command) (.ok pid) c') (kept : c'.Step (.hold pid) () c'') :
    Errand.Ends Step s.spawnAndAwait c (.ok (.spawned pid)) c'' := by
  have nothing : Dialogue.Ends Step isChildAlive c false c :=
    .ask (⟨subset_rfl, rfl, rfl, held⟩ : c.Step .checkHeld .nothing c) .done
  exact .lift nothing (.bind (spawn_ends s.launch spawned) (.ask kept (await_ends s)))

/-- A child that outlives its end does not keep the next from being started. -/
theorem spawnAndAwait_outlived (s : Supervisor) {taken forced spawned kept : Children} {old : Pid}
    (running : c.held = some old ∧ old ∈ c.alive) (take : c.Step .takeHeld (some old) taken)
    (lives : old ∈ taken.alive) (kill : taken.Step (.signal old .kill) (.ok ()) forced)
    (outlives : old ∈ forced.alive) (spawn : ∀ command, forced.Step (.spawn command) (.ok pid) spawned)
    (hold : spawned.Step (.hold pid) () kept) :
    Errand.Ends Step s.spawnAndAwait c (.ok (.spawned pid)) kept := by
  have looked : Dialogue.Ends Step isChildAlive c true c :=
    .ask (⟨subset_rfl, rfl, rfl, running⟩ : c.Step .checkHeld (.running old) c) .done
  have terminated : Errand.Ends Step terminateChild c (.ok false) forced :=
    .ask take (.bind (Target.terminate_outlived lives outlives kill grace) .done)
  exact .lift looked (.bind terminated (.bind (spawn_ends s.launch spawn) (.ask hold (await_ends s))))

/-! ### Calls one after the other -/

inductive Call where
  | start
  | stop
  | restart
  | status

/-- Makes a call, whether it succeeds or not. -/
def Call.perform (s : Supervisor) : Call → Host Unit
  | .start => do let _ ← s.start.run
  | .stop => do let _ ← s.stop.run
  | .restart => do let _ ← s.restart.run
  | .status => do let _ ← s.status

def performAll (s : Supervisor) : List Call → Host Unit
  | [] => return ()
  | call :: rest => do
    call.perform s
    performAll s rest

theorem tracks_perform (s : Supervisor) (call : Call) : Host.Tracks (call.perform s) := by
  cases call with
  | start => exact .bind (tracks_start s) fun _ => .pure _
  | stop => exact .bind (tracks_stop s) fun _ => .pure _
  | restart => exact .bind (tracks_restart s) fun _ => .pure _
  | status => exact .bind (tracks_status s) fun _ => .pure _

theorem tracks_performAll (s : Supervisor) (calls : List Call) : Host.Tracks (s.performAll calls) := by
  induction calls with
  | nil => exact .pure _
  | cons call rest ih => exact .bind (tracks_perform s call) fun _ => ih

/-- One child that was started. -/
def firstChild (held : Option Pid) (forced : Set Pid) : Children :=
  { alive := {7}, held, forced, processes := by rintro pid rfl; decide }

/-- It and another. -/
def twoChildren (held : Option Pid) : Children :=
  { alive := {8, 7}, held, forced := {7}, processes := by rintro pid (rfl | rfl) <;> decide }

theorem first_spawned (command : Command) : initial.Step (.spawn command) (.ok 7) (firstChild none ∅) :=
  ⟨fun _ => Or.inl, rfl, (Set.empty_sdiff {7}).symm, Set.notMem_empty 7⟩

theorem first_held : (firstChild none ∅).Step (.hold 7) () (firstChild (some 7) ∅) :=
  ⟨subset_rfl, rfl, rfl, trivial⟩

theorem performAll_two_starts (s : Supervisor) :
    Dialogue.Ends Step (s.performAll [.start, .start]) initial () (twoChildren (some 8)) := by
  have eight_is_not_seven : (8 : Pid) ∉ ({7} : Set Pid) := by decide
  have taken : (firstChild (some 7) ∅).Step .takeHeld (some 7) (firstChild none ∅) :=
    ⟨subset_rfl, rfl, rfl, rfl⟩
  have killed : (firstChild none ∅).Step (.signal 7 .kill) (.ok ()) (firstChild none {7}) :=
    ⟨subset_rfl, rfl, (LawfulSingleton.insert_empty_eq 7).symm, trivial⟩
  have spawned_again (command : Command) :
      (firstChild none {7}).Step (.spawn command) (.ok 8) (twoChildren none) :=
    ⟨subset_rfl, rfl, (Set.sdiff_singleton_eq_self eight_is_not_seven).symm, eight_is_not_seven⟩
  have held_again : (twoChildren none).Step (.hold 8) () (twoChildren (some 8)) :=
    ⟨subset_rfl, rfl, rfl, trivial⟩
  have first := start_ends s (spawnAndAwait_alone s rfl first_spawned first_held)
  have second := start_ends s
    (spawnAndAwait_outlived s ⟨rfl, rfl⟩ taken rfl killed rfl spawned_again held_again)
  exact .bind (.bind first .done) (.bind (.bind second .done) .done)

theorem performAll_tracked (s : Supervisor) (calls : List Call) (c : Children) :
    (Dialogue.Ends Step (s.performAll calls) initial () c →
      ∀ pid ∈ c.alive, pid ∉ c.forced → c.held = some pid) ∧
    (Dialogue.Passes Step (s.performAll calls) initial c →
      ∀ pid ∈ c.alive, pid ∉ c.forced → ∀ other ∈ c.alive, other ∉ c.forced → other = pid) := by
  have minds := tracks_performAll s calls initial tracked_initial
  constructor
  · intro ends pid pid_alive not_forced
    exact minds.of_ends ends pid ⟨pid_alive, not_forced⟩
  · intro passes pid pid_alive pid_not_forced other other_alive other_not_forced
    have one := minds.of_passes passes fun _ _ tracked => tracked.atMostOne
    exact one ⟨other_alive, other_not_forced⟩ ⟨pid_alive, pid_not_forced⟩

/-- Of the two children, the one that was not asked to end by force. -/
theorem performAll_tracked_two_starts :
    let s := Supervisor.ofSettings ⟨⟨.loopback, Settings.defaultPort⟩, "hearth-kernel", "hearth"⟩
    let c := twoChildren (some 8)
    Dialogue.Ends Step (s.performAll [.start, .start]) initial () c ∧ c.held = some 8 ∧
      ∀ other ∈ c.alive, other ∉ c.forced → other = 8 := by
  intro s c
  have ends := performAll_two_starts s
  have tracked := performAll_tracked s [.start, .start] c
  have alive : 8 ∈ c.alive := Or.inl rfl
  have not_forced : 8 ∉ c.forced := show (8 : Pid) ≠ 7 by decide
  exact ⟨ends, tracked.1 ends 8 alive not_forced, tracked.2 ends.passes 8 alive not_forced⟩

/-- A child that outlives a forced end is alive and not held, and there is a second child. -/
theorem performAll_loses :
    let s := Supervisor.ofSettings ⟨⟨.loopback, Settings.defaultPort⟩, "hearth-kernel", "hearth"⟩
    ∃ c, Dialogue.Ends Step (s.performAll [.start, .start]) initial () c ∧
      (¬∀ pid ∈ c.alive, c.held = some pid) ∧ ¬c.alive.Subsingleton := by
  intro s
  have seven : 7 ∈ (twoChildren (some 8)).alive := Or.inr rfl
  have eight : 8 ∈ (twoChildren (some 8)).alive := Or.inl rfl
  refine ⟨_, performAll_two_starts s, fun all_held => ?_, fun one => ?_⟩
  · exact absurd (all_held 7 seven) (by decide)
  · exact absurd (one seven eight) (by decide)

end Supervisor

end SnippetKernel
