import SnippetKernel.Proofs.Host.Runs
import SnippetKernel.Proofs.Supervisor.Tracking

/-! What the outcome of a start tells, while other processes can take the endpoint and the child can end, both at any
moment. The endpoint is probed before the child is looked after; so what answers the last probe need not be the child. -/
namespace SnippetKernel

open Children

/-- The children of a supervisor, and who listens on its endpoint. -/
structure Scene where
  children : Children
  listening : Set Pid
  /-- A process listens that is none of the children. -/
  taken : Prop
  processes : listening ⊆ children.alive

namespace Scene

/-- Where a connection is accepted, something listens. -/
def Reaches (e : Endpoint) (now : Scene) : (q : Ask) → q.Answer → Prop
  | .isReachable probed _, true => probed = e → now.taken ∨ now.listening.Nonempty
  | _, _ => True

/-- Anything can begin to listen or cease to. -/
structure Step (e : Endpoint) (before : Scene) (q : Ask) (answer : q.Answer) (now : Scene) : Prop where
  children : before.children.Step q answer now.children
  reaches : now.Reaches e q answer

/-- Something listens that is not this child. -/
def TakenBeside (x : Scene) (pid : Pid) : Prop := x.taken ∨ ∃ other ∈ x.listening, other ≠ pid

theorem Step.alive_or_taken {e : Endpoint} {within : Duration} {before now : Scene}
    (step : Step e before (.isReachable e within) true now) (pid : Pid) :
    pid ∈ now.children.alive ∨ now.TakenBeside pid := by
  rcases step.reaches rfl with taken | ⟨other, listens⟩
  · exact .inr (.inl taken)
  · by_cases same : other = pid
    · exact .inl (same ▸ now.processes listens)
    · exact .inr (.inr ⟨other, listens, same⟩)

end Scene

/-! ### What is said of children -/

namespace Ask

def IsSpawn : Ask → Prop
  | .spawn _ => True
  | _ => False

/-- The question is about what is held. -/
def Handles : Ask → Prop
  | .checkHeld | .takeHeld | .hold _ => True
  | _ => False

end Ask

variable {e : Endpoint} {x y : Scene} {log : List (Episode Ask.Answer Scene)}

theorem Scene.Step.held {q : Ask} {answer : q.Answer} (step : Scene.Step e x q answer y) (not_handles : ¬q.Handles) :
    y.children.held = x.children.held := by
  rw [step.children.held]
  cases q with
  | checkHeld | takeHeld | hold => exact absurd trivial not_handles
  | _ => rfl

theorem held_of_course {α : Type} {d : Host α} {a : α} (course : Dialogue.Course (Scene.Step e) d x log a y)
    (not_handles : ∀ ep ∈ log, ¬ep.question.Handles) : y.children.held = x.children.held := by
  induction course with
  | done => rfl
  | ask answered _ ih =>
    obtain ⟨now, later⟩ := List.forall_mem_cons.mp not_handles
    exact (ih later).trans (answered.held now)

def Spawns (ep : Episode Ask.Answer Scene) (pid : Pid) : Prop := ∃ command, ep.turn = ⟨.spawn command, .ok pid⟩

theorem not_spawns {ep : Episode Ask.Answer Scene} (no_spawn : ¬ep.question.IsSpawn) (pid : Pid) : ¬Spawns ep pid := by
  rintro ⟨command, same⟩
  have question : ep.question = .spawn command := congrArg Sigma.fst same
  exact no_spawn (question ▸ trivial)

theorem Watches.no_spawn (q : Ask) (watches : Watches q) : ¬q.IsSpawn := by
  cases q with
  | spawn => exact watches.elim
  | _ => exact id

theorem Launch.Prepares.no_spawn {q : Ask} (prepares : Launch.Prepares q) : ¬q.IsSpawn := by
  cases q with
  | spawn => exact prepares.elim
  | _ => exact id

theorem Watches.not_handles (q : Ask) (watches : Watches q) : ¬q.Handles := by
  cases q with
  | checkHeld | takeHeld | hold => exact watches.elim
  | _ => exact id

namespace Supervisor

theorem asks_terminateChild : Errand.Asks (¬·.IsSpawn) terminateChild := by
  refine .ask id fun taken => ?_
  cases taken with
  | none => trivial
  | some pid => exact .bind (((Target.child pid).asks_terminate grace).imp Watches.no_spawn) fun _ => trivial

theorem asks_isChildAlive : Dialogue.Asks (¬·.IsSpawn) isChildAlive := by
  refine .bind (.question id) fun answer => ?_
  cases answer with
  | nothing | running | ended => trivial
  | unknown pid => exact (asks_isAlive pid).imp fun q looks => (looks.watches).no_spawn

/-! ### Waiting -/

variable {s : Supervisor} {pid : Pid}

/-- Whatever comes of it, the child is not held afterwards. -/
theorem terminateChild_lets_go {outcome : Except Failure Bool}
    (course : Errand.Course (Scene.Step e) terminateChild x log outcome y) : y.children.held = none := by
  obtain ⟨taken, later, x₁, answered, rfl, rest⟩ := Errand.Course.of_ask course
  have free : x₁.children.held = none := answered.children.held
  cases taken with
  | none =>
    obtain ⟨-, -, rfl⟩ := Errand.Course.of_pure rest
    exact free
  | some pid =>
    have asks : Errand.Asks Watches (do return (← (Target.child pid).terminate grace).stopped) :=
      .bind ((Target.child pid).asks_terminate grace) fun _ => trivial
    exact (held_of_course rest fun ep said => (rest.of_asks asks ep said).not_handles).trans free

/-- The child is let go as soon as it is found to have ended. -/
theorem childExit?_course {exit : Option ExitStatus} (held : x.children.held = some pid)
    (course : Dialogue.Course (Scene.Step e) childExit? x log exit y) :
    (exit = none ∧ y.children.held = some pid ∧ ∀ status, ⟨.checkHeld, .ended pid status⟩ ∉ turns log) ∨
      exit.isSome ∧ y.children.held = none := by
  obtain ⟨found, later, x₁, answered, rfl, rest⟩ := Dialogue.Course.of_ask course
  have kept : x₁.children.held = x.children.heldAfter .checkHeld found := answered.children.held
  cases found with
  | nothing => exact nomatch held.symm.trans answered.children.truthful
  | ended other status =>
    obtain ⟨rfl, rfl, rfl⟩ := Dialogue.Course.of_done rest
    exact .inr ⟨rfl, kept⟩
  | running other | unknown other =>
    obtain ⟨rfl, rfl, rfl⟩ := Dialogue.Course.of_done rest
    exact .inl ⟨rfl, kept.trans held, fun status said => nomatch List.mem_singleton.mp said⟩

/-- The child is held, and did not end as far as was found out before the endpoint answered. -/
structure Ready (s : Supervisor) (pid : Pid) (log : List (Episode Ask.Answer Scene)) (y : Scene) : Prop where
  held : y.children.held = some pid
  answered : ∃ polling probe, log = polling ++ [probe] ∧ probe.turn = ⟨.isReachable s.endpoint startProbe, true⟩ ∧
    (∀ status, ⟨.checkHeld, .ended pid status⟩ ∉ turns polling) ∧
    (pid ∈ probe.after.children.alive ∨ probe.after.TakenBeside pid)

theorem await_ready {left : Nat} {outcome : Except Failure Started} (held : x.children.held = some pid)
    (course : Errand.Course (Scene.Step s.endpoint) (s.await pid left) x log outcome y) :
    outcome = .ok (.spawned pid) ∧ Ready s pid log y ∨ ∃ e, outcome = .error e ∧ y.children.held = none := by
  induction left generalizing x log with
  | zero =>
    rcases Errand.Course.of_bind course with ⟨first, later, _, x₁, rfl, ended, failing⟩ | ⟨e, rfl, ended⟩
    · obtain ⟨-, rfl, rfl⟩ := Errand.Course.of_throw failing
      exact .inr ⟨_, rfl, terminateChild_lets_go ended⟩
    · exact .inr ⟨e, rfl, terminateChild_lets_go ended⟩
  | succ left ih =>
    obtain ⟨reached, later, x₁, probed, rfl, rest⟩ := Errand.Course.of_ask course
    have held₁ : x₁.children.held = some pid := (probed.held id).trans held
    cases reached with
    | true =>
      obtain ⟨rfl, rfl, rfl⟩ := Errand.Course.of_pure rest
      exact .inl ⟨rfl, held₁, [], _, rfl, rfl, fun _ => List.not_mem_nil, probed.alive_or_taken pid⟩
    | false =>
    obtain ⟨looking, rest, exit, x₂, rfl, looked, more⟩ := Errand.Course.of_lift rest
    rcases childExit?_course held₁ looked with ⟨rfl, held₂, unended⟩ | ⟨found, free⟩
    · obtain ⟨_, rest, x₃, paused, rfl, again⟩ := Errand.Course.of_ask more
      refine (ih ((paused.held id).trans held₂) again).imp_left ?_
      rintro ⟨spawned, ready⟩
      refine ⟨spawned, ready.held, ?_⟩
      obtain ⟨polling, probe, rfl, answers, still_unended, alive⟩ := ready.answered
      -- This poll comes before those that follow; neither it nor they found that the child had ended.
      refine ⟨⟨x, .isReachable s.endpoint startProbe, false, x₁⟩ :: looking ++ ⟨x₂, .pause s.interval, (), x₃⟩ :: polling,
        probe, by simp, answers, fun status said => ?_, alive⟩
      rw [List.cons_append, turns_cons, turns_append, turns_cons] at said
      simp [Episode.turn, unended status, still_unended status] at said
    · obtain ⟨status, rfl⟩ := Option.isSome_iff_exists.mp found
      obtain ⟨-, rfl, rfl⟩ := Errand.Course.of_throw more
      exact .inr ⟨_, rfl, free⟩

/-! ### Starting a child -/

/-- Either no child is started, or one is, is held, and is waited for. -/
inductive Launches (s : Supervisor) : List (Episode Ask.Answer Scene) → Except Failure Started → Scene → Prop
  | childless {y : Scene} {log : List (Episode Ask.Answer Scene)} {e : Failure}
      (none : ∀ ep ∈ log, ∀ pid, ¬Spawns ep pid) : Launches s log (.error e) y
  | spawned {x₁ x₂ x₃ y : Scene} {earlier awaiting : List (Episode Ask.Answer Scene)} {command : Command} {pid : Pid}
      {outcome : Except Failure Started} (none : ∀ ep ∈ earlier, ∀ pid, ¬Spawns ep pid)
      (kept : x₃.children.held = some pid)
      (awaited : Errand.Course (Scene.Step s.endpoint) (s.await pid s.attempts) x₃ awaiting outcome y) :
      Launches s (earlier ++ ⟨x₁, .spawn command, .ok pid, x₂⟩ :: ⟨x₂, .hold pid, (), x₃⟩ :: awaiting) outcome y

theorem Launches.behind {outcome : Except Failure Started} {first : List (Episode Ask.Answer Scene)}
    (launches : Launches s log outcome y) (none : ∀ ep ∈ first, ∀ pid, ¬Spawns ep pid) :
    Launches s (first ++ log) outcome y := by
  cases launches with
  | childless none_later => exact .childless (List.forall_mem_append.mpr ⟨none, none_later⟩)
  | spawned none_later kept awaited =>
    rw [← List.append_assoc]
    exact .spawned (List.forall_mem_append.mpr ⟨none, none_later⟩) kept awaited

theorem spawn_course {l : Launch} {outcome : Except Failure Pid}
    (course : Errand.Course (Scene.Step e) l.spawn x log outcome y) :
    (∃ e, outcome = .error e) ∧ (∀ ep ∈ log, ∀ pid, ¬Spawns ep pid) ∨
      ∃ earlier x₁ command pid, log = earlier ++ [⟨x₁, .spawn command, .ok pid, y⟩] ∧ outcome = .ok pid ∧
        ∀ ep ∈ earlier, ∀ pid, ¬Spawns ep pid := by
  have prepares {outcome : Except Failure Command} {log : List (Episode Ask.Answer Scene)} {y : Scene}
      (course : Errand.Course (Scene.Step e) l.command x log outcome y) : ∀ ep ∈ log, ∀ pid, ¬Spawns ep pid :=
    fun ep said => not_spawns (course.of_asks l.asks_command ep said).no_spawn
  rcases Errand.Course.of_bind course with ⟨first, later, command, x₁, rfl, prepared, rest⟩ | ⟨e, rfl, prepared⟩
  · obtain ⟨answer, rest, x₂, spawned, rfl, told⟩ := Errand.Course.of_ask rest
    cases answer with
    | ok pid =>
      obtain ⟨rfl, rfl, rfl⟩ := Errand.Course.of_pure told
      exact .inr ⟨first, x₁, command, pid, rfl, rfl, prepares prepared⟩
    | error refusal =>
      obtain ⟨rfl, rfl, rfl⟩ := Errand.Course.of_throw told
      refine .inl ⟨⟨_, rfl⟩, List.forall_mem_append.mpr ⟨prepares prepared, ?_⟩⟩
      rintro ep said pid ⟨_, same⟩
      rw [List.mem_singleton.mp said] at same
      exact nomatch same
  · exact .inl ⟨⟨e, rfl⟩, prepares prepared⟩

theorem launched_course {outcome : Except Failure Started}
    (course : Errand.Course (Scene.Step s.endpoint) (do
      let pid ← s.launch.spawn
      Host.ask (.hold pid)
      s.await pid s.attempts) x log outcome y) : Launches s log outcome y := by
  rcases Errand.Course.of_bind course with ⟨first, later, pid, x₂, rfl, spawns, rest⟩ | ⟨e, rfl, spawns⟩
  · rcases spawn_course spawns with ⟨⟨_, absurd⟩, -⟩ | ⟨earlier, x₁, command, pid, rfl, same, none⟩
    · exact nomatch absurd
    · cases same
      obtain ⟨_, awaiting, x₃, holds, rfl, awaited⟩ := Errand.Course.of_ask rest
      have kept : x₃.children.held = some pid := holds.children.held
      rw [List.append_assoc]
      exact .spawned none kept awaited
  · rcases spawn_course spawns with ⟨-, none⟩ | ⟨_, _, _, _, -, absurd, -⟩
    · exact .childless none
    · exact nomatch absurd

theorem spawnAndAwait_course {outcome : Except Failure Started}
    (course : Errand.Course (Scene.Step s.endpoint) s.spawnAndAwait x log outcome y) : Launches s log outcome y := by
  obtain ⟨looking, later, alive, x₁, rfl, looked, rest⟩ := Errand.Course.of_lift course
  have looks := looked.of_asks asks_isChildAlive
  refine Launches.behind ?_ fun ep said => not_spawns (looks ep said)
  cases alive with
  | false => exact launched_course rest
  | true =>
    rcases Errand.Course.of_bind rest with ⟨ending, later, _, x₂, rfl, ended, rest⟩ | ⟨e, rfl, ended⟩
    · have ends := ended.of_asks asks_terminateChild
      exact (launched_course rest).behind fun ep said => not_spawns (ends ep said)
    · have ends := ended.of_asks asks_terminateChild
      exact .childless fun ep said => not_spawns (ends ep said)

/-! ### The whole start -/

/-- What the outcome tells of the children and of the endpoint. -/
structure Tells (s : Supervisor) (x : Scene) (log : List (Episode Ask.Answer Scene)) (outcome : Except Failure Started)
    (y : Scene) : Prop where
  adopted : outcome = .ok .adopted → y.children.held = x.children.held ∧ ∀ ep ∈ log, ∀ pid, ¬Spawns ep pid
  /-- The child was started by this start and is held. When the endpoint answered, at last, it had not been found to
  have ended, and was alive unless something else listened. -/
  spawned : ∀ pid, outcome = .ok (.spawned pid) → ∃ earlier spawn polling done, log = earlier ++ spawn :: polling ++ [done] ∧
    Spawns spawn pid ∧ Ready s pid polling y
  failed : ∀ e, outcome = .error e → ∀ ep ∈ log, ∀ pid, Spawns ep pid → y.children.held ≠ some pid

theorem Launches.tells {outcome : Except Failure Started} {z : Scene} {done : Episode Ask.Answer Scene}
    (launches : Launches s log outcome y) (held : z.children.held = y.children.held)
    (idle : ∀ pid, ¬Spawns done pid) : Tells s x (log ++ [done]) outcome z := by
  cases launches with
  | childless none =>
    have none : ∀ ep ∈ log ++ [done], ∀ pid, ¬Spawns ep pid :=
      List.forall_mem_append.mpr ⟨none, List.forall_mem_singleton.mpr idle⟩
    constructor
    case adopted | spawned => exact nofun
    case failed => exact fun _ _ ep said pid spawns => absurd spawns (none ep said pid)
  | @spawned _ _ x₃ _ earlier awaiting command pid _ none kept awaited =>
    rcases await_ready kept awaited with ⟨rfl, ready⟩ | ⟨e, rfl, free⟩
    · constructor
      case adopted | failed => exact nofun
      case spawned =>
        intro other same
        cases same
        obtain ⟨polling, probe, rfl, answers, unended, alive⟩ := ready.answered
        refine ⟨earlier, _, _, done, rfl, ⟨command, rfl⟩, held.trans ready.held, _ :: polling, probe, rfl, answers, ?_, alive⟩
        intro status said
        rcases List.mem_cons.mp said with holding | polls
        · exact nomatch holding
        · exact unended status polls
    · constructor
      case adopted | spawned => exact nofun
      case failed => exact fun _ _ _ _ _ _ still => nomatch (held.trans free).symm.trans still

theorem start_tells {outcome : Except Failure Started}
    (course : Errand.Course (Scene.Step s.endpoint) s.start x log outcome y) : Tells s x log outcome y := by
  obtain ⟨reached, later, x₁, probed, rfl, rest⟩ := Errand.Course.of_ask course
  cases reached with
  | true =>
    obtain ⟨rfl, rfl, rfl⟩ := Errand.Course.of_pure rest
    constructor
    case adopted => exact fun _ => ⟨probed.held id, List.forall_mem_singleton.mpr fun pid ⟨_, same⟩ => nomatch same⟩
    case spawned | failed => exact nofun
  | false =>
  obtain ⟨_, later, x₂, starting, rfl, launching⟩ := Errand.Course.of_ask rest
  obtain ⟨launches, later, result, x₃, rfl, launched, telling⟩ :=
    Errand.Course.of_lift (d := s.spawnAndAwait.run) launching
  obtain ⟨_, later, x₄, started, rfl, told⟩ := Errand.Course.of_ask telling
  obtain ⟨rfl, rfl, rfl⟩ := Dialogue.Course.of_done told
  -- Around the launch no question is about a child: what the launch tells is what the start tells.
  have none : ∀ ep ∈ [⟨x, .isReachable s.endpoint startProbe, false, x₁⟩, ⟨x₁, .setStarting true, (), x₂⟩],
      ∀ pid, ¬Spawns ep pid := by
    simp [Spawns, Episode.turn]
  exact ((spawnAndAwait_course launched).behind none).tells (started.held id) fun pid ⟨_, same⟩ => nomatch same

/-! ### An endpoint that is taken in between -/

/-- Nothing listens. -/
def silent (c : Children) : Scene := ⟨c, ∅, False, Set.empty_subset _⟩

/-- The child that is held has ended, and something else listens. -/
def overtaken : Scene := ⟨{ initial with held := some 7 }, ∅, True, Set.empty_subset _⟩

theorem command_course (l : Launch) (c : Children) :
    ∃ log command, Errand.Course (Scene.Step e) l.command (silent c) log (.ok command) (silent c) := by
  have made (path : String) : Scene.Step e (silent c) (.makeDirectory path) (.ok ()) (silent c) :=
    ⟨⟨subset_rfl, rfl, rfl, trivial⟩, trivial⟩
  have opened (path : String) : Scene.Step e (silent c) (.openLog path) (.ok ()) (silent c) :=
    ⟨⟨subset_rfl, rfl, rfl, trivial⟩, trivial⟩
  have directory (path : String) :
      ∃ log, Errand.Course (Scene.Step e) (Launch.makeDirectory path) (silent c) log (.ok ()) (silent c) :=
    ⟨_, .ask (made path) .done⟩
  obtain ⟨_, first⟩ := directory l.directory
  obtain ⟨_, second⟩ := directory (Path.parent l.logFile)
  exact ⟨_, _, .bind first (.bind second (.ask (opened l.logFile) .done))⟩

/-- The child ends before it listens, and before the endpoint is probed again something else does. -/
theorem start_overtaken (s : Supervisor) : ∃ log,
    Errand.Course (Scene.Step s.endpoint) s.start (silent initial) log (.ok (.spawned 7)) overtaken ∧
      ⟨overtaken, .isReachable s.endpoint startProbe, true, overtaken⟩ ∈ log := by
  have unreachable : Scene.Step s.endpoint (silent initial) (.isReachable s.endpoint startProbe) false (silent initial) :=
    ⟨⟨subset_rfl, rfl, rfl, trivial⟩, trivial⟩
  have starting : Scene.Step s.endpoint (silent initial) (.setStarting true) () (silent initial) :=
    ⟨⟨subset_rfl, rfl, rfl, trivial⟩, trivial⟩
  have nothing : Scene.Step s.endpoint (silent initial) .checkHeld .nothing (silent initial) :=
    ⟨⟨subset_rfl, rfl, rfl, rfl⟩, trivial⟩
  have spawned (command : Command) :
      Scene.Step s.endpoint (silent initial) (.spawn command) (.ok 7) (silent (firstChild none ∅)) :=
    ⟨first_spawned command, trivial⟩
  have holds : Scene.Step s.endpoint (silent (firstChild none ∅)) (.hold 7) () overtaken :=
    ⟨⟨Set.empty_subset _, rfl, rfl, trivial⟩, trivial⟩
  have reached : Scene.Step s.endpoint overtaken (.isReachable s.endpoint startProbe) true overtaken :=
    ⟨⟨subset_rfl, rfl, rfl, trivial⟩, fun _ => .inl trivial⟩
  have started : Scene.Step s.endpoint overtaken (.setStarting false) () overtaken :=
    ⟨⟨subset_rfl, rfl, rfl, trivial⟩, trivial⟩
  have looked : Dialogue.Course (Scene.Step s.endpoint) isChildAlive (silent initial)
      [⟨silent initial, .checkHeld, .nothing, silent initial⟩] false (silent initial) :=
    .ask nothing .done
  have awaited : Errand.Course (Scene.Step s.endpoint) (s.await 7 s.attempts) overtaken
      [⟨overtaken, .isReachable s.endpoint startProbe, true, overtaken⟩] (.ok (.spawned 7)) overtaken := by
    obtain ⟨left, attempts⟩ := Nat.exists_eq_add_of_lt s.attempts_pos
    rw [attempts, Nat.zero_add]
    exact .ask reached .done
  obtain ⟨_, command, commanded⟩ := command_course (e := s.endpoint) s.launch initial
  obtain ⟨_, launched, probed⟩ : ∃ log,
      Errand.Course (Scene.Step s.endpoint) s.spawnAndAwait (silent initial) log (.ok (.spawned 7)) overtaken ∧
        ⟨overtaken, .isReachable s.endpoint startProbe, true, overtaken⟩ ∈ log :=
    ⟨_, Errand.Course.lift looked (Errand.Course.bind (Errand.Course.bind commanded
      (Errand.Course.ask (spawned command) .done)) (Errand.Course.ask holds awaited)), by simp⟩
  refine ⟨_, .ask unreachable (.ask starting (Errand.Course.lift launched (Errand.Course.ask started .done))), ?_⟩
  simp [probed]

/-- A child is answered for that had ended before the probe that succeeded. -/
theorem start_answers_for_ended :
    let s := Supervisor.ofSettings ⟨⟨.loopback, Settings.defaultPort⟩, "hearth-kernel", "hearth"⟩
    ∃ log y, Errand.Course (Scene.Step s.endpoint) s.start (silent initial) log (.ok (.spawned 7)) y ∧
      ∃ probe ∈ log, probe.turn = ⟨.isReachable s.endpoint startProbe, true⟩ ∧
        7 ∉ probe.before.children.alive ∧ 7 ∉ probe.after.children.alive := by
  intro s
  obtain ⟨log, course, probed⟩ := start_overtaken s
  exact ⟨log, overtaken, course, _, probed, rfl, Set.notMem_empty 7, Set.notMem_empty 7⟩

theorem start_tells_overtaken :
    let s := Supervisor.ofSettings ⟨⟨.loopback, Settings.defaultPort⟩, "hearth-kernel", "hearth"⟩
    ∃ log, Errand.Course (Scene.Step s.endpoint) s.start (silent initial) log (.ok (.spawned 7)) overtaken ∧
      Tells s (silent initial) log (.ok (.spawned 7)) overtaken := by
  intro s
  obtain ⟨log, course, -⟩ := start_overtaken s
  exact ⟨log, course, start_tells course⟩

end Supervisor

end SnippetKernel
