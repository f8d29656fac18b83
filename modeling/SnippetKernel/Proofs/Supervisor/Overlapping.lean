import Mathlib.Logic.Function.Basic
import Mathlib.Logic.Relation
import SnippetKernel.Proofs.Supervisor.Phases

/-! Starts that are made at the same time, through copies of one supervisor. They have the child that is held in
common, and their questions come in any order. If each of them waits for the others before it looks for a child and
before it ends one, then there is never a second child and none is forgotten. But they do not wait: a start can
look for a child when another is about to hold its own. -/
namespace SnippetKernel

open Children Relation Supervisor

/-! ### The children in each phase -/

namespace Children

variable {before now : Children}

/-- Each of those that are alive is the one that is held. -/
def Kept (c : Children) : Prop := ∀ pid ∈ c.alive, c.held = some pid

/-- None was started, and the one that was held is held still, if it is alive. -/
structure Undisturbed (before now : Children) : Prop where
  alive : now.alive ⊆ before.alive
  held : ∀ pid ∈ now.alive, before.held = some pid → now.held = some pid

theorem Kept.undisturbed (kept : before.Kept) (undisturbed : Undisturbed before now) : now.Kept :=
  fun pid pid_alive => undisturbed.held pid pid_alive (kept pid (undisturbed.alive pid_alive))

theorem Kept.none_alive (kept : before.Kept) (held : before.held = none) : before.alive = ∅ :=
  Set.eq_empty_of_forall_notMem fun pid pid_alive => by simpa [held] using kept pid pid_alive

theorem Kept.only {pid : Pid} (kept : before.Kept) (held : before.held = some pid) : before.alive ⊆ {pid} :=
  fun other other_alive => Option.some.inj ((kept other other_alive).symm.trans held)

theorem Kept.subsingleton (kept : before.Kept) : before.alive.Subsingleton :=
  fun one one_alive other other_alive => Option.some.inj ((kept one one_alive).symm.trans (kept other other_alive))

theorem kept_of_none_alive (none_alive : before.alive = ∅) : before.Kept :=
  fun pid pid_alive => absurd (none_alive ▸ pid_alive) (Set.notMem_empty pid)

theorem none_alive_of_ended {pid : Pid} (only : before.alive ⊆ {pid}) (fewer : now.alive ⊆ before.alive)
    (ended : pid ∉ now.alive) : now.alive = ∅ := by
  refine Set.eq_empty_of_forall_notMem fun other other_alive => ended ?_
  rwa [← Set.mem_singleton_iff.mp (only (fewer other_alive))]

theorem Step.undisturbed_of_calm {q : Ask} {answer : q.Answer} (step : before.Step q answer now) (calm : Calm q) :
    Undisturbed before now := by
  refine ⟨?_, fun pid _ held => (step.held_of_calm calm).trans held⟩
  cases q with
  | spawn | checkHeld | takeHeld | hold => exact calm.elim
  | _ => exact step.alive

/-- One that is forgotten because it has ended is not alive. -/
theorem Step.undisturbed_of_check {answer : Held} (step : before.Step .checkHeld answer now) :
    Undisturbed before now := by
  refine ⟨step.alive, fun pid pid_alive held => ?_⟩
  cases answer with
  | ended other status =>
    have same : pid = other := Option.some.inj (held.symm.trans step.truthful.1)
    exact absurd (same ▸ pid_alive) step.truthful.2
  | nothing | running | unknown => exact step.held.trans held

end Children

namespace Phase

/-- What the children are like while one start is in a phase and all others are idle. -/
def Fits (c : Children) : Phase → Prop
  | idle | entered => c.Kept
  | asked pid => c.Kept ∧ c.alive ⊆ {pid}
  | gone => c.alive = ∅
  | taken pid | started pid => c.alive ⊆ {pid}
  | lost => False

/-- The child that is not held, because it is about to be, or because it is about to end. -/
def hand? : Phase → Option Pid
  | taken pid | started pid => some pid
  | _ => none

variable {p : Phase} {c c' : Children}

theorem Fits.undisturbed (fits : p.Fits c) (undisturbed : Undisturbed c c') : p.Fits c' := by
  cases p with
  | idle | entered => exact Kept.undisturbed fits undisturbed
  | asked pid => exact ⟨fits.1.undisturbed undisturbed, undisturbed.alive.trans fits.2⟩
  | gone => exact Set.subset_eq_empty undisturbed.alive fits
  | taken | started => exact undisturbed.alive.trans fits
  | lost => exact fits

theorem Fits.kept (fits : p.Fits c) (can_take : p.CanTake) : c.Kept := by
  cases p with
  | idle | entered => exact fits
  | asked => exact fits.1
  | _ => exact can_take.elim

theorem Fits.none_alive (fits : p.Fits c) (ended : ∀ pid, p = taken pid → pid ∉ c.alive) (free : p.CanSpawn) :
    c.alive = ∅ := by
  cases p with
  | gone => exact fits
  | taken pid => exact none_alive_of_ended fits subset_rfl (ended pid rfl)
  | _ => exact free.elim

/-- There is at most one child, and it is held or in hand. -/
theorem Fits.one (fits : p.Fits c) :
    c.alive.Subsingleton ∧ ∀ pid ∈ c.alive, c.held = some pid ∨ p.hand? = some pid := by
  cases p with
  | idle | entered => exact ⟨Kept.subsingleton fits, fun pid pid_alive => .inl (fits pid pid_alive)⟩
  | asked => exact ⟨fits.1.subsingleton, fun pid pid_alive => .inl (fits.1 pid pid_alive)⟩
  | gone =>
    rw [Fits] at fits
    rw [fits]
    exact ⟨Set.subsingleton_empty, fun pid pid_alive => pid_alive.elim⟩
  | taken one | started one =>
    exact ⟨Set.subsingleton_singleton.anti fits, fun pid pid_alive => .inr (congrArg some (fits pid_alive).symm)⟩
  | lost => exact fits.elim

/-! ### From phase to phase -/

theorem Fits.left (fits : p.Fits c) (ended : ∀ pid, p = taken pid → pid ∉ c.alive) (proper : p.left ≠ lost) :
    p.left.Fits c := by
  cases p with
  | idle | entered => exact fits
  | asked => exact fits.1
  | gone | taken => exact kept_of_none_alive (fits.none_alive ended trivial)
  | started | lost => exact absurd rfl proper

theorem Fits.looked {held : Held} (fits : p.Fits c) (step : c.Step .checkHeld held c') :
    (p.looked held).Fits c' := by
  have still := fits.undisturbed step.undisturbed_of_check
  cases p with
  | entered =>
    have kept : c.Kept := fits
    cases held with
    | nothing => exact Set.subset_eq_empty step.alive (kept.none_alive step.truthful)
    | running => exact still
    | ended pid => exact none_alive_of_ended (kept.only step.truthful.1) step.alive step.truthful.2
    | unknown pid =>
      have only := kept.only step.truthful
      rw [Phase.looked]
      split
      case isTrue no_process =>
        refine none_alive_of_ended only step.alive fun pid_alive => ?_
        have process := c'.processes pid pid_alive
        exact no_process.elim process.1 (UInt32.not_lt.mpr process.2)
      case isFalse => exact ⟨still, step.alive.trans only⟩
  | _ => exact still

theorem Fits.took {held : Option Pid} (fits : p.Fits c) (step : c.Step .takeHeld held c')
    (proper : p.took held ≠ lost) : (p.took held).Fits c' := by
  have can_take : p.CanTake := by
    cases p with
    | idle | entered | asked => trivial
    | _ => exact absurd rfl proper
  have kept := fits.kept can_take
  rw [can_take.took]
  cases held with
  | none => exact Set.subset_eq_empty step.alive (kept.none_alive step.truthful.symm)
  | some pid => exact step.alive.trans (kept.only step.truthful.symm)

theorem Fits.spawned {command : Command} {outcome : Except OsError Pid} (fits : p.Fits c)
    (step : c.Step (.spawn command) outcome c') (ended : ∀ pid, p = taken pid → pid ∉ c.alive)
    (proper : p.spawned outcome ≠ lost) : (p.spawned outcome).Fits c' := by
  have alive := step.alive
  cases p with
  | gone | taken =>
    have none_alive := fits.none_alive ended trivial
    cases outcome with
    | ok pid =>
      rw [aliveAfter, none_alive, LawfulSingleton.insert_empty_eq] at alive
      exact alive
    | error e => exact Set.subset_eq_empty alive none_alive
  | _ => exact absurd rfl proper

/-- What an answer does to the children fits the next phase. -/
theorem Fits.after {q : Ask} {answer : q.Answer} (fits : p.Fits c) (step : c.Step q answer c')
    (ended : ∀ pid, p = taken pid → Watches q ∨ pid ∉ c.alive) (proper : p.after q answer ≠ lost) :
    (p.after q answer).Fits c' := by
  have finished (other : ¬Watches q) (pid : Pid) (taken : p = taken pid) : pid ∉ c.alive :=
    (ended pid taken).resolve_left other
  cases q with
  | setStarting starting =>
    have undisturbed := step.undisturbed_of_calm trivial
    cases starting with
    | true =>
      by_cases idle : p = .idle
      · rw [Phase.after, if_pos idle]
        rw [idle] at fits
        exact Kept.undisturbed fits undisturbed
      · exact absurd (if_neg idle) proper
    | false => exact (fits.left (finished id) proper).undisturbed undisturbed
  | checkHeld => exact fits.looked step
  | takeHeld => exact fits.took step proper
  | spawn command => exact fits.spawned step (finished id) proper
  | hold pid =>
    by_cases mine : p = started pid
    · rw [Phase.after, if_pos mine]
      rw [mine] at fits
      intro other other_alive
      rw [step.held, fits (step.alive other_alive)]
      rfl
    · exact absurd (if_neg mine) proper
  | isAlive pid =>
    have still := fits.undisturbed (step.undisturbed_of_calm trivial)
    cases answer with
    | true => exact still
    | false =>
      rw [Phase.after]
      split
      case isTrue mine =>
        rw [mine] at fits
        exact none_alive_of_ended fits.2 step.alive step.truthful
      case isFalse => exact still
  | _ => exact fits.undisturbed (step.undisturbed_of_calm trivial)

/-- An idle start that stays idle does not disturb the others. -/
theorem undisturbed_of_idle {q : Ask} {answer : q.Answer} (step : c.Step q answer c')
    (stays : idle.after q answer = idle) : Undisturbed c c' := by
  cases q with
  | checkHeld => exact step.undisturbed_of_check
  | takeHeld =>
    cases answer with
    | none | some => exact nomatch stays
  | spawn | hold => exact nomatch stays
  | _ => exact step.undisturbed_of_calm trivial

end Phase

/-! ### Many starts -/

/-- Nothing else listens: unless a child is alive, the endpoint does not answer. -/
def Children.Listen (c : Children) : (q : Ask) → q.Answer → Prop
  | .isReachable _ _, true => c.alive.Nonempty
  | _, _ => True

/-- A start that goes on from here. -/
structure Strand where
  rest : Host (Except Failure Started)
  /-- What it is in the middle of, by what it has asked and was told. -/
  phase : Phase

namespace Strand

def begin (s : Supervisor) : Strand := ⟨s.start.run, .idle⟩

/-- Its next question is answered. -/
structure Turn (before : Strand) (c : Children) (q : Ask) (answer : q.Answer) (now : Strand) (c' : Children) :
    Prop where
  asked : ∃ next, before.rest = Dialogue.ask q next ∧ now = ⟨next answer, before.phase.after q answer⟩
  answered : c.Step q answer c'
  listen : c.Listen q answer

def Step (before now : Strand × Children) : Prop :=
  ∃ q answer, Turn before.1 before.2 q answer now.1 now.2

/-- A child that it has taken has ended by the time that it goes on to something else. -/
def Succeeds (t : Strand) (c : Children) : Prop :=
  ∀ q next pid, t.rest = Dialogue.ask q next → t.phase = .taken pid → Watches q ∨ pid ∉ c.alive

/-- What is left of it keeps to the phases. -/
def Proper (t : Strand) : Prop := Host.Paces t.rest (fun _ p => p = .idle) t.phase

theorem proper_begin (s : Supervisor) : (begin s).Proper := s.paces_start

variable {t t' : Strand} {c c' : Children}

theorem Proper.not_lost (proper : t.Proper) : t.phase ≠ .lost :=
  Host.Paces.not_lost (fun _ _ idle lost => nomatch idle.symm.trans lost) proper

theorem Step.proper (step : Step (t, c) (t', c')) (proper : t.Proper) : t'.Proper := by
  obtain ⟨q, answer, ⟨next, asks, rfl⟩, -, -⟩ := step
  rw [Proper, asks] at proper
  exact proper.2 answer _ rfl

theorem Step.fits (step : Step (t, c) (t', c')) (fits : t.phase.Fits c) (proper : t.Proper)
    (succeeds : t.Succeeds c) : t'.phase.Fits c' := by
  have not_lost := (step.proper proper).not_lost
  obtain ⟨q, answer, ⟨next, asks, rfl⟩, answered, -⟩ := step
  exact fits.after answered (fun pid => succeeds q next pid asks) not_lost

theorem Step.undisturbed (step : Step (t, c) (t', c')) (idle : t.phase = .idle) (stays : t'.phase = .idle) :
    Undisturbed c c' := by
  obtain ⟨q, answer, ⟨next, -, rfl⟩, answered, -⟩ := step
  have stays : t.phase.after q answer = .idle := stays
  rw [idle] at stays
  exact Phase.undisturbed_of_idle answered stays

/-! ### A start that ends no child -/

/-- It goes on, and takes no child. -/
def Leads : Strand × Children → Strand × Children → Prop :=
  ReflTransGen fun x x' => Step x x' ∧ ∀ pid, x'.1.phase ≠ .taken pid

theorem Leads.ask {q : Ask} {next : q.Answer → Host (Except Failure Started)} {phase : Phase}
    {x : Strand × Children} (answer : q.Answer) (answered : c.Step q answer c') (listen : c.Listen q answer)
    (not_taken : ∀ pid, phase.after q answer ≠ .taken pid)
    (leads : Leads (⟨next answer, phase.after q answer⟩, c') x) : Leads (⟨Dialogue.ask q next, phase⟩, c) x :=
  .head ⟨⟨q, answer, ⟨next, rfl, rfl⟩, answered, listen⟩, not_taken⟩ leads

theorem Leads.not_taken {x x' : Strand × Children} (leads : Leads x x')
    (before : ∀ pid, x.1.phase ≠ .taken pid) : ∀ pid, x'.1.phase ≠ .taken pid := by
  cases leads with
  | refl => exact before
  | tail _ step => exact step.2

/-- One that finds no child starts one, whatever other starts do before that. -/
theorem leads_begin (s : Supervisor) (held : c.held = none) :
    ∃ t, Leads (.begin s, c) (t, c) ∧ ∀ {c₁ c₂ c₃ : Children} {pid : Pid},
      (∀ command, c₁.Step (.spawn command) (.ok pid) c₂) → c₂.Step (.hold pid) () c₃ →
        ∃ t', t'.phase = .idle ∧ Leads (t, c₁) (t', c₃) := by
  have unreachable : c.Step (.isReachable s.endpoint startProbe) false c :=
    ⟨subset_rfl, rfl, rfl, trivial⟩
  have starting : c.Step (.setStarting true) () c := ⟨subset_rfl, rfl, rfl, trivial⟩
  have nothing : c.Step .checkHeld .nothing c := ⟨subset_rfl, rfl, rfl, held⟩
  have made (path : String) : c.Step (.makeDirectory path) (.ok ()) c := ⟨subset_rfl, rfl, rfl, trivial⟩
  have opened : c.Step (.openLog s.launch.logFile) (.ok ()) c := ⟨subset_rfl, rfl, rfl, trivial⟩
  refine ⟨_, .ask false unreachable trivial nofun <| .ask () starting trivial nofun <|
    .ask .nothing nothing trivial nofun <| .ask (.ok ()) (made _) trivial nofun <|
    .ask (.ok ()) (made _) trivial nofun <| .ask (.ok ()) opened trivial nofun .refl, ?_⟩
  intro c₁ c₂ c₃ pid spawned holds
  have idle : (Phase.started pid).after (.hold pid) () = .idle := if_pos rfl
  have not_taken (other : Pid) : (Phase.started pid).after (.hold pid) () ≠ .taken other :=
    fun taken => nomatch idle.symm.trans taken
  exact ⟨_, idle, .ask (.ok pid) (spawned _) trivial nofun (.ask () holds trivial not_taken .refl)⟩

end Strand

/-- Starts that have their children in common. -/
structure Pool (ι : Type) where
  children : Children
  strands : ι → Strand

namespace Pool

section

variable {ι : Type}

/-- No start has asked anything. -/
def begin (s : Supervisor) : Pool ι := ⟨initial, fun _ => .begin s⟩

/-- Every child that is to end ends. -/
def Succeeds (p : Pool ι) : Prop := ∀ i, (p.strands i).Succeeds p.children

/-- All starts but this one are idle. -/
def Alone (p : Pool ι) (i : ι) : Prop := ∀ j, j ≠ i → (p.strands j).phase = .idle

/-- No two starts are at the same time about to look for a child, to end one or to hold one. -/
def TakesTurns (p : Pool ι) : Prop := ∀ i, (p.strands i).phase ≠ .idle → p.Alone i

/-- A start beside which the others are idle finds the children as its phase says. -/
structure Orderly (p : Pool ι) : Prop where
  proper : ∀ i, (p.strands i).Proper
  fits : ∀ i, p.Alone i → (p.strands i).phase.Fits p.children

theorem orderly_begin (s : Supervisor) : (begin s : Pool ι).Orderly where
  proper _ := Strand.proper_begin s
  fits _ _ := kept_of_none_alive rfl

theorem takesTurns_begin (s : Supervisor) : (begin s : Pool ι).TakesTurns :=
  fun _ not_idle => absurd rfl not_idle

/-- No start has taken a child. -/
def Mild (p : Pool ι) : Prop := ∀ i pid, (p.strands i).phase ≠ .taken pid

theorem mild_begin (s : Supervisor) : (begin s : Pool ι).Mild := fun _ _ => nofun

theorem Mild.succeeds {p : Pool ι} (mild : p.Mild) : p.Succeeds :=
  fun i _ _ pid _ taken => absurd taken (mild i pid)

end

variable {ι : Type} [DecidableEq ι]

/-- One start has gone on. -/
def set (p : Pool ι) (i : ι) (t : Strand) (c : Children) : Pool ι := ⟨c, Function.update p.strands i t⟩

theorem strands_set (p : Pool ι) (i : ι) (t : Strand) (c : Children) : (p.set i t c).strands i = t := by
  simp only [set, Function.update_self]

theorem strands_set_of_ne (p : Pool ι) {i j : ι} (t : Strand) (c : Children) (other : j ≠ i) :
    (p.set i t c).strands j = p.strands j := by
  simp only [set, Function.update_of_ne other]

/-- One of the starts has its next question answered. -/
def Step (p p' : Pool ι) : Prop := ∃ i t c, Strand.Step (p.strands i, p.children) (t, c) ∧ p' = p.set i t c

/-- The starts go on in any order, and what is reached is good at all times. -/
def Runs (good : Pool ι → Prop) : Pool ι → Pool ι → Prop := ReflTransGen fun p p' => p.Step p' ∧ good p'

variable {p p' : Pool ι}

theorem Orderly.step (orderly : p.Orderly) (succeeds : p.Succeeds) (takes_turns : p.TakesTurns)
    (step : p.Step p') : p'.Orderly := by
  obtain ⟨i, t, c, step, rfl⟩ := step
  have changed : (p.set i t c).strands i = t := p.strands_set i t c
  have same (j : ι) (other : j ≠ i) : (p.set i t c).strands j = p.strands j := p.strands_set_of_ne t c other
  have fits (alone : p.Alone i) : t.phase.Fits c :=
    step.fits (orderly.fits i alone) (orderly.proper i) (succeeds i)
  refine ⟨fun j => ?_, fun j alone => ?_⟩
  · by_cases this_one : j = i
    · rw [this_one, changed]
      exact step.proper (orderly.proper i)
    · rw [same j this_one]
      exact orderly.proper j
  · by_cases this_one : j = i
    · subst this_one
      rw [changed]
      exact fits fun k other => same k other ▸ alone k other
    have idle : t.phase = .idle := changed ▸ alone i (Ne.symm this_one)
    rw [same j this_one]
    by_cases was_idle : (p.strands i).phase = .idle
    · -- The start that goes on is idle before and after, and does not disturb the other.
      have alone_before : p.Alone j := fun k other => by
        by_cases that_one : k = i
        · rw [that_one, was_idle]
        · exact same k that_one ▸ alone k other
      exact (orderly.fits j alone_before).undisturbed (step.undisturbed was_idle idle)
    · have kept := fits (takes_turns i was_idle)
      rw [idle] at kept
      rw [takes_turns i was_idle j this_one]
      exact kept

theorem Orderly.run (s : Supervisor) (runs : Runs (fun p => p.Succeeds ∧ p.TakesTurns) (begin s) p) :
    p.Orderly ∧ p.Succeeds ∧ p.TakesTurns := by
  induction runs with
  | refl => exact ⟨orderly_begin s, (mild_begin s).succeeds, takesTurns_begin s⟩
  | tail _ step ih =>
    obtain ⟨orderly, succeeds, takes_turns⟩ := ih
    exact ⟨orderly.step succeeds takes_turns step.1, step.2⟩

/-- Starts that take turns start no second child while there is one, and lose none. -/
theorem one_child (s : Supervisor) (runs : Runs (fun p => p.Succeeds ∧ p.TakesTurns) (begin s) p) :
    p.children.alive.Subsingleton ∧
      ∀ pid ∈ p.children.alive, p.children.held = some pid ∨ ∃ i, (p.strands i).phase.hand? = some pid := by
  obtain ⟨orderly, -, takes_turns⟩ := Orderly.run s runs
  have leading (i : ι) (alone : p.Alone i) : p.children.alive.Subsingleton ∧
      ∀ pid ∈ p.children.alive, p.children.held = some pid ∨ ∃ i, (p.strands i).phase.hand? = some pid := by
    obtain ⟨one, kept⟩ := (orderly.fits i alone).one
    exact ⟨one, fun pid pid_alive => (kept pid pid_alive).imp_right fun in_hand => ⟨i, in_hand⟩⟩
  by_cases idle : ∀ i, (p.strands i).phase = .idle
  · obtain rfl | ⟨_, -, ⟨i, -⟩, -⟩ := runs.cases_tail
    · exact ⟨Set.subsingleton_empty, fun pid pid_alive => pid_alive.elim⟩
    · exact leading i fun j _ => idle j
  · obtain ⟨i, not_idle⟩ := not_forall.mp idle
    exact leading i (takes_turns i not_idle)

/-! ### Runs in which nothing is ended -/

/-- A start that goes on makes a run, if it takes no child. -/
theorem runs_of_leads {good : Pool ι → Prop} (i : ι) {x : Strand × Children}
    (leads : Strand.Leads (p.strands i, p.children) x)
    (is_good : ∀ t c, (∀ pid, t.phase ≠ .taken pid) → good (p.set i t c)) :
    Runs good p (p.set i x.1 x.2) := by
  induction leads with
  | refl =>
    rw [set, Function.update_eq_self]
    exact .refl
  | @tail x x' _ step ih =>
    have here : ((p.set i x.1 x.2).strands i, (p.set i x.1 x.2).children) = x :=
      Prod.ext (p.strands_set i x.1 x.2) rfl
    have there : p.set i x'.1 x'.2 = (p.set i x.1 x.2).set i x'.1 x'.2 := by
      rw [set, set, set, Function.update_idem]
    have goes_on := step.1
    rw [← here] at goes_on
    exact .tail ih ⟨⟨i, x'.1, x'.2, goes_on, there⟩, is_good x'.1 x'.2 step.2⟩

theorem Mild.set (mild : p.Mild) (i : ι) {t : Strand} (not_taken : ∀ pid, t.phase ≠ .taken pid) (c : Children) :
    (p.set i t c).Mild := by
  intro j pid
  by_cases this_one : j = i
  · rw [this_one, strands_set]
    exact not_taken pid
  · rw [p.strands_set_of_ne t c this_one]
    exact mild j pid

theorem Mild.runs (mild : p.Mild) (i : ι) {t : Strand} {c : Children}
    (leads : Strand.Leads (p.strands i, p.children) (t, c)) :
    Runs Succeeds p (p.set i t c) ∧ (p.set i t c).Mild :=
  ⟨runs_of_leads i leads fun _ c not_taken => (mild.set i not_taken c).succeeds,
    mild.set i (leads.not_taken (mild i)) c⟩

theorem takesTurns_set {i : ι} (alone : p.Alone i) (t : Strand) (c : Children) : (p.set i t c).TakesTurns := by
  have others (j : ι) (other : j ≠ i) : ((p.set i t c).strands j).phase = .idle := by
    rw [p.strands_set_of_ne t c other]
    exact alone j other
  intro j not_idle k other
  have this_one : j = i := by_contra fun is_other => not_idle (others j is_other)
  exact others k (this_one ▸ other)

/-- Two starts, of which one has started a child. -/
theorem one_child_two_starts :
    let s := Supervisor.ofSettings ⟨⟨.loopback, Settings.defaultPort⟩, "hearth-kernel", "hearth"⟩
    ∃ p : Pool Bool, Runs (fun p => p.Succeeds ∧ p.TakesTurns) (begin s) p ∧ 7 ∈ p.children.alive ∧
      p.children.alive.Subsingleton ∧
      (p.children.held = some 7 ∨ ∃ i, (p.strands i).phase.hand? = some 7) := by
  intro s
  obtain ⟨t, ready, starts⟩ := Strand.leads_begin s (c := initial) rfl
  obtain ⟨t', -, started⟩ := starts first_spawned first_held
  have runs : Runs (fun p => p.Succeeds ∧ p.TakesTurns) (begin s) _ :=
    runs_of_leads true (ready.trans started) fun t c not_taken =>
      ⟨((mild_begin s).set true not_taken c).succeeds, takesTurns_set (fun _ _ => rfl) t c⟩
  have alive : 7 ∈ (firstChild (some 7) ∅).alive := rfl
  obtain ⟨one, kept⟩ := one_child s runs
  exact ⟨_, runs, alive, one, kept 7 alive⟩

/-- Two children, neither of which was asked to end. -/
def twoUnforced (held : Option Pid) : Children := { twoChildren held with forced := ∅ }

/-- Two starts that do not take turns. Each of them finds no child before the other starts one; then the first
child is alive, but not held, and there is a second one. -/
theorem two_starts_lose :
    let s := Supervisor.ofSettings ⟨⟨.loopback, Settings.defaultPort⟩, "hearth-kernel", "hearth"⟩
    ∃ p : Pool Bool, Runs Succeeds (begin s) p ∧ ¬p.children.alive.Subsingleton ∧
      ∃ pid ∈ p.children.alive, p.children.held ≠ some pid ∧ ∀ i, (p.strands i).phase.hand? ≠ some pid := by
  intro s
  have spawned_again (command : Command) :
      (firstChild (some 7) ∅).Step (.spawn command) (.ok 8) (twoUnforced (some 7)) :=
    ⟨subset_rfl, rfl, (Set.empty_sdiff {8}).symm, show (8 : Pid) ≠ 7 by decide⟩
  have held_again : (twoUnforced (some 7)).Step (.hold 8) () (twoUnforced (some 8)) :=
    ⟨subset_rfl, rfl, rfl, trivial⟩
  obtain ⟨t, ready, starts⟩ := Strand.leads_begin s (c := initial) rfl
  obtain ⟨first, first_idle, first_starts⟩ := starts first_spawned first_held
  obtain ⟨second, second_idle, second_starts⟩ := starts spawned_again held_again
  have mild : (begin s : Pool Bool).Mild := mild_begin s
  obtain ⟨one_ready, mild⟩ := mild.runs true ready
  obtain ⟨both_ready, mild⟩ := mild.runs false ready
  obtain ⟨one_started, mild⟩ := mild.runs true first_starts
  obtain ⟨both_started, -⟩ := mild.runs false second_starts
  have runs := ((one_ready.trans both_ready).trans one_started).trans both_started
  have seven : 7 ∈ (twoUnforced (some 8)).alive := Or.inr rfl
  have eight : 8 ∈ (twoUnforced (some 8)).alive := Or.inl rfl
  have not_held : (twoUnforced (some 8)).held ≠ some 7 := show some 8 ≠ some 7 by decide
  refine ⟨_, runs, fun one => absurd (one seven eight) (by decide), 7, seven, not_held, fun i => ?_⟩
  cases i with
  | true =>
    show first.phase.hand? ≠ some 7
    rw [first_idle]
    nofun
  | false =>
    show second.phase.hand? ≠ some 7
    rw [second_idle]
    nofun

end Pool

end SnippetKernel
