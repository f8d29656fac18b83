import Mathlib.Data.List.Basic
import SnippetKernel.Supervisor.Stop

/-! One hook that several threads have in common: signals are delivered, the hook is fired, disarmed and dropped, in
any order, and stops that have begun go on in between. What a thread does to the hook is one exchange of its flag. All
that a thread does after that, it does with what it found, so who stops the kernel is settled by the order of the
exchanges alone. -/
namespace SnippetKernel.Hook

/-- Why a hook is fired. -/
inductive Cause where
  | signal
  | request
  | drop
  deriving DecidableEq

/-- A thread that has fired the hook. -/
structure Firing where
  cause : Cause
  /-- What it had to do, by the flag that it found. -/
  task : Errand Bool
  /-- What is left of that. -/
  rest : Host (Except Failure Bool)

structure Scene where
  hook : Hook
  /-- In the order in which they exchanged the flag. -/
  firings : List Firing

inductive Happening where
  | fires (c : Cause)
  | disarms
  /-- The next question of a firing is answered. -/
  | goesOn (i : Nat)
  deriving DecidableEq

namespace Scene

/-- Nothing has happened to the hook. -/
def begin : Scene := ⟨armed, []⟩

/-- A thread finds the hook as it is and leaves it fired; from there on it is at the beginning of its task. -/
def fired (x : Scene) (s : Supervisor) (c : Cause) : Scene :=
  ⟨x.hook.fire.2, x.firings ++ [⟨c, x.hook.stop s, (x.hook.stop s).run⟩]⟩

def tasks (x : Scene) : List (Errand Bool) := x.firings.map (·.task)

/-- This firing has started the stop of the kernel. -/
def Started (x : Scene) (s : Supervisor) (i : Nat) : Prop := x.tasks[i]? = some s.stop

/-- A firing that does not stop the kernel has nothing to do, and does nothing. -/
def Settled (x : Scene) (s : Supervisor) : Prop :=
  ∀ f ∈ x.firings, f.task = s.stop ∨ f.task = pure false ∧ f.rest = .done (.ok false)

end Scene

/-- What can happen next. Questions can be answered with anything. -/
inductive Step (s : Supervisor) : Scene → Happening → Scene → Prop where
  | fires (x : Scene) (c : Cause) : Step s x (.fires c) (x.fired s c)
  | disarms (x : Scene) : Step s x .disarms ⟨x.hook.disarm, x.firings⟩
  | goesOn {x : Scene} {i : Nat} {f : Firing} {q : Ask} {next : q.Answer → Host (Except Failure Bool)}
      (here : x.firings[i]? = some f) (asks : f.rest = Dialogue.ask q next) (answer : q.Answer) :
      Step s x (.goesOn i) ⟨x.hook, x.firings.set i { f with rest := next answer }⟩

/-- What happens, one after another. -/
inductive Runs (s : Supervisor) : Scene → List Happening → Scene → Prop where
  | nil (x : Scene) : Runs s x [] x
  | cons {x y z : Scene} {h : Happening} {later : List Happening} (first : Step s x h y) (then_ : Runs s y later z) :
      Runs s x (h :: later) z

/-- The tasks of those who fire, by what happens to the hook. -/
def tasksOf (s : Supervisor) : Hook → List Happening → List (Errand Bool)
  | _, [] => []
  | hook, .fires _ :: later => hook.stop s :: tasksOf s hook.fire.2 later
  | hook, .disarms :: later => tasksOf s hook.disarm later
  | hook, .goesOn _ :: later => tasksOf s hook later

section

variable {s : Supervisor} {x y : Scene} {h : Happening} {happenings before after : List Happening}

/-! ### A step -/

theorem tasks_set {i : Nat} {f : Firing} (here : x.firings[i]? = some f) (rest : Host (Except Failure Bool)) :
    (x.firings.set i { f with rest }).map (·.task) = x.tasks := by
  refine List.ext_getElem? fun j => ?_
  rw [Scene.tasks, List.getElem?_map, List.getElem?_map, List.getElem?_set]
  split
  case isFalse => rfl
  case isTrue same =>
    subst same
    rw [here, if_pos (List.getElem?_eq_some_iff.mp here).1]
    rfl

theorem Step.tasks (step : Step s x h y) : y.tasks ++ tasksOf s y.hook happenings =
    x.tasks ++ tasksOf s x.hook (h :: happenings) := by
  cases step with
  | fires c => simp [Scene.fired, Scene.tasks, tasksOf]
  | disarms => rfl
  | goesOn here asks answer =>
    rw [tasksOf, Scene.tasks, tasks_set here]

/-- A stop begins with a question, so that it is told apart from nothing to do. -/
theorem stop_ne_done (s : Supervisor) : s.stop ≠ pure false := by
  intro same
  have asks : ∃ next, s.stop.run = Dialogue.ask .takeHeld next := ⟨_, rfl⟩
  obtain ⟨next, asks⟩ := asks
  exact nomatch asks.symm.trans (congrArg ExceptT.run same)

theorem stop_eq_or (hook : Hook) (s : Supervisor) : hook.stop s = s.stop ∨ hook.stop s = pure false := by
  rw [Hook.stop]
  split
  · exact .inl rfl
  · exact .inr rfl

theorem Step.settled (step : Step s x h y) (settled : x.Settled s) : y.Settled s := by
  cases step with
  | fires c =>
    intro f mem
    rcases List.mem_append.mp mem with earlier | new
    · exact settled f earlier
    · cases List.mem_singleton.mp new
      exact (stop_eq_or x.hook s).imp_right fun nothing => ⟨nothing, congrArg ExceptT.run nothing⟩
  | disarms => exact settled
  | goesOn here asks answer =>
    intro f mem
    rcases List.mem_or_eq_of_mem_set mem with other | rfl
    · exact settled f other
    · rcases settled _ (List.mem_of_getElem? here) with stops | ⟨-, done⟩
      · exact .inl stops
      · -- One that has nothing to do asks nothing.
        exact nomatch asks.symm.trans done

/-! ### A run -/

theorem Runs.tasks (run : Runs s x happenings y) : y.tasks = x.tasks ++ tasksOf s x.hook happenings := by
  induction run with
  | nil x => exact (List.append_nil _).symm
  | cons first _ ih => rw [ih, first.tasks]

theorem Runs.settled (run : Runs s x happenings y) (settled : x.Settled s) : y.Settled s := by
  induction run with
  | nil => exact settled
  | cons first _ ih => exact ih (first.settled settled)

theorem settled_begin (s : Supervisor) : Scene.begin.Settled s := fun _ mem => nomatch mem

/-! ### The order of the exchanges -/

/-- Once the hook has fired, nobody has anything to do. -/
theorem tasksOf_fired (s : Supervisor) (happenings : List Happening) :
    ∀ task ∈ tasksOf s ⟨true⟩ happenings, task = pure false := by
  induction happenings with
  | nil => exact fun _ mem => nomatch mem
  | cons h later ih =>
    cases h with
    | fires c =>
      intro task mem
      rcases List.mem_cons.mp mem with rfl | mem
      · rfl
      · exact ih task mem
    | disarms | goesOn i => exact ih

/-- Only the first who fires finds the hook armed. -/
theorem tasksOf_armed (s : Supervisor) (happenings : List Happening) {i : Nat}
    (stops : (tasksOf s armed happenings)[i]? = some s.stop) : i = 0 := by
  induction happenings with
  | nil => exact nomatch stops
  | cons h later ih =>
    cases h with
    | fires c =>
      cases i with
      | zero => rfl
      | succ i => exact absurd (tasksOf_fired s later _ (List.mem_of_getElem? stops)) (stop_ne_done s)
    | disarms => exact absurd (tasksOf_fired s later _ (List.mem_of_getElem? stops)) (stop_ne_done s)
    | goesOn _ => exact ih stops

/-- A hook that is disarmed before anybody fires it leaves nobody anything to do. -/
theorem tasksOf_of_disarmed (s : Supervisor) (after : List Happening) (not_fired : ∀ c, .fires c ∉ before) :
    ∀ task ∈ tasksOf s armed (before ++ .disarms :: after), task = pure false := by
  induction before with
  | nil => exact tasksOf_fired s after
  | cons h later ih =>
    have not_later (c : Cause) : .fires c ∉ later := fun mem => not_fired c (List.mem_cons_of_mem _ mem)
    cases h with
    | fires c => exact absurd List.mem_cons_self (not_fired c)
    | disarms => exact tasksOf_fired s _
    | goesOn _ => exact ih not_later

/-- A hook that is not disarmed has sent somebody to stop the kernel by the time that one has fired it. -/
theorem stop_mem_tasksOf (s : Supervisor) (c : Cause) (not_disarmed : .disarms ∉ before) :
    s.stop ∈ tasksOf s armed (before ++ [.fires c]) := by
  induction before with
  | nil => exact List.mem_cons_self
  | cons h later ih =>
    have not_later : .disarms ∉ later := fun mem => not_disarmed (List.mem_cons_of_mem _ mem)
    cases h with
    | fires c => exact List.mem_cons_self
    | disarms => exact absurd List.mem_cons_self not_disarmed
    | goesOn _ => exact ih not_later

end

end SnippetKernel.Hook
