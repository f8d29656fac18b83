import SnippetKernel.Proofs.Program.Closure
import SnippetKernel.Proofs.Program.Functions

/-! What pieces of a program keep and how they change a machine, however they end: with a result, with an exception,
or because the interpreter gave up. Such guarantees are closed, if the smallest pieces meet them. -/
namespace SnippetKernel

/-- What a piece of a program is expected to do to the machine. -/
structure Guarantee where
  /-- Holds of the machine at the beginning, and at the end. -/
  inv : Machine → Prop
  /-- Relates the machine at the end to that at the beginning. -/
  step : Machine → Machine → Prop
  /-- Holds of the machine when the interpreter gives up. -/
  lost : Machine → Prop
  refl (m : Machine) : step m m
  trans {l m n : Machine} : step l m → step m n → step l n
  lost_of_inv {m : Machine} : inv m → lost m

/-- The machine that a piece of a program leaves behind. -/
def Run.leaves {α : Type} (run : Run α) (m : Machine) : Machine :=
  match run m with
  | .ok _ n | .error _ n => n

namespace Guarantee

variable {α β : Type} {R : Region} {good : α → Prop} {best : β → Prop} {run : Run α} {next : α → Run β}

/-- The piece that began in `m` ended as expected, with a good result if it gave one. -/
def Ends (G : Guarantee) (good : α → Prop) (m : Machine) : EStateM.Result Halt Machine α → Prop
  | .ok a n => good a ∧ G.inv n ∧ G.step m n
  | .error (.fault _) n => G.inv n ∧ G.step m n
  | .error _ n => G.lost n

variable {G H : Guarantee}

theorem Ends.after {l m : Machine} (first : G.step l m) {r : EStateM.Result Halt Machine α}
    (second : G.Ends good m r) : G.Ends good l r := by
  match r, second with
  | .ok _ _, ⟨here, inv, step⟩ => exact ⟨here, inv, G.trans first step⟩
  | .error (.fault _) _, ⟨inv, step⟩ => exact ⟨inv, G.trans first step⟩
  | .error (.crash _) _, lost => exact lost
  | .error .turns _, lost => exact lost

/-- Wherever the piece begins, it ends as expected. -/
def Meets (G : Guarantee) (good : α → Prop) (run : Run α) : Prop := ∀ m, G.inv m → G.Ends good m (run m)

namespace Meets

theorem done {a : α} (h : good a) : G.Meets good (pure a) := fun m inv => ⟨h, inv, G.refl m⟩

theorem halt (h : Halt) : G.Meets good (throw h) := by
  intro m inv
  cases h with
  | fault => exact ⟨inv, G.refl m⟩
  | crash => exact G.lost_of_inv inv
  | turns => exact G.lost_of_inv inv

theorem andThen (first : G.Meets good run) (second : ∀ a, good a → G.Meets best (next a)) :
    G.Meets best (run >>= next) := by
  intro m inv
  have ends := first m inv
  change G.Ends best m (EStateM.bind run next m)
  unfold EStateM.bind
  cases ended : run m with
  | ok a n =>
    rw [ended] at ends
    exact .after ends.2.2 (second a ends.1 n ends.2.1)
  | error h n =>
    rw [ended] at ends
    cases h <;> exact ends

theorem lost_leaves (meets : G.Meets good run) {m : Machine} (inv : G.inv m) : G.lost (run.leaves m) := by
  have ends := meets m inv
  unfold Run.leaves
  cases ended : run m with
  | ok a n =>
    rw [ended] at ends
    exact G.lost_of_inv ends.2.1
  | error h n =>
    rw [ended] at ends
    cases h with
    | fault => exact G.lost_of_inv ends.1
    | crash => exact ends
    | turns => exact ends

/-- A piece that looks at the machine. -/
theorem look {next : Machine → Run β} (second : ∀ m, G.inv m → G.Ends best m (next m m)) :
    G.Meets best (get >>= next) := second

theorem change {f : Machine → Machine} (changed : ∀ m, G.inv m → G.inv (f m) ∧ G.step m (f m)) :
    G.Meets (fun _ => True) (modify f) := fun m inv => ⟨trivial, changed m inv⟩

theorem attempt (first : G.Meets good run) : G.Meets (fun outcome => ∀ a, outcome = .ok a → good a) run.attempt := by
  intro m inv
  have ends := first m inv
  unfold Run.attempt
  cases ended : run m with
  | ok a n =>
    rw [ended] at ends
    refine ⟨?_, ends.2⟩
    rintro _ ⟨⟩
    exact ends.1
  | error h n =>
    rw [ended] at ends
    cases h with
    | fault => exact ⟨nofun, ends⟩
    | crash => exact ends
    | turns => exact ends

theorem tracing (line : Nat) (first : G.Meets good run) : G.Meets good (Run.tracing line run) := by
  intro m inv
  have ends := first m inv
  unfold Run.tracing
  cases ended : run m with
  | ok a n =>
    rw [ended] at ends
    exact ends
  | error h n =>
    rw [ended] at ends
    cases h <;> exact ends

/-- Work on the cells, if the guarantee allows what such work can do. -/
theorem ofWork {work : Work α} (stays : Work.Stays R good work) (cells : ∀ m, G.inv m → m.heap.toCells.Within R)
    (worked : ∀ (m : Machine) (cells : Cells) (writes : Array (Stream × String)) (clock : Clock), G.inv m →
      cells.Within R →
      let n := { m with heap := ⟨cells, m.heap.codes⟩, writes := m.writes ++ writes, clock := clock }
      G.inv n ∧ G.step m n) : G.Meets good (Run.ofWork work) := by
  intro m inv
  obtain ⟨names, ⟨before, codes⟩, frames, handling, written, clock⟩ := m
  have ends := stays ⟨before, clock, #[]⟩ (cells _ inv)
  have same := worked ⟨names, ⟨before, codes⟩, frames, handling, written, clock⟩
  unfold Run.ofWork
  cases ended : work ⟨before, clock, #[]⟩ with
  | ok a r =>
    rw [ended] at ends
    simp only [ended]
    exact ⟨ends.1, same r.cells r.writes r.clock inv ends.2⟩
  | error refusal r =>
    rw [ended] at ends
    have after := same r.cells r.writes r.clock inv ends
    cases refusal with
    | exception e =>
      simp only [ended]
      exact after
    | crash message =>
      simp only [ended]
      exact G.lost_of_inv after.1

/-- A piece that runs in a changed machine, where other things are expected of it; what was changed for it is
changed back, however it ends. -/
theorem enclosed (enter : Machine → Machine) (leave : Machine → Machine → Machine) (inner : H.Meets good run)
    (enters : ∀ m, G.inv m → H.inv (enter m))
    (leaves : ∀ m n, G.inv m → H.inv n → H.step (enter m) n → G.inv (leave m n) ∧ G.step m (leave m n))
    (lost : ∀ n, H.lost n → G.lost n) (m : Machine) (inv : G.inv m) :
    G.Ends good m (run.ensure (leave m) (enter m)) := by
  have ends := inner (enter m) (enters m inv)
  unfold Run.ensure
  cases ended : run (enter m) with
  | ok a n =>
    rw [ended] at ends
    exact ⟨ends.1, leaves m n inv ends.2.1 ends.2.2⟩
  | error h n =>
    rw [ended] at ends
    cases h with
    | fault => exact leaves m n inv ends.1 ends.2
    | crash => exact lost n ends
    | turns => exact lost n ends

/-- What a name means is within the region, if all that is bound is. -/
theorem lookup (bound : ∀ m, G.inv m → ∀ name v, m.lookup? name = some v → v.Within R)
    (stays : ∀ (work : Work Value), Work.Stays R (Value.Within R) work → G.Meets (Value.Within R) (Run.ofWork work))
    (name : String) : G.Meets (Value.Within R) (Run.lookup name) := by
  apply look
  intro m inv
  cases found : (m.lookup? name).or (Builtins.global? name) with
  | none =>
    exact stays _ (.raise _ _) m inv
  | some v =>
    have within : v.Within R := by
      obtain here | ⟨-, here⟩ := Option.or_eq_some_iff.1 found
      · exact bound m inv name v here
      · exact Builtins.within_global? here
    exact done within m inv

theorem reraise (stays : ∀ (work : Work Flow), Work.Stays R (Flow.Within R) work →
    G.Meets (Flow.Within R) (Run.ofWork work)) : G.Meets (Flow.Within R) Run.reraise := by
  apply look
  intro m inv
  cases m.handling with
  | nil => exact stays _ (.raise _ _) m inv
  | cons handled rest => exact halt _ m inv

end Meets

end Guarantee

end SnippetKernel
