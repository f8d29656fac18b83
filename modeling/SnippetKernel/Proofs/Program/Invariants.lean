import SnippetKernel.Program.Interpret
import SnippetKernel.Proofs.Program.ClosedStatements
import SnippetKernel.Proofs.Program.Guarantee

/-! What lasts through every program. A property of machines that none of the smallest changes takes away (a name is
bound or removed, work is done on the cells, code is put on the heap, calls and handlers begin and end) is still there
whenever a program ends, and however it ends. -/
namespace SnippetKernel

open Source

/-- None of the changes that a program can make takes the property away. -/
structure Machine.Lasting (J : Machine → Prop) : Prop where
  set {m : Machine} (name : String) (v : Value) : J m → J { m with names := m.names.set name v }
  remove {m : Machine} (name : String) : J m → J { m with names := m.names.remove name }
  frames {m : Machine} (frames : List Frame) : J m → J { m with frames }
  handling {m : Machine} (handling : List Handled) : J m → J { m with handling }
  worked {m : Machine} (cells : Cells) (writes : Array (Stream × String)) (clock : Clock) :
    J m → J { m with heap := ⟨cells, m.heap.codes⟩, writes, clock }
  newCode {m : Machine} (code : Code) : J m → J { m with heap := { m.heap with codes := m.heap.codes.push code } }

variable {α : Type} {good : α → Prop} {J : Machine → Prop}

namespace Machine.Lasting

variable (lasting : Machine.Lasting J) {m : Machine}

include lasting

theorem bind (name : String) (v : Value) (here : J m) : J (m.bind name v) := by
  unfold Machine.bind
  split
  · split
    · exact lasting.set name v here
    · exact lasting.frames _ here
  · exact lasting.set name v here

theorem unbind (name : String) (here : J m) : J (m.unbind name) := by
  unfold Machine.unbind
  split
  · split
    · exact lasting.remove name here
    · exact lasting.frames _ here
  · exact lasting.remove name here

theorem rebind (saved : List (String × Option Value)) (here : J m) : J (Run.rebind m saved) := by
  induction saved generalizing m with
  | nil => exact here
  | cons entry rest ih =>
    obtain ⟨name, _ | v⟩ := entry
    · exact ih (lasting.unbind name here)
    · exact ih (lasting.bind name v here)

end Machine.Lasting

/-- The property is there at the beginning and at the end. -/
def lasting (J : Machine → Prop) : Guarantee where
  inv := J
  step _ _ := True
  lost := J
  refl _ := trivial
  trans _ _ := trivial
  lost_of_inv := id

namespace Run

variable {run : Run α}

theorem lasting_change {f : Machine → Machine} (changed : ∀ m, J m → J (f m)) :
    (lasting J).Meets (fun _ => True) (modify f) := .change fun m here => ⟨changed m here, trivial⟩

theorem lasting_enclosed (inner : (lasting J).Meets good run) {enter : Machine → Machine}
    (leave : Machine → Machine → Machine) (entered : ∀ m, J m → J (enter m)) (left : ∀ m n, J n → J (leave m n))
    (m : Machine) (here : J m) : (lasting J).Ends good m (run.ensure (leave m) (enter m)) :=
  Guarantee.Meets.enclosed enter leave inner entered (fun m n _ here _ => ⟨left m n here, trivial⟩)
    (fun _ lost => lost) m here

variable (lasts : Machine.Lasting J)

include lasts

theorem lasting_ofWork {work : Work α} (stays : Work.Stays .whole good work) :
    (lasting J).Meets good (Run.ofWork work) :=
  .ofWork stays (fun _ _ => Cells.within_whole _) fun _ _ _ _ here _ => ⟨lasts.worked _ _ _ here, trivial⟩

theorem closed_lasting : Closed .whole True fun _ => (lasting J).Meets where
  done _ := .done
  halt _ := .halt
  andThen := .andThen
  ofWork _ := lasting_ofWork lasts
  lookup _ := .lookup (fun _ _ _ v _ => v.within_whole) fun _ => lasting_ofWork lasts
  bind _ _ := lasting_change fun m => lasts.bind _ _
  keeping _ _ _ names _ inner := by
    apply Guarantee.Meets.look
    intro m here
    let saved (m : Machine) := names.map fun name => (name, m.binding? name)
    exact lasting_enclosed inner (fun m n => Run.rebind n (saved m)) (fun _ => id) (fun _ _ => lasts.rebind _) m here
  unbind name := by
    apply Guarantee.Meets.look
    intro m here
    cases m.binding? name with
    | none => exact lasting_ofWork lasts (.raise _ _) m here
    | some _ => exact lasting_change (fun m => lasts.unbind name) m here
  unbinding name inner := lasting_enclosed inner _ (fun _ => id) fun _ _ => lasts.unbind name
  attempt := .attempt
  tracing := .tracing
  whileHandling _ inner := lasting_enclosed inner _ (fun _ => lasts.handling _) fun _ _ => lasts.handling _
  reraise := .reraise fun _ => lasting_ofWork lasts
  newCode _ m here := ⟨trivial, lasts.newCode _ here, trivial⟩
  declareGlobal names _ := by
    apply lasting_change
    intro m here
    split
    · exact lasts.frames _ here
    · exact here

end Run

theorem Call.closed_lasting (lasts : Machine.Lasting J) (turns room : Nat) :
    Run.Closed.Functions .whole True (fun _ => (lasting J).Meets) (function turns room) := by
  have closed := Run.closed_lasting lasts
  induction room with
  | zero =>
    apply Run.Closed.Functions.mk closed
    intro p ref defaults args keywords _ _ _ _
    exact Run.lasting_ofWork lasts (.raise _ _)
  | succ room ih =>
    have calls := closed_value ih
    apply Run.Closed.Functions.mk closed
    intro p ref defaults args keywords _ defaults_within inside named
    apply Guarantee.Meets.look
    intro m here
    apply closed_entered closed (p := p) defaults_within inside named _ m here
    intro locals _
    exact Run.lasting_enclosed (Exec.closed_block calls turns _ fun _ => trivial) _ (fun _ => lasts.frames _)
      fun _ _ => lasts.frames _

/-- Whatever programs run, the property lasts. -/
theorem Run.program_lasting (lasts : Machine.Lasting J) (limits : Limits) (body : List Stmt) {m : Machine}
    (here : J m) : J ((Run.program limits body).leaves m) := by
  have calls := Call.closed_value (Call.closed_lasting lasts limits.turns limits.depth)
  have meets : (lasting J).Meets (fun _ => True) (Run.program limits body) :=
    .andThen (Exec.closed_block calls limits.turns body fun _ => trivial) fun _ _ => .done trivial
  exact meets.lost_leaves here

theorem Machine.machine_perform (m : Machine) (limits : Limits) (body : List Stmt) :
    (m.perform limits body).machine = (Run.program limits body).leaves m := by
  unfold perform Run.leaves
  cases Run.program limits body m <;> rfl

theorem Machine.interpret_lasting (lasts : Machine.Lasting J) (limits : Limits) (source : String) {m : Machine}
    (here : J m) : J (m.interpret limits source).machine := by
  unfold interpret
  cases parse source with
  | error e => exact here
  | ok body =>
    simp only [machine_perform]
    exact Run.program_lasting lasts limits body here

end SnippetKernel
