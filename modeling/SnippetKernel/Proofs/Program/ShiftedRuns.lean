import SnippetKernel.Program.Exec
import SnippetKernel.Proofs.Program.ShiftedLibrary

/-! Programs behind what was left on the heap, and at another time. A run that never asks for the time, and never
lets it pass, goes on in the same way there: it binds the same names to the same values, writes the same, and ends
with the same exception. Each way of putting pieces of a program together keeps that. -/
namespace SnippetKernel

/-- The heap behind what was left. -/
def Heap.behind (h left : Heap) : Heap := { toCells := h.toCells.shift left, codes := left.codes ++ h.codes }

theorem Heap.code_behind (h left : Heap) (ref : Nat) : (h.behind left).code (left.codes.size + ref) = h.code ref := by
  simp only [code, behind, Array.getElem?_append_right (Nat.le_add_right _ _), Nat.add_sub_cancel_left]

def Namespace.shift (left : Heap) (n : Namespace Value) : Namespace Value := ⟨n.entries.map (shiftKeyword left)⟩

def Frame.shift (left : Heap) (frame : Frame) : Frame := { frame with locals := frame.locals.shift left }

def Handled.shift (left : Heap) (handled : Handled) : Handled := { handled with id := left.fresh + handled.id }

def Fault.shift (left : Heap) (f : Fault) : Fault := { f with id := f.id.map (left.fresh + ·) }

def Halt.shift (left : Heap) : Halt → Halt
  | .fault f => .fault (f.shift left)
  | .crash message => .crash message
  | .turns => .turns

def Flow.shift (left : Heap) : Flow → Flow
  | .ret v => .ret (v.shift left)
  | .normal => .normal
  | .stop => .stop
  | .next => .next

/-- The machine behind what was left, at another time. -/
def Machine.shift (left : Heap) (clock : Clock) (m : Machine) : Machine :=
  { names := m.names.shift left
    heap := m.heap.behind left
    frames := m.frames.map (Frame.shift left)
    handling := m.handling.map (Handled.shift left)
    writes := m.writes
    clock }

/-! ### Names -/

namespace Namespace

variable {left : Heap}

@[simp] theorem find?_shift (n : Namespace Value) (name : String) :
    (n.shift left).find? name = (n.find? name).map (Value.shift left) := Arguments.lookup_shift name n.entries

theorem set_shift (n : Namespace Value) (name : String) (v : Value) :
    (n.shift left).set name (v.shift left) = (n.set name v).shift left := by
  obtain ⟨entries⟩ := n
  simp only [set, shift, mk.injEq]
  induction entries with
  | nil => rfl
  | cons entry rest ih =>
    obtain ⟨other, old⟩ := entry
    simp only [List.map_cons, shiftKeyword, setIn, ih]
    split <;> rfl

theorem remove_shift (n : Namespace Value) (name : String) :
    (n.shift left).remove name = (n.remove name).shift left := by
  simp only [remove, shift, List.filter_map]
  rfl

end Namespace

namespace Machine

variable {left : Heap} {clock : Clock} (m : Machine)

@[simp] theorem depth_shift : (m.shift left clock).depth = m.depth := List.length_map _

@[simp] theorem scope_shift : (m.shift left clock).scope = m.scope := by
  obtain ⟨names, heap, _ | ⟨frame, outer⟩, handling, writes, time⟩ := m <;> rfl

theorem localFrame?_shift (name : String) :
    (m.shift left clock).localFrame? name = (m.localFrame? name).map (Frame.shift left) := by
  obtain ⟨names, heap, _ | ⟨frame, outer⟩, handling, writes, time⟩ := m
  · rfl
  · simp only [localFrame?, shift, List.map_cons, Frame.shift]
    split <;> rfl

theorem bind_shift (name : String) (v : Value) :
    (m.shift left clock).bind name (v.shift left) = (m.bind name v).shift left clock := by
  obtain ⟨names, heap, _ | ⟨frame, outer⟩, handling, writes, time⟩ := m
  · simp only [bind, shift, List.map_nil, Namespace.set_shift]
  · simp only [bind, shift, List.map_cons, Frame.shift, Namespace.set_shift]
    split <;> rfl

theorem binding?_shift (name : String) :
    (m.shift left clock).binding? name = (m.binding? name).map (Value.shift left) := by
  unfold binding?
  rw [localFrame?_shift]
  cases m.localFrame? name with
  | none => exact m.names.find?_shift name
  | some frame => exact frame.locals.find?_shift name

theorem unbind_shift (name : String) : (m.shift left clock).unbind name = (m.unbind name).shift left clock := by
  obtain ⟨names, heap, _ | ⟨frame, outer⟩, handling, writes, time⟩ := m
  · simp only [unbind, shift, List.map_nil, Namespace.remove_shift]
  · simp only [unbind, shift, List.map_cons, Frame.shift, Namespace.remove_shift]
    split <;> rfl

theorem lookup?_shift (name : String) :
    (m.shift left clock).lookup? name = (m.lookup? name).map (Value.shift left) := by
  unfold lookup?
  rw [localFrame?_shift]
  have global : (m.shift left clock).names.find? name = (m.names.find? name).map (Value.shift left) :=
    m.names.find?_shift name
  rw [global]
  cases m.localFrame? name with
  | none => rfl
  | some frame =>
    simp only [Option.map_some, Option.bind_some, Frame.shift, Namespace.find?_shift]
    cases frame.locals.find? name <;> rfl

/-- A former binding of a name, behind what was left. -/
def shiftSaved (left : Heap) (saved : String × Option Value) : String × Option Value :=
  (saved.1, saved.2.map (Value.shift left))

theorem rebind_shift (saved : List (String × Option Value)) :
    Run.rebind (m.shift left clock) (saved.map (shiftSaved left)) = (Run.rebind m saved).shift left clock := by
  induction saved generalizing m with
  | nil => rfl
  | cons binding rest ih =>
    obtain ⟨name, _ | v⟩ := binding
    · simp only [List.map_cons, shiftSaved, Option.map_none, Run.rebind, unbind_shift, ih]
    · simp only [List.map_cons, shiftSaved, Option.map_some, Run.rebind, bind_shift, ih]

end Machine

theorem Fault.recordFrame_shift (left : Heap) (f : Fault) (depth line : Nat) (scope : String) :
    (f.shift left).recordFrame depth line scope = (f.recordFrame depth line scope).shift left := by
  by_cases noted : f.syntaxLine.isSome ∨ (f.trace.getLast?.map (·.depth)) = some depth
  · rw [recordFrame, recordFrame, if_pos noted]
    exact if_pos noted
  · rw [recordFrame, recordFrame, if_neg noted]
    exact if_neg noted

/-! ### Runs -/

def Halt.timedMessage : String := "the time was asked for"

/-- How a run ends at a call that tells the time or lets it pass, where such calls are barred. -/
def Halt.timed : Halt := .crash timedMessage

namespace Run

variable {α β γ δ : Type} {left : Heap} {clock : Clock} {result : α → β} {last : γ → δ}

/-- Behind what was left, and at another time, `copy` does what `run` does, unless that ends at a barred call. -/
def Shifts (left : Heap) (clock : Clock) (result : α → β) (run : Run α) (copy : Run β) : Prop :=
  Follows (Machine.shift left clock) (Halt.shift left) (· = .timed) result run copy

/-- What an attempt gives, behind what was left. -/
def shiftAttempt (left : Heap) (result : α → β) : Except Fault α → Except Fault β
  | .ok a => .ok (result a)
  | .error f => .error (f.shift left)

namespace Shifts

variable {run : Run α} {copy : Run β}

theorem done {a : α} {b : β} (same : b = result a) : Shifts left clock result (pure a) (pure b) := Follows.done same

theorem halt {h h' : Halt} (same : h' = h.shift left) : Shifts left clock result (throw h) (throw h') :=
  Follows.fail same

theorem andThen {next : α → Run γ} {after : β → Run δ} (first : Shifts left clock result run copy)
    (second : ∀ a, Shifts left clock last (next a) (after (result a))) :
    Shifts left clock last (run >>= next) (copy >>= after) := Follows.andThen first second

/-- A piece whose result stays as it is. -/
theorem before {run copy : Run α} {next : α → Run γ} {after : α → Run δ}
    (first : Shifts left clock id run copy) (second : ∀ a, Shifts left clock last (next a) (after a)) :
    Shifts left clock last (run >>= next) (copy >>= after) := Follows.before first second

theorem map {f : α → γ} {g : β → δ} (first : Shifts left clock result run copy)
    (same : ∀ a, g (result a) = last (f a)) : Shifts left clock last (f <$> run) (g <$> copy) :=
  Follows.map first same

/-- A piece that looks at the machine. -/
theorem look {next : Machine → Run γ} {after : Machine → Run δ}
    (second : ∀ m : Machine, Shifts left clock last (next m) (after (m.shift left clock))) :
    Shifts left clock last (get >>= next) (get >>= after) := Follows.look second

theorem change {f g : Machine → Machine} (same : ∀ m : Machine, g (m.shift left clock) = (f m).shift left clock) :
    Shifts left clock id (modify f) (modify g) := Follows.change same

theorem ofWork {work : Work α} {copy : Work β} (inner : Work.Shifts left clock result work copy) :
    Shifts left clock result (Run.ofWork work) (Run.ofWork copy) := by
  intro m
  obtain ⟨names, ⟨cells, codes⟩, frames, handling, writes, time⟩ := m
  have ends := inner ⟨cells, time, #[]⟩
  simp only [Reach.shift] at ends
  simp only [Run.ofWork, Machine.shift, Heap.behind]
  cases ended : work ⟨cells, time, #[]⟩ with
  | ok a r =>
    rw [ended] at ends
    simp only [ends]
  | error refusal r =>
    rw [ended] at ends
    simp only [ends.resolve_left not_false]
    cases refusal with
    | exception e => exact .inr rfl
    | crash message => exact .inr rfl

/-- A piece that goes on after a result and after an exception; anything else ends it. -/
theorem resume {next : α → Run γ} {after : β → Run δ} {caught : Fault → Run γ} {caught' : Fault → Run δ}
    (first : Shifts left clock result run copy) (second : ∀ a, Shifts left clock last (next a) (after (result a)))
    (third : ∀ f, Shifts left clock last (caught f) (caught' (f.shift left))) :
    Shifts left clock last
      (fun m => match run m with
        | .ok a n => next a n
        | .error (.fault f) n => caught f n
        | .error halt n => .error halt n)
      (fun m => match copy m with
        | .ok b n => after b n
        | .error (.fault f) n => caught' f n
        | .error halt n => .error halt n) := by
  intro m
  have ends := first m
  beta_reduce
  cases ended : run m with
  | ok a n =>
    rw [ended] at ends
    simp only [ends]
    exact second a n
  | error h n =>
    rw [ended] at ends
    cases h with
    | fault f =>
      simp only [ends.resolve_left nofun]
      exact third f n
    | crash message =>
      obtain stop | ends := ends
      · exact .inl stop
      · exact .inr (by rw [ends]; rfl)
    | turns => exact .inr (by rw [ends.resolve_left nofun]; rfl)

theorem ensure {after last : Machine → Machine} (first : Shifts left clock result run copy)
    (same : ∀ m : Machine, last (m.shift left clock) = (after m).shift left clock) :
    Shifts left clock result (run.ensure after) (copy.ensure last) := by
  apply first.resume
  · exact fun a m => congrArg (EStateM.Result.ok (result a)) (same m)
  · exact fun f m => .inr (congrArg (EStateM.Result.error (Halt.fault (f.shift left))) (same m))

theorem attempt (first : Shifts left clock result run copy) :
    Shifts left clock (shiftAttempt left result) run.attempt copy.attempt := by
  apply first.resume
  · exact fun a m => rfl
  · exact fun f m => rfl

theorem ofAttempt (outcome : Except Fault α) :
    Shifts left clock result (Run.ofAttempt outcome) (Run.ofAttempt (shiftAttempt left result outcome)) := by
  cases outcome with
  | ok a => exact done rfl
  | error f => exact halt rfl

theorem tracing (line : Nat) (first : Shifts left clock result run copy) :
    Shifts left clock result (Run.tracing line run) (Run.tracing line copy) := by
  apply first.resume
  · exact fun a m => rfl
  · intro f m
    have noted : (f.shift left).recordFrame (m.shift left clock).depth line (m.shift left clock).scope
        = (f.recordFrame m.depth line m.scope).shift left := by
      rw [Machine.depth_shift, Machine.scope_shift]
      exact f.recordFrame_shift left m.depth line m.scope
    exact .inr (congrArg (fun f => EStateM.Result.error (Halt.fault f) (m.shift left clock)) noted)

/-! Loops. -/

theorem whileTrue {cond cond' : Run Bool} {body body' : Run Flow} (conds : Shifts left clock id cond cond')
    (bodies : Shifts left clock (Flow.shift left) body body') (turns : Nat) :
    Shifts left clock (Flow.shift left) (Run.whileTrue cond body turns) (Run.whileTrue cond' body' turns) := by
  induction turns with
  | zero => exact halt rfl
  | succ turns ih =>
    apply conds.before
    intro holds
    cases holds with
    | false => exact done rfl
    | true =>
      apply bodies.andThen
      intro flow
      cases flow with
      | normal => exact ih
      | stop => exact done rfl
      | next => exact ih
      | ret v => exact done rfl

theorem forEach {f : α → β} {body : α → Run Flow} {body' : β → Run Flow}
    (bodies : ∀ a, Shifts left clock (Flow.shift left) (body a) (body' (f a))) (items : List α) :
    Shifts left clock (Flow.shift left) (Run.forEach body items) (Run.forEach body' (items.map f)) := by
  induction items with
  | nil => exact done rfl
  | cons item rest ih =>
    apply (bodies item).andThen
    intro flow
    cases flow with
    | normal => exact ih
    | stop => exact done rfl
    | next => exact ih
    | ret v => exact done rfl

theorem forRange {body body' : Value → Run Flow}
    (bodies : ∀ v, Shifts left clock (Flow.shift left) (body v) (body' (v.shift left))) (r : Range) (i count : Nat) :
    Shifts left clock (Flow.shift left) (Run.forRange body r i count) (Run.forRange body' r i count) := by
  induction count generalizing i with
  | zero => exact done rfl
  | succ count ih =>
    unfold Run.forRange
    cases r.get? i with
    | none => exact done rfl
    | some n =>
      apply (bodies (.int n)).andThen
      intro flow
      cases flow with
      | normal => exact ih _
      | stop => exact done rfl
      | next => exact ih _
      | ret v => exact done rfl

theorem collect {element element' : Value → Run (Option Value)}
    (elements : ∀ v, Shifts left clock (Option.map (Value.shift left)) (element v) (element' (v.shift left)))
    (found : Array Value) (items : List Value) :
    Shifts left clock (Array.map (Value.shift left)) (Run.collect element found items)
      (Run.collect element' (found.map (Value.shift left)) (items.map (Value.shift left))) := by
  induction items generalizing found with
  | nil => exact done rfl
  | cons item rest ih =>
    apply (elements item).andThen
    intro v
    cases v with
    | none => exact ih found
    | some v =>
      have more := ih (found.push v)
      rw [Array.map_push] at more
      exact more

theorem collectAll {element element' : Value → Run (Option Value)}
    (elements : ∀ v, Shifts left clock (Option.map (Value.shift left)) (element v) (element' (v.shift left)))
    (items : List Value) :
    Shifts left clock (Array.map (Value.shift left)) (Run.collect element #[] items)
      (Run.collect element' #[] (items.map (Value.shift left))) := by
  have gathered := collect elements #[] items
  rw [Array.map_empty] at gathered
  exact gathered

/-! Frames, handlers and names. -/

theorem inFrame (frame : Frame) (first : Shifts left clock result run copy) :
    Shifts left clock result (Run.inFrame frame run) (Run.inFrame (frame.shift left) copy) := by
  have entered : Shifts left clock id (modify fun m : Machine => { m with frames := frame :: m.frames })
      (modify fun m : Machine => { m with frames := frame.shift left :: m.frames }) := change fun m => rfl
  apply entered.before
  intro _
  apply first.ensure
  intro m
  simp only [Machine.shift, List.map_tail]

theorem whileHandling (handled : Handled) (first : Shifts left clock result run copy) :
    Shifts left clock result (Run.whileHandling handled run) (Run.whileHandling (handled.shift left) copy) := by
  have entered : Shifts left clock id (modify fun m : Machine => { m with handling := handled :: m.handling })
      (modify fun m : Machine => { m with handling := handled.shift left :: m.handling }) := change fun m => rfl
  apply entered.before
  intro _
  apply first.ensure
  intro m
  simp only [Machine.shift, List.map_tail]

theorem keeping (names : List String) (first : Shifts left clock result run copy) :
    Shifts left clock result (Run.keeping names run) (Run.keeping names copy) := by
  apply look
  intro m
  apply first.ensure
  intro n
  have saved : (names.map fun name => (name, (m.shift left clock).binding? name))
      = (names.map fun name => (name, m.binding? name)).map (Machine.shiftSaved left) := by
    simp only [Machine.binding?_shift, List.map_map]
    rfl
  rw [saved]
  exact n.rebind_shift _

theorem bind (name : String) (v : Value) :
    Shifts left clock id (Run.bind name v) (Run.bind name (v.shift left)) := change fun m => m.bind_shift name v

theorem lookup (name : String) : Shifts left clock (Value.shift left) (Run.lookup name) (Run.lookup name) := by
  apply look
  intro m
  have found : ((m.shift left clock).lookup? name).or (Builtins.global? name)
      = ((m.lookup? name).or (Builtins.global? name)).map (Value.shift left) := by
    rw [Machine.lookup?_shift]
    cases m.lookup? name with
    | some v => rfl
    | none => exact (Builtins.global?_shift name).symm
  rw [found]
  cases (m.lookup? name).or (Builtins.global? name) with
  | some v => exact done rfl
  | none => exact ofWork (.raise _ _)

theorem unbind (name : String) : Shifts left clock id (Run.unbind name) (Run.unbind name) := by
  apply look
  intro m
  rw [Machine.binding?_shift]
  cases m.binding? name with
  | some v => exact change fun m => m.unbind_shift name
  | none => exact ofWork (.raise _ _)

end Shifts

end Run

end SnippetKernel
