import SnippetKernel.Program.Interpret
import SnippetKernel.Proofs.Kernel.Passive
import SnippetKernel.Proofs.Program.ShiftedCalls

/-! Code that never asks for the time. What such code does is the same behind anything that was left on the heap, and
at any time.

After a reset the kernel is a new one. A reset leaves no binding, so nothing that is still on the heap can be
reached; whatever was left there, and whenever the kernel was started, code that never asks for the time does the same
on it as on a kernel that has just been started. -/
namespace SnippetKernel

variable {left : Heap} {clock : Clock}

/-! ### Behind nothing -/

theorem Namespace.shift_nothing (n : Namespace Value) : n.shift .empty = n := by
  have same : shiftKeyword .empty = id := by
    funext (name, v)
    simp only [shiftKeyword, Value.shift_nothing, id]
  obtain ⟨entries⟩ := n
  simp only [shift, same, List.map_id]

theorem Heap.behind_nothing (h : Heap) : h.behind .empty = h := by
  obtain ⟨cells, codes⟩ := h
  simp only [behind, Cells.shift_nothing]
  simp [empty]

theorem Fault.shift_nothing (f : Fault) : f.shift .empty = f := by
  obtain ⟨e, _ | id, trace, line⟩ := f
  · rfl
  · simp [shift, Heap.empty, Cells.empty]

theorem Halt.shift_nothing (h : Halt) : h.shift .empty = h := by
  cases h with
  | fault f => exact congrArg fault f.shift_nothing
  | crash message => rfl
  | turns => rfl

theorem Machine.shift_nothing (m : Machine) (clock : Clock) : m.shift .empty clock = { m with clock } := by
  have frames : Frame.shift .empty = id := by
    funext frame
    simp only [Frame.shift, Namespace.shift_nothing, id]
  have handling : Handled.shift .empty = id := by
    funext handled
    simp [Handled.shift, Heap.empty, Cells.empty]
  simp only [shift, Namespace.shift_nothing, Heap.behind_nothing, frames, handling, List.map_id]

theorem Machine.shift_again (m : Machine) (other : Clock) :
    (m.shift .empty other).shift left clock = m.shift left clock := by
  rw [shift_nothing]
  rfl

/-! ### Code -/

/-- How a run of a program ended, behind what was left and at another time. -/
def Ran.shift (left : Heap) (clock : Clock) (r : Ran) : Ran :=
  ⟨r.halt.map (Halt.shift left), r.machine.shift left clock⟩

/-- The run came to a barred call. -/
def Halt.isTimed : Halt → Bool
  | .crash message => message == timedMessage
  | _ => false

theorem Halt.isTimed_timed : Halt.timed.isTimed = true := beq_self_eq_true timedMessage

namespace Machine

/-- The code calls a function that tells the time or lets it pass. -/
def asksTime (m : Machine) (limits : Limits) (source : String) : Bool :=
  match Source.parse source with
  | .error _ => false
  | .ok body =>
    match Run.barred limits body m with
    | .ok .. => false
    | .error halt _ => halt.isTimed

/-- Code that asks for no time does the same behind what was left, whatever the time is there. -/
theorem interpret_shift (m : Machine) (limits : Limits) {source : String}
    (untimed : m.asksTime limits source = false) :
    (m.shift left clock).interpret limits source = (m.interpret limits source).shift left clock := by
  unfold asksTime at untimed
  unfold interpret
  cases parsed : Source.parse source with
  | error e => rfl
  | ok body =>
    simp only [parsed] at untimed
    have there := Run.shifts_program left clock limits body m
    have here := Run.shifts_program .empty m.clock limits body m
    have same : m.shift .empty m.clock = m := m.shift_nothing m.clock
    rw [same] at here
    cases ended : Run.barred limits body m with
    | ok a n =>
      rw [ended] at there here
      simp only [perform, there, here, Ran.shift, Option.map_none, shift_again]
    | error halt n =>
      simp only [ended] at untimed
      have unbarred : ¬halt = .timed := by
        rintro rfl
        exact absurd untimed (by simp [Halt.isTimed_timed])
      rw [ended] at there here
      simp only [perform, there.resolve_left unbarred, here.resolve_left unbarred, Ran.shift, Option.map_some,
        Halt.shift_nothing, shift_again]

end Machine

theorem Describe.variable_shift (h : Cells) (name : String) (v : Value) :
    variable_ (h.shift left) name (v.shift left) = variable_ h name v := by
  simp only [variable_, preview, Value.typeName_shift, Value.sizeEstimate_shift, Value.reprWithin_shift]

theorem Namespace.visible_shift (n : Namespace Value) :
    (n.shift left).visible = n.visible.map (shiftKeyword left) := by
  simp only [visible, shift, List.filter_map]
  rfl

namespace Engine

/-- The engine behind what was left on a heap, at another time. -/
def behind (e : Engine) (left : Heap) (clock : Clock) : Engine :=
  { e with names := e.names.shift left, heap := e.heap.behind left, clock }

/-- The frame has code that asks for the time. -/
def asksTime (e : Engine) (frame : ByteArray) : Bool :=
  match Request.ofFrame frame with
  | .ok (.execute code) => e.machine.asksTime e.limits code
  | .ok (.inspect _) | .ok .reset | .ok .status | .error _ => false

/-- No code asks for the time while the frames are handled one after the other. -/
def isUntimed (e : Engine) : List (Vitals × ByteArray) → Bool
  | [] => true
  | (vitals, frame) :: rest => !e.asksTime frame && (e.handleFrame vitals frame).2.isUntimed rest

variable (e : Engine)

/-- What is answered does not show the numbers that exceptions carry. -/
theorem settle_shift (ran : Ran) :
    (e.behind left clock).settle (ran.shift left clock)
      = ((e.settle ran).1, (e.settle ran).2.behind left clock) := by
  have shown : (ran.shift left clock).fault?.map (·.render) = ran.fault?.map (·.render) := by
    obtain ⟨_ | halt, m⟩ := ran
    · rfl
    · cases halt <;> rfl
  simp only [settle, shown]
  rfl

theorem execute_behind {code : String} (untimed : e.machine.asksTime e.limits code = false) :
    (e.behind left clock).execute code = ((e.execute code).1, (e.execute code).2.behind left clock) := by
  rw [execute, execute, ← settle_shift, ← Machine.interpret_shift _ _ untimed]
  rfl

theorem inspect_behind (pattern : String) : (e.behind left clock).inspect pattern = e.inspect pattern := by
  have shown : ((e.behind left clock).names.visible.filter fun entry => Describe.isMatch entry.1 pattern).map
        (fun entry => Describe.variable_ (e.behind left clock).heap entry.1 entry.2)
      = (e.names.visible.filter fun entry => Describe.isMatch entry.1 pattern).map
        (fun entry => Describe.variable_ e.heap entry.1 entry.2) := by
    simp only [behind, Namespace.visible_shift, List.filter_map, List.map_map]
    apply List.map_congr_left
    intro entry _
    exact Describe.variable_shift e.heap.toCells entry.1 entry.2
  simp only [inspect, shown]

/-- After a reset nothing is behind anything. -/
theorem reset_behind : (e.behind left clock).reset = (e.reset.1, e.reset.2.behind .empty clock) := by
  have nothing : Heap.empty = Heap.empty.behind .empty := (Heap.behind_nothing _).symm
  simp only [reset, behind, sweep, Namespace.empty]
  rw [← nothing]
  rfl

theorem status_behind (vitals : Vitals) : (e.behind left clock).status vitals = e.status vitals := by
  simp only [status, behind, Namespace.visible_shift, List.length_map]

/-- A frame is answered in the same way behind what was left, and what is left is never seen later on. -/
theorem handleFrame_behind (left : Heap) (clock : Clock) (vitals : Vitals) {frame : ByteArray}
    (untimed : e.asksTime frame = false) :
    ∃ rest, (e.behind left clock).handleFrame vitals frame
      = ((e.handleFrame vitals frame).1, (e.handleFrame vitals frame).2.behind rest clock) := by
  unfold asksTime at untimed
  cases decoded : Request.ofFrame frame with
  | error failure => exact ⟨left, by simp only [handleFrame, decoded]⟩
  | ok request =>
    simp only [decoded] at untimed
    simp only [handleFrame, decoded]
    cases request with
    | execute code => exact ⟨left, by simp only [dispatch, e.execute_behind untimed]⟩
    | inspect pattern => exact ⟨left, by simp only [dispatch, inspect_behind]⟩
    | reset => exact ⟨.empty, by simp only [dispatch, reset_behind]⟩
    | status => exact ⟨left, by simp only [dispatch, status_behind]⟩

/-- No frame changes the limits, or where text goes between frames. -/
structure Configured (limits : Limits) (e : Engine) : Prop where
  limits : e.limits = limits
  streams : e.streams = .start

end Engine

namespace Listener

open Engine

/-- The same frames are answered in the same way behind what was left, at another time, and at other points of the
process's life. -/
theorem handleAll_behind (e : Engine) {frames others : List (Vitals × ByteArray)}
    (same : others.map (·.2) = frames.map (·.2)) (untimed : e.isUntimed frames) :
    (handleAll (e.behind left clock) others).1.map (·.withoutFigures)
      = (handleAll e frames).1.map (·.withoutFigures) := by
  induction frames generalizing e left others with
  | nil =>
    rw [List.map_nil, List.map_eq_nil_iff] at same
    rw [same]
    rfl
  | cons first rest ih =>
    obtain ⟨vitals, document⟩ := first
    obtain ⟨⟨other, frame⟩, more, rfl, sameFrame, following⟩ := List.map_eq_cons_iff.1 same
    obtain rfl : frame = document := sameFrame
    simp only [isUntimed, Bool.and_eq_true, Bool.not_eq_true'] at untimed
    obtain ⟨now, later⟩ := untimed
    obtain ⟨next, answered⟩ := e.handleFrame_behind left clock vitals now
    obtain ⟨sameAnswer, sameEngine⟩ := handleFrame_figures (e.behind left clock) other vitals frame
    rw [answered] at sameAnswer sameEngine
    rw [handleAll_cons, handleAll_cons, List.map_cons, List.map_cons, sameAnswer, sameEngine, ih _ following later]

theorem configured_handleFrame {limits : Limits} {e : Engine} (configured : Configured limits e) (vitals : Vitals)
    (frame : ByteArray) : Configured limits (e.handleFrame vitals frame).2 := by
  cases decoded : Request.ofFrame frame with
  | error failure =>
    rw [handleFrame_of_error decoded]
    exact configured
  | ok request =>
    rw [handleFrame_of_ok decoded]
    cases request with
    | execute code => exact ⟨configured.limits, configured.streams⟩
    | inspect pattern => exact configured
    | reset => exact ⟨configured.limits, configured.streams⟩
    | status => exact configured

theorem configured_handleAll {limits : Limits} {e : Engine} (configured : Configured limits e)
    (frames : List (Vitals × ByteArray)) : Configured limits (handleAll e frames).2 := by
  induction frames generalizing e with
  | nil => exact configured
  | cons frame rest ih =>
    rw [handleAll_cons]
    exact ih (configured_handleFrame configured frame.1 frame.2)

/-- A reset leaves what a start begins with. -/
theorem reset_eq_start {limits : Limits} {e : Engine} (configured : Configured limits e) :
    e.reset.2 = .start limits e.clock := by
  obtain ⟨names, heap, streams, _, clock⟩ := e
  obtain ⟨rfl, rfl⟩ := configured
  rfl

/-- Nothing is bound at the start, so what was left is all there is. -/
theorem start_behind (left : Heap) (limits : Limits) (time clock : Clock) :
    (Engine.start limits time).behind left clock = { Engine.start limits clock with heap := left } := by
  have all : Heap.empty.behind left = left := by simp [Heap.behind, Heap.empty, Cells.empty, Cells.shift]
  simp only [behind, Engine.start, all]
  rfl

/-- After any frames and a reset, frames whose code asks for no time are answered as a kernel answers them that has
just been started, apart from what a status says of the process; whatever the reset left on the heap. -/
theorem handleAll_afterReset (limits : Limits) (clock clockOfNew : Clock) (history : List (Vitals × ByteArray))
    (vitals : Vitals) {reset : ByteArray} (asked : Request.ofFrame reset = .ok .reset)
    {frames framesOfNew : List (Vitals × ByteArray)} (same : frames.map (·.2) = framesOfNew.map (·.2))
    (untimed : (Engine.start limits clockOfNew).isUntimed framesOfNew) :
    let old := (handleAll (.start limits clock) (history ++ [(vitals, reset)])).2
    let answers := (handleAll (.start limits clockOfNew) framesOfNew).1.map (·.withoutFigures)
    (handleAll old frames).1.map (·.withoutFigures) = answers ∧
      ∀ left, (handleAll { old with heap := left } frames).1.map (·.withoutFigures) = answers := by
  intro old answers
  have before := configured_handleAll (⟨rfl, rfl⟩ : Configured limits (.start limits clock)) history
  have begins : ∃ time, old = Engine.start limits time := by
    refine ⟨(handleAll (.start limits clock) history).2.clock, ?_⟩
    rw [← reset_eq_start before]
    have last : old = ((handleAll (.start limits clock) history).2.handleFrame vitals reset).2 :=
      congrArg Prod.snd (List.foldl_concat _ _ _ _)
    rw [last, handleFrame_of_ok asked]
    rfl
  obtain ⟨time, begins⟩ := begins
  have behind (left : Heap) : (handleAll { old with heap := left } frames).1.map (·.withoutFigures) = answers := by
    rw [begins, ← start_behind left limits clockOfNew]
    exact handleAll_behind _ same untimed
  exact ⟨behind old.heap, behind⟩

/-- A list was bound, and is still on the heap after the reset. -/
theorem handleAll_afterReset_list :
    let limits : Limits := ⟨100, 100⟩
    let history := [((⟨0, none⟩ : Vitals), (Request.execute "x = [1]").text.toUTF8)]
    let reset := Request.reset.text.toUTF8
    let program := (Request.execute "y = 1").text.toUTF8
    let inspect := (Request.inspect "").text.toUTF8
    let frames : List (Vitals × ByteArray) := [(⟨20, some 1⟩, program), (⟨30, some 1⟩, inspect)]
    let framesOfNew : List (Vitals × ByteArray) := [(⟨0, none⟩, program), (⟨10, none⟩, inspect)]
    let left : Heap := ⟨⟨#[#[.int 1]], #[], 0⟩, #[]⟩
    let old := (handleAll (.start limits ⟨⟨0⟩, ⟨0⟩⟩) (history ++ [(⟨10, none⟩, reset)])).2
    Request.ofFrame reset = .ok .reset ∧ frames.map (·.2) = framesOfNew.map (·.2) ∧
      (Engine.start limits ⟨⟨1⟩, ⟨0⟩⟩).isUntimed framesOfNew ∧
      (handleAll { old with heap := left } frames).1.map (·.withoutFigures)
        = (handleAll (.start limits ⟨⟨1⟩, ⟨0⟩⟩) framesOfNew).1.map (·.withoutFigures) := by
  intro limits history reset program inspect frames framesOfNew left old
  have asked : Request.ofFrame reset = .ok .reset := Request.ofFrame_bytes _
  have first : (Engine.start limits ⟨⟨1⟩, ⟨0⟩⟩).asksTime program = false := by
    rw [asksTime, Request.ofFrame_bytes]
    cbv
  have second (e : Engine) : e.asksTime inspect = false := by rw [asksTime, Request.ofFrame_bytes]
  have untimed : (Engine.start limits ⟨⟨1⟩, ⟨0⟩⟩).isUntimed framesOfNew := by
    simp only [framesOfNew, isUntimed, first, second, Bool.not_false, Bool.and_self]
  have same : frames.map (·.2) = framesOfNew.map (·.2) := rfl
  have answered := handleAll_afterReset limits ⟨⟨0⟩, ⟨0⟩⟩ ⟨⟨1⟩, ⟨0⟩⟩ history ⟨10, none⟩ asked same untimed
  exact ⟨asked, same, untimed, answered.2 left⟩

end Listener

end SnippetKernel
