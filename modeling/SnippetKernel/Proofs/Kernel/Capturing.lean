import SnippetKernel.Kernel.Engine

/-! Captures inside one another. Opening a capture replaces the buffers and closing it puts back the ones before, so
no stack of levels is kept anywhere; still each level has a text of its own, which is what was written there since its
capture was opened or since it was last taken. -/
namespace SnippetKernel

namespace Capturing

/-- What can be done while text is captured. `enter` opens a capture inside those that are open, and `leave` closes
the innermost one. -/
inductive Event where
  | write (stream : Stream) (text : String)
  | take
  | enter
  | leave

/-- Where text goes, the captures that are open, the innermost of them first, and what was taken so far. -/
structure State where
  streams : Streams
  captures : List Capture
  taken : List Captured

namespace State

def start : State := ⟨.start, [], []⟩

/-- The state after an event. Something is taken or closed only where a capture is open. -/
def step (s : State) : Event → Option State
  | .write stream text => some { s with streams := s.streams.write stream text }
  | .take =>
    match s.captures with
    | [] => none
    | _ :: _ =>
      let (captured, streams) := s.streams.take
      some { s with streams, taken := s.taken ++ [captured] }
  | .enter =>
    let (capture, streams) := s.streams.capture
    some { s with streams, captures := capture :: s.captures }
  | .leave =>
    match s.captures with
    | [] => none
    | capture :: captures => some { s with streams := capture.close, captures }

def run (s : State) : List Event → Option State
  | [] => some s
  | e :: rest => do (← s.step e).run rest

end State

/-- The events are well nested where `depth` captures are open. -/
def nested : (depth : Nat) → List Event → Bool
  | _, [] => true
  | depth, .write .. :: rest => nested depth rest
  | depth, .take :: rest => 0 < depth && nested depth rest
  | depth, .enter :: rest => nested (depth + 1) rest
  | 0, .leave :: _ => false
  | depth + 1, .leave :: rest => nested depth rest

/-- The events happen inside a capture that stays open. `opened` more were opened there, and in the end all of these
are closed. -/
def enclosed : (opened : Nat) → List Event → Bool
  | opened, [] => opened = 0
  | opened, .write .. :: rest | opened, .take :: rest => enclosed opened rest
  | opened, .enter :: rest => enclosed (opened + 1) rest
  | 0, .leave :: _ => false
  | opened + 1, .leave :: rest => enclosed opened rest

/-- The text of the stream that is held at a level, from the events before, the last of them first: what was written
there since its capture was opened or since it was last taken. The events of other levels are passed over; `inner` is
the number of captures inside the level that are open between the event that is looked at and the one before. -/
def held (stream : Stream) : (inner : Nat) → List Event → String
  | _, [] => ""
  | 0, .write target text :: past => if target = stream then held stream 0 past ++ text else held stream 0 past
  | 0, .take :: _ | 0, .enter :: _ => ""
  | inner + 1, .write .. :: past | inner + 1, .take :: past => held stream (inner + 1) past
  | inner + 1, .enter :: past => held stream inner past
  | inner, .leave :: past => held stream (inner + 1) past

/-- What was written at the level where the events end, and was not taken. -/
def own (stream : Stream) (events : List Event) : String := held stream 0 events.reverse

/-- A capture that is opened, and closed after the events. -/
def capture (inner : List Event) : List Event := .enter :: inner ++ [.leave]

variable {s : State} {e : Event} {depth opened : Nat} {events past rest : List Event}

/-! ### Each level holds its own text -/

/-- The buffers of a level. -/
def buffers (past : List Event) (level : Nat) : Streams :=
  ⟨.buffer (held .out level past), .buffer (held .err level past)⟩

/-- Every level that is captured holds its own text, the innermost one where text goes and the others where the
captures put it aside. Outside of all captures nothing is held. -/
def Holds (depth : Nat) (past : List Event) (s : State) : Prop :=
  s.streams :: s.captures.map (·.saved) = (List.range depth).map (buffers past) ++ [.start]

theorem holds_start : Holds 0 [] .start := rfl

theorem buffers_succ (depth : Nat) (past : List Event) :
    (List.range (depth + 1)).map (buffers past) =
      buffers past 0 :: (List.range depth).map fun level => buffers past (level + 1) := by
  rw [List.range_succ_eq_map, List.map_cons, List.map_map]
  rfl

namespace Holds

theorem outermost (holds : Holds 0 past s) : s.streams = .start ∧ s.captures = [] := by
  simpa [Holds] using holds

theorem inside (holds : Holds (depth + 1) past s) :
    s.streams = buffers past 0 ∧
      s.captures.map (·.saved) = ((List.range depth).map fun level => buffers past (level + 1)) ++ [.start] := by
  rw [Holds, buffers_succ, List.cons_append, List.cons.injEq] at holds
  exact holds

theorem of_inside (streams : s.streams = buffers past 0)
    (captures : s.captures.map (·.saved) =
      ((List.range depth).map fun level => buffers past (level + 1)) ++ [.start]) : Holds (depth + 1) past s := by
  rw [Holds, buffers_succ, List.cons_append, streams, captures]

theorem captures_ne (holds : Holds (depth + 1) past s) : ∃ capture captures, s.captures = capture :: captures := by
  have saved := holds.inside.2
  cases open_ : s.captures with
  | nil => simp [open_] at saved
  | cons capture captures => exact ⟨capture, captures, rfl⟩

end Holds

theorem buffers_write (stream : Stream) (text : String) (past : List Event) :
    (buffers past 0).write stream text = buffers (.write stream text :: past) 0 := by
  cases stream <;> rfl

/-- What is taken is the innermost level's own text. -/
theorem Holds.take (holds : Holds (depth + 1) past s) :
    s.step .take = some { s with
      streams := buffers (.take :: past) 0
      taken := s.taken ++ [⟨held .out 0 past, held .err 0 past⟩] } := by
  obtain ⟨capture, captures, open_⟩ := holds.captures_ne
  simp only [State.step, open_, holds.inside.1]
  rfl

/-- One event: where it may happen it does, and the levels that it does not concern hold what they held. -/
theorem Holds.step (holds : Holds depth past s) (nest : nested depth (e :: rest)) :
    ∃ s' depth', s.step e = some s' ∧ Holds depth' (e :: past) s' ∧ nested depth' rest := by
  cases e with
  | write stream text =>
    refine ⟨_, depth, rfl, ?_, nest⟩
    cases depth with
    | zero =>
      -- outside of all captures the text goes to the streams of the process, which hold nothing
      obtain ⟨streams, captures⟩ := holds.outermost
      cases stream <;> simp [Holds, streams, captures, Streams.write, Streams.start, Sink.write]
    | succ depth =>
      obtain ⟨streams, captures⟩ := holds.inside
      refine .of_inside ?_ captures
      rw [streams, buffers_write]
  | take =>
    cases depth with
    | zero => simp [nested] at nest
    | succ depth =>
      have rest : nested (depth + 1) rest := by simpa [nested] using nest
      exact ⟨_, depth + 1, holds.take, .of_inside rfl holds.inside.2, rest⟩
  | enter => exact ⟨_, depth + 1, rfl, .of_inside rfl holds, nest⟩
  | leave =>
    cases depth with
    | zero => simp [nested] at nest
    | succ depth =>
      obtain ⟨capture, captures, open_⟩ := holds.captures_ne
      have saved := holds.inside.2
      rw [open_] at saved
      exact ⟨{ s with streams := capture.close, captures }, depth, by simp only [State.step, open_], saved, nest⟩

/-- Well-nested events can all happen, and after any of them each level holds its own text. -/
theorem Holds.run (holds : Holds depth past s) (nest : nested depth (events ++ rest)) :
    ∃ s' depth', s.run events = some s' ∧ Holds depth' (events.reverse ++ past) s' ∧ nested depth' rest := by
  induction events generalizing s depth past with
  | nil => exact ⟨s, depth, rfl, holds, nest⟩
  | cons e events ih =>
    obtain ⟨next, depth', stepped, holds, nest⟩ := holds.step nest
    obtain ⟨s', depth', ran, holds, nest⟩ := ih holds nest
    refine ⟨s', depth', ?_, ?_, nest⟩
    · rw [State.run, stepped, Option.bind_eq_bind, Option.bind_some, ran]
    · rwa [List.reverse_cons, List.append_assoc]

/-! ### What happens inside a capture -/

/-- Events inside a capture leave what is outside of it as it is. -/
theorem run_enclosed (streams : Streams) (captures outer : List Capture) (taken : List Captured)
    (inside : enclosed captures.length events) (within : outer ≠ []) :
    ∃ streams' more,
      State.run ⟨streams, captures ++ outer, taken⟩ events = some ⟨streams', outer, taken ++ more⟩ := by
  induction events generalizing streams captures taken with
  | nil =>
    obtain rfl : captures = [] := by simpa [enclosed] using inside
    exact ⟨streams, [], by rw [List.append_nil]; rfl⟩
  | cons e events ih =>
    cases e with
    | write stream text => exact ih (streams.write stream text) captures taken inside
    | take =>
      obtain ⟨streams', more, ran⟩ := ih streams.take.2 captures (taken ++ [streams.take.1]) inside
      obtain ⟨capture, rest, shape⟩ := List.exists_cons_of_ne_nil (List.append_ne_nil_of_right_ne_nil captures within)
      refine ⟨streams', streams.take.1 :: more, ?_⟩
      rw [List.append_cons, ← ran]
      simp only [State.run, State.step, shape]
      rfl
    | enter => exact ih streams.capture.2 (streams.capture.1 :: captures) taken inside
    | leave =>
      cases captures with
      | nil => simp [enclosed] at inside
      | cons capture captures => exact ih capture.close captures taken inside

theorem State.run_append (s : State) (first second : List Event) :
    s.run (first ++ second) = (s.run first).bind (·.run second) := by
  induction first generalizing s with
  | nil => rfl
  | cons e first ih =>
    simp only [List.cons_append, State.run, Option.bind_eq_bind, Option.bind_assoc, ih]

/-- A capture that was opened and closed again: text goes where it went before, and nothing of it is kept but what was
taken inside. -/
theorem run_capture (s : State) {inner : List Event} (inside : enclosed 0 inner) :
    ∃ taken, s.run (capture inner) = some { s with taken := s.taken ++ taken } := by
  obtain ⟨streams, taken, ran⟩ := run_enclosed s.streams.capture.2 [] (s.streams.capture.1 :: s.captures) s.taken
    inside (List.cons_ne_nil _ _)
  refine ⟨taken, ?_⟩
  rw [capture, State.run_append]
  simp only [State.run, State.step, Option.bind_eq_bind, Option.bind_some]
  rw [← List.nil_append (s.streams.capture.1 :: s.captures), ran]
  rfl

/-- The events inside a capture are passed over from outside of it. -/
theorem held_enclosed (stream : Stream) (level : Nat) (past : List Event) (inside : enclosed opened events) :
    held stream (level + 1) (events.reverse ++ past) = held stream (level + opened + 1) past := by
  induction events generalizing opened past with
  | nil =>
    obtain rfl : opened = 0 := by simpa [enclosed] using inside
    rfl
  | cons e events ih =>
    rw [List.reverse_cons, List.append_assoc]
    cases e with
    | write => exact ih _ inside
    | take => exact ih _ inside
    | enter => exact ih _ inside
    | leave =>
      cases opened with
      | zero => simp [enclosed] at inside
      | succ opened => exact ih _ inside

theorem held_capture (stream : Stream) (level : Nat) {inner : List Event} (inside : enclosed 0 inner) :
    held stream level ((capture inner).reverse ++ past) = held stream level past := by
  have passed := held_enclosed stream level (.enter :: past) inside
  simp only [capture, List.reverse_append, List.reverse_cons, List.reverse_nil, List.nil_append, List.cons_append,
    List.append_assoc]
  cases level <;> exact passed

theorem held_append {past' : List Event} (stream : Stream)
    (same : ∀ level, held stream level past = held stream level past') (level : Nat) (events : List Event) :
    held stream level (events ++ past) = held stream level (events ++ past') := by
  induction events generalizing level with
  | nil => exact same level
  | cons e events ih =>
    cases e <;> cases level <;> simp only [List.cons_append, held, ih]

/-- Nothing that is written inside a capture is among what is written outside of it. -/
theorem own_capture (stream : Stream) (before after : List Event) {inner : List Event} (inside : enclosed 0 inner) :
    own stream (before ++ capture inner ++ after) = own stream (before ++ after) := by
  rw [own, own, List.reverse_append, List.reverse_append, List.reverse_append]
  exact held_append stream (fun level => held_capture stream level inside) 0 _

/-- Captures keep apart what is written at different levels: what is taken is the text of its own level, per stream,
since the capture was opened or since the text was last taken; a capture that was opened and closed leaves nothing
behind, in the buffers or in later texts; outside of all captures nothing is captured. -/
theorem captures_nest (events : List Event) (nest : nested 0 events) :
    (∀ before after, events = before ++ after → ∃ s, State.start.run before = some s ∧
      (after.head? = some .take → ∃ streams, s.step .take =
        some ⟨streams, s.captures, s.taken ++ [⟨own .out before, own .err before⟩]⟩) ∧
      (s.captures = [] → s.streams = .start)) ∧
    ∀ before inner after, events = before ++ capture inner ++ after → enclosed 0 inner →
      (∃ s taken, State.start.run before = some s ∧
        State.start.run (before ++ capture inner) = some { s with taken := s.taken ++ taken }) ∧
      ∀ stream more, own stream (before ++ capture inner ++ more) = own stream (before ++ more) := by
  have happens (before after : List Event) (split : events = before ++ after) := holds_start.run (split ▸ nest)
  constructor
  · intro before after split
    obtain ⟨s, depth, ran, holds, nest⟩ := happens before after split
    rw [List.append_nil] at holds
    refine ⟨s, ran, ?_, ?_⟩
    · intro head
      obtain ⟨rest, rfl⟩ := List.head?_eq_some_iff.mp head
      cases depth with
      | zero => simp [nested] at nest
      | succ depth => exact ⟨_, holds.take⟩
    · intro outside
      cases depth with
      | zero => exact holds.outermost.1
      | succ depth =>
        obtain ⟨capture, captures, open_⟩ := holds.captures_ne
        simp [open_] at outside
  · intro before inner after split inside
    constructor
    · rw [List.append_assoc] at split
      obtain ⟨s, -, ran, -, -⟩ := happens before _ split
      obtain ⟨taken, closed⟩ := run_capture s inside
      exact ⟨s, taken, ran, by rw [State.run_append, ran, Option.bind_some, closed]⟩
    · exact fun stream more => own_capture stream before more inside

/-- A capture inside another, and text taken three times. -/
theorem captures_nest_twice :
    ∃ s, State.start.run [.enter, .write .out "a", .take, .enter, .write .out "b", .take, .leave,
      .write .out "c"] = some s ∧
      ∃ streams, s.step .take = some ⟨streams, s.captures, s.taken ++ [⟨"c", ""⟩]⟩ := by
  obtain ⟨s, ran, takes, -⟩ := (captures_nest [.enter, .write .out "a", .take, .enter, .write .out "b", .take, .leave,
    .write .out "c", .take] rfl).1
    [.enter, .write .out "a", .take, .enter, .write .out "b", .take, .leave, .write .out "c"] [.take] rfl
  exact ⟨s, ran, takes rfl⟩

/-! ### Running code -/

/-- Pieces of text that are written one after the other. -/
def written (pieces : List (Stream × String)) : List Event := pieces.map fun (stream, text) => .write stream text

theorem run_written (s : State) (pieces : List (Stream × String)) :
    s.run (written pieces) = some { s with streams := s.streams.writeAll pieces.toArray } := by
  induction pieces generalizing s with
  | nil => rfl
  | cons piece pieces ih =>
    refine (ih _).trans ?_
    simp only [Streams.writeAll, List.foldl_toArray, List.foldl_cons]

theorem writeAll_buffers (past : List Event) (pieces : List (Stream × String)) :
    (buffers past 0).writeAll pieces.toArray = buffers ((written pieces).reverse ++ past) 0 := by
  induction pieces generalizing past with
  | nil => rfl
  | cons piece pieces ih =>
    have rest := ih (.write piece.1 piece.2 :: past)
    simp only [Streams.writeAll, List.foldl_toArray, List.foldl_cons, buffers_write] at rest ⊢
    rw [rest, written, written, List.map_cons, List.reverse_cons, List.append_assoc, List.singleton_append]

/-- Running code opens a capture, takes what the code wrote and closes the capture: this is what is answered, and text
goes where it went before. -/
theorem execute_captures (e : Engine) (code : String) :
    let pieces := written (e.machine.interpret e.limits code).machine.writes.toList
    let (result, e') := e.execute code
    State.run ⟨e.streams, [], []⟩ (capture (pieces ++ [.take])) =
        some ⟨e'.streams, [], [⟨result.stdout, result.stderr⟩]⟩ ∧
      e'.streams = e.streams ∧
      result.stdout = own .out (.enter :: pieces) ∧ result.stderr = own .err (.enter :: pieces) := by
  have collected := writeAll_buffers [.enter] (e.machine.interpret e.limits code).machine.writes.toList
  rw [Array.toArray_toList] at collected
  refine ⟨?_, rfl, ?_, ?_⟩
  · simp only [capture, List.cons_append, List.append_assoc, State.run, State.step, Option.bind_eq_bind,
      Option.bind_some, State.run_append, run_written, Array.toArray_toList]
    rfl
  · rw [own, List.reverse_cons]
    exact congrArg (·.take.1.stdout) collected
  · rw [own, List.reverse_cons]
    exact congrArg (·.take.1.stderr) collected

end Capturing

end SnippetKernel
