import SnippetKernel.Kernel.Listener
import SnippetKernel.Proofs.Wire.Framing

/-! Peers do not get into each other's way. Whatever they send, in whatever order it comes and the connections
are accepted, the answers and the engine are those of handling the frames one after the other. -/
namespace SnippetKernel.Listener

open Wire

/-! ### What the peers did -/

namespace Event

def sentBy (client : Nat) : Event → List UInt8
  | send i bytes => if i = client then bytes else []
  | _ => []

def accepted? : Event → Option Nat
  | accept client => some client
  | _ => none

end Event

/-- All bytes that a peer sent, in whatever pieces. -/
def sentBy (events : List Event) (client : Nat) : List UInt8 := events.flatMap (·.sentBy client)

/-- The order in which connections were accepted. -/
def accepts (events : List Event) : List Nat := events.filterMap Event.accepted?

theorem sentBy_append (events : List Event) (e : Event) (client : Nat) :
    sentBy (events ++ [e]) client = sentBy events client ++ e.sentBy client := by
  simp [sentBy]

theorem accepts_append (events : List Event) (e : Event) :
    accepts (events ++ [e]) = accepts events ++ e.accepted?.toList := by
  cases accepted : e.accepted? <;> simp [accepts, accepted]

/-! ### What the exchanges should be -/

/-- Handles a frame after others. -/
def handleNext (done : List Response × Engine) (frame : Vitals × ByteArray) : List Response × Engine :=
  let (response, e) := done.2.handleFrame frame.1 frame.2
  (done.1 ++ [response], e)

/-- Handles frames one after the other. -/
def handleAll (e : Engine) (frames : List (Vitals × ByteArray)) : List Response × Engine :=
  frames.foldl handleNext ([], e)

/-- Does what requests ask for, one after the other. -/
def dispatchAll (e : Engine) (requests : List (Vitals × Request)) : Engine :=
  requests.foldl (fun e request => (e.dispatch request.1 request.2).2) e

namespace Exchange

def frame? (x : Exchange) : Option (Vitals × ByteArray) :=
  match x.ending with
  | .frame document => some (x.vitals, document)
  | _ => none

/-- The response, if there was a frame to respond to. -/
def answer? (x : Exchange) : Option Response :=
  match x.ending with
  | .frame _ => x.response
  | _ => none

/-- The request, if there was a frame and it was one. -/
def request? (x : Exchange) : Option (Vitals × Request) :=
  match x.ending with
  | .frame document => (Request.ofFrame document).toOption.map (x.vitals, ·)
  | _ => none

/-- The ending is the one that the bytes of the peer call for. A frame is what stands in front of the first
sentinel; a timeout or a broken connection can come at any point. -/
def Justified (x : Exchange) (closed : Bool) (sent : List UInt8) : Prop :=
  match x.ending with
  | .frame document => EndsAt sent document.size ∧ octets document = sent.take document.size
  | .refused failure =>
    ∃ front, front <+: sent ∧ maxFrameSize < front.length ∧ Unended front ∧
      failure = .frameTooLarge front.length maxFrameSize
  | .atEnd reason =>
    closed = true ∧ Unended sent ∧ ∃ buffer, octets buffer = sent ∧ reason = noFrame buffer true
  | .timedOut => True
  | .broken _ => True

/-- Without a frame the peer is told why. -/
def Refused (x : Exchange) : Prop := ∀ reason, x.ending.outcome = .error reason → x.response = Engine.refusal reason

/-- The reads of a connection as a feed. -/
def feed (x : Exchange) : Feed :=
  .ofPieces x.reads <|
    match x.ending with
    | .atEnd _ => true
    | _ => false

theorem Justified.send {x : Exchange} {sent : List UInt8} (h : x.Justified false sent) (more : List UInt8) :
    x.Justified false (sent ++ more) := by
  unfold Justified at h ⊢
  split at h
  · obtain ⟨ends, front⟩ := h
    have room := ends.1.room
    exact ⟨ends.append more, by rw [front, List.take_append_of_le_length (by omega)]⟩
  · obtain ⟨front, isPrefix, rest⟩ := h
    exact ⟨front, isPrefix.trans (List.prefix_append _ _), rest⟩
  · cases h.1
  · trivial
  · trivial

theorem Justified.close {x : Exchange} {closed : Bool} {sent : List UInt8} (h : x.Justified closed sent) :
    x.Justified true sent := by
  unfold Justified at h ⊢
  split at h
  · exact h
  · exact h
  · exact ⟨rfl, h.2⟩
  · trivial
  · trivial

end Exchange

/-! ### The invariant -/

/-- The open connection has read the first bytes that came, none of its reads completed a sentinel, and
reading a frame would be where it is now. -/
structure Open.Reading (o : Open) (arrived sent : List UInt8) : Prop where
  bytes : octets o.buffer ++ arrived = sent
  unended : Unended (octets o.buffer)
  follows : ∀ more closes,
    (readFrame .empty (.ofPieces (o.reads ++ more) closes)).1 = (readFrame o.buffer (.ofPieces more closes)).1

/-- What holds of a state after some events, the open connection aside. -/
structure Settled (e : Engine) (past : List Event) (s : State) : Prop where
  accepted : s.accepted = accepts past
  once : s.accepted.Nodup
  order : s.log.map (·.client) ++ s.serving.toList.map (·.client) = s.accepted
  waiting : ∀ i, i ∉ s.accepted → (s.links i).arrived = sentBy past i
  justified : ∀ x ∈ s.log, x.Justified (s.links x.client).closed (sentBy past x.client)
  refused : ∀ x ∈ s.log, x.Refused
  served : ∀ x ∈ s.log, (∀ f, x.ending ≠ .broken f) → (readFrame .empty x.feed).1 = x.ending.outcome
  sequential : handleAll e (s.log.filterMap Exchange.frame?) = (s.log.filterMap Exchange.answer?, s.engine)

/-- What holds of a state after some events. -/
structure Inv (e : Engine) (past : List Event) (s : State) : Prop where
  settled : Settled e past s
  reading : ∀ o, s.serving = some o → o.Reading (s.links o.client).arrived (sentBy past o.client)

theorem handleAll_append (e : Engine) (frames : List (Vitals × ByteArray)) (vitals : Vitals)
    (document : ByteArray) :
    handleAll e (frames ++ [(vitals, document)])
      = ((handleAll e frames).1 ++ [((handleAll e frames).2.handleFrame vitals document).1],
          ((handleAll e frames).2.handleFrame vitals document).2) := by
  rw [handleAll, List.foldl_append]
  rfl

theorem eq_frame_of_outcome {ending : Ending} {document : ByteArray} (h : ending.outcome = .ok document) :
    ending = .frame document := by
  cases ending <;> cases h
  rfl

/-- Without a frame nothing is handled. -/
theorem frame?_of_outcome {x : Exchange} {reason : NoFrame} (h : x.ending.outcome = .error reason) :
    x.frame? = none := by
  unfold Exchange.frame?
  split
  · next frame => rw [frame] at h; cases h
  · rfl

theorem answer?_of_outcome {x : Exchange} {reason : NoFrame} (h : x.ending.outcome = .error reason) :
    x.answer? = none := by
  unfold Exchange.answer?
  split
  · next frame => rw [frame] at h; cases h
  · rfl

theorem request?_of_outcome {x : Exchange} {reason : NoFrame} (h : x.ending.outcome = .error reason) :
    x.request? = none := by
  unfold Exchange.request?
  split
  · next frame => rw [frame] at h; cases h
  · rfl

section Finish

variable {e : Engine} {past : List Event} {s : State} {o : Open} {vitals : Vitals} {ending : Ending}

/-- An answer settles the open connection. -/
theorem Settled.finish (settled : Settled e past s) {before : Open} (serving : s.serving = some before)
    (same : o.client = before.client)
    (justified : ∀ response, (⟨o.client, vitals, o.reads, ending, response⟩ : Exchange).Justified
      (s.links o.client).closed (sentBy past o.client))
    (served : ∀ response, (∀ f, ending ≠ .broken f) →
      (readFrame .empty (⟨o.client, vitals, o.reads, ending, response⟩ : Exchange).feed).1
        = ending.outcome) :
    Settled e past (s.finish o vitals ending) where
  accepted := settled.accepted
  once := settled.once
  order := by
    have order := settled.order
    rw [serving] at order
    simpa [State.finish, same] using order
  waiting := settled.waiting
  justified := by
    intro x inside
    rcases List.mem_append.1 inside with before | last
    · exact settled.justified x before
    · rw [List.mem_singleton.1 last]
      exact justified _
  refused := by
    intro x inside
    rcases List.mem_append.1 inside with before | last
    · exact settled.refused x before
    · rw [List.mem_singleton.1 last]
      intro reason refused
      change (s.engine.answer vitals ending.outcome).1 = _
      rw [show ending.outcome = .error reason from refused]
      rfl
  served := by
    intro x inside
    rcases List.mem_append.1 inside with before | last
    · exact settled.served x before
    · rw [List.mem_singleton.1 last]
      exact served _
  sequential := by
    have sequential := settled.sequential
    change handleAll e ((s.log ++ [_]).filterMap Exchange.frame?)
      = ((s.log ++ [_]).filterMap Exchange.answer?, (s.engine.answer vitals ending.outcome).2)
    rw [List.filterMap_append, List.filterMap_append]
    cases outcome : ending.outcome with
    | ok document =>
      obtain rfl := eq_frame_of_outcome outcome
      have handled := handleAll_append e (s.log.filterMap Exchange.frame?) vitals document
      rw [sequential] at handled
      exact handled
    | error reason =>
      rw [List.filterMap_cons_none (frame?_of_outcome outcome),
        List.filterMap_cons_none (answer?_of_outcome outcome), List.filterMap_nil, List.filterMap_nil,
        List.append_nil, List.append_nil]
      exact sequential

end Finish

/-! ### One event -/

section Step

variable {e : Engine} {past : List Event} {s s' : State} {o : Open} {vitals : Vitals}

theorem start_inv (e : Engine) : Inv e [] (.start e) where
  settled := {
    accepted := rfl
    once := List.nodup_nil
    order := rfl
    waiting := fun _ _ => rfl
    justified := by simp [State.start]
    refused := by simp [State.start]
    served := by simp [State.start]
    sequential := rfl }
  reading := by simp [State.start]

/-- Events that neither send nor accept leave what the peers did as it was. -/
theorem Settled.pass (settled : Settled e past s) (event : Event) (silent : ∀ i, event.sentBy i = [])
    (passive : event.accepted? = none) : Settled e (past ++ [event]) s := by
  have sent (i : Nat) : sentBy (past ++ [event]) i = sentBy past i := by
    rw [sentBy_append, silent, List.append_nil]
  have accepted : accepts (past ++ [event]) = accepts past := by
    rw [accepts_append, passive]
    simp
  exact { settled with
    accepted := by rw [accepted, settled.accepted]
    waiting := fun i unknown => by rw [sent, settled.waiting i unknown]
    justified := fun x inside => by rw [sent]; exact settled.justified x inside }

theorem send_inv {client : Nat} {bytes : List UInt8} (inv : Inv e past s)
    (stepped : s.step (.send client bytes) = some s') : Inv e (past ++ [.send client bytes]) s' := by
  have settled := inv.settled
  have sent (i : Nat) : sentBy (past ++ [.send client bytes]) i
      = sentBy past i ++ if client = i then bytes else [] := sentBy_append _ _ _
  simp only [State.step] at stepped
  split at stepped
  · cases stepped
  next still_open =>
  cases stepped
  have open_end : (s.links client).closed = false := by simpa using still_open
  constructor
  · exact { settled with
      accepted := by
        rw [accepts_append]
        simpa [Event.accepted?, State.setLink] using settled.accepted
      waiting := by
        intro i unknown
        have waiting := settled.waiting i unknown
        rw [sent]
        by_cases same : i = client
        · subst same
          simp [State.setLink, waiting]
        · simp [State.setLink, same, Ne.symm same, waiting]
      justified := by
        intro x inside
        have justified := settled.justified x inside
        rw [sent]
        by_cases same : x.client = client
        · rw [same, open_end] at justified
          simpa [State.setLink, same, open_end] using justified.send bytes
        · simpa [State.setLink, same, Ne.symm same] using justified }
  · intro o serving
    have reading := inv.reading o serving
    refine ⟨?_, reading.unended, reading.follows⟩
    rw [sent, ← reading.bytes]
    by_cases same : o.client = client
    · subst same
      simp [State.setLink]
    · simp [State.setLink, same, Ne.symm same]

theorem close_inv {client : Nat} (inv : Inv e past s) (stepped : s.step (.close client) = some s') :
    Inv e (past ++ [.close client]) s' := by
  have settled := inv.settled.pass (.close client) (fun _ => rfl) rfl
  have sent (i : Nat) : sentBy (past ++ [.close client]) i = sentBy past i := by
    simp [sentBy_append, Event.sentBy]
  cases stepped
  have arrived (i : Nat) :
      ((s.setLink client { s.links client with closed := true }).links i).arrived = (s.links i).arrived := by
    by_cases same : i = client
    · subst same
      simp [State.setLink]
    · simp [State.setLink, same]
  constructor
  · exact { settled with
      waiting := fun i unknown => (arrived i).trans (settled.waiting i unknown)
      justified := by
        intro x inside
        have justified := settled.justified x inside
        by_cases same : x.client = client
        · simpa [State.setLink, same] using justified.close
        · simpa [State.setLink, same] using justified }
  · intro o serving
    have reading := inv.reading o serving
    rw [arrived, sent]
    exact reading

theorem accept_inv {client : Nat} (inv : Inv e past s) (stepped : s.step (.accept client) = some s') :
    Inv e (past ++ [.accept client]) s' := by
  have settled := inv.settled
  have sent (i : Nat) : sentBy (past ++ [.accept client]) i = sentBy past i := by
    simp [sentBy_append, Event.sentBy]
  simp only [State.step] at stepped
  split at stepped
  · cases stepped
  next free =>
  rw [not_or] at free
  obtain ⟨idle, fresh⟩ := free
  have idle : s.serving = none := by simpa using idle
  cases stepped
  constructor
  · exact { settled with
      accepted := by
        rw [accepts_append, ← settled.accepted]
        rfl
      once := by
        rw [List.nodup_append]
        refine ⟨settled.once, by simp, ?_⟩
        intro i known j new
        rw [List.mem_singleton.1 new]
        rintro rfl
        exact fresh known
      order := by
        have order := settled.order
        rw [idle] at order
        simpa using order
      waiting := by
        intro i unknown
        rw [sent]
        exact settled.waiting i fun known => unknown (List.mem_append_left _ known)
      justified := fun x inside => by
        rw [sent]
        exact settled.justified x inside }
  · rintro o ⟨⟩
    refine ⟨?_, unended_empty, fun _ _ => rfl⟩
    rw [sent]
    exact settled.waiting client fresh

theorem timeOut_inv (inv : Inv e past s) (stepped : s.step (.timeOut vitals) = some s') :
    Inv e (past ++ [.timeOut vitals]) s' := by
  have settled := inv.settled.pass (.timeOut vitals) (fun _ => rfl) rfl
  simp only [State.step, Option.bind_eq_bind, Option.bind_eq_some_iff] at stepped
  obtain ⟨o, serving, eq⟩ := stepped
  cases eq
  have reading := inv.reading o serving
  constructor
  · refine settled.finish serving rfl (fun _ => trivial) fun _ _ => ?_
    have follows := reading.follows [] false
    rw [List.append_nil, readFrame_nil] at follows
    exact follows
  · rintro o' ⟨⟩

theorem fail_inv {failure : Failure} (inv : Inv e past s)
    (stepped : s.step (.fail failure vitals) = some s') :
    Inv e (past ++ [.fail failure vitals]) s' := by
  have settled := inv.settled.pass (.fail failure vitals) (fun _ => rfl) rfl
  simp only [State.step, Option.bind_eq_bind, Option.bind_eq_some_iff] at stepped
  obtain ⟨o, serving, eq⟩ := stepped
  cases eq
  constructor
  · exact settled.finish serving rfl (fun _ => trivial) fun _ unbroken => absurd rfl (unbroken failure)
  · rintro o' ⟨⟩

theorem endOfStream_inv (inv : Inv e past s) (stepped : s.step (.endOfStream vitals) = some s') :
    Inv e (past ++ [.endOfStream vitals]) s' := by
  have settled := inv.settled.pass (.endOfStream vitals) (fun _ => rfl) rfl
  simp only [State.step, Option.bind_eq_bind, Option.bind_eq_some_iff] at stepped
  obtain ⟨o, serving, stepped⟩ := stepped
  split at stepped
  · next at_end =>
    obtain ⟨empty, closed⟩ := at_end
    cases stepped
    have reading := inv.reading o serving
    have all_read : octets o.buffer = sentBy (past ++ [.endOfStream vitals]) o.client := by
      have bytes := reading.bytes
      rw [empty, List.append_nil] at bytes
      rw [bytes, sentBy_append]
      simp [Event.sentBy]
    constructor
    · refine settled.finish serving rfl (fun _ => ?_) fun _ _ => ?_
      · exact ⟨closed, all_read ▸ reading.unended, o.buffer, all_read, rfl⟩
      · have follows := reading.follows [] true
        rw [List.append_nil, readFrame_nil] at follows
        exact follows
    · rintro o' ⟨⟩
  · cases stepped

/-- Reading takes bytes from the open connection only. -/
theorem Settled.consume (settled : Settled e past s) {client : Nat} (known : client ∈ s.accepted)
    (left : List UInt8) :
    Settled e past (s.setLink client { s.links client with arrived := left }) where
  accepted := settled.accepted
  once := settled.once
  order := settled.order
  waiting := by
    intro i unknown
    have other : i ≠ client := by
      rintro rfl
      exact unknown known
    simpa [State.setLink, other] using settled.waiting i unknown
  justified := by
    intro x inside
    have justified := settled.justified x inside
    by_cases same : x.client = client
    · rw [same] at justified
      simpa [State.setLink, same] using justified
    · simpa [State.setLink, same] using justified
  refused := settled.refused
  served := settled.served
  sequential := settled.sequential

theorem Settled.mem_accepted (settled : Settled e past s) (serving : s.serving = some o) :
    o.client ∈ s.accepted := by
  rw [← settled.order, serving]
  simp

theorem advance_inv (settled : Settled e past s) (serving : s.serving = some o) {bytes : ByteArray}
    (arrived : List UInt8) (reading : o.Reading (octets bytes ++ arrived) (sentBy past o.client))
    (rest : (s.links o.client).arrived = arrived) (filled : 0 < bytes.size)
    (short : bytes.size ≤ readSize) : Inv e past (s.advance o vitals bytes) := by
  have sent := reading.bytes
  rw [← List.append_assoc] at sent
  rcases receive_cases bytes reading.unended with
    ⟨k, ends, result⟩ | ⟨unended, large, result⟩ | ⟨unended, _, result⟩
  · obtain ⟨front, long⟩ := extract_of_endsAt ends
    have room := ends.1.room
    simp only [State.advance, result]
    constructor
    · refine settled.finish serving rfl (fun _ => ⟨?_, ?_⟩) fun _ _ => ?_
      · rw [long, ← sent]
        exact ends.append arrived
      · rw [front, long, ← sent]
        exact (List.take_append_of_le_length (by omega)).symm
      · change (readFrame .empty (.ofPieces (o.reads ++ [bytes]) false)).1 = _
        rw [reading.follows, readFrame_of_frame (Feed.read?_cons filled short) result]
        rfl
    · rintro o' ⟨⟩
  · simp only [State.advance, result]
    constructor
    · refine settled.finish serving rfl (fun _ => ?_) fun _ _ => ?_
      · have size : (octets o.buffer ++ octets bytes).length = (o.buffer ++ bytes).size := by
          rw [← octets_append, length_octets]
        rw [← sent]
        refine ⟨octets o.buffer ++ octets bytes, List.prefix_append _ _, ?_, unended, ?_⟩
        · rwa [size]
        · rw [size]
      · change (readFrame .empty (.ofPieces (o.reads ++ [bytes]) false)).1 = _
        rw [reading.follows, readFrame_of_failed (Feed.read?_cons filled short) result]
        rfl
    · rintro o' ⟨⟩
  · simp only [State.advance, result]
    constructor
    · exact { settled with
        order := by
          have order := settled.order
          rw [serving] at order
          exact order }
    · rintro o' ⟨⟩
      refine ⟨?_, ?_, fun more closes => ?_⟩
      · rw [← sent, rest, octets_append]
      · rwa [octets_append]
      · rw [List.append_assoc, List.singleton_append, reading.follows, readFrame_cons filled short result]

theorem read_inv {count : Nat} (inv : Inv e past s) (stepped : s.step (.read count vitals) = some s') :
    Inv e (past ++ [.read count vitals]) s' := by
  have settled := inv.settled.pass (.read count vitals) (fun _ => rfl) rfl
  simp only [State.step, Option.bind_eq_bind, Option.bind_eq_some_iff] at stepped
  obtain ⟨o, serving, stepped⟩ := stepped
  split at stepped
  · next possible =>
    obtain ⟨some_bytes, short, come⟩ := possible
    cases stepped
    have reading := inv.reading o serving
    have bytes : octets ((s.links o.client).arrived.take count).toByteArray
        = (s.links o.client).arrived.take count := octets_toByteArray _
    have size : ((s.links o.client).arrived.take count).toByteArray.size = count := by
      rw [← length_octets, bytes, List.length_take]
      omega
    have sent : sentBy (past ++ [.read count vitals]) o.client = sentBy past o.client := by
      simp [sentBy_append, Event.sentBy]
    have known := settled.mem_accepted serving
    refine advance_inv (settled.consume known _) serving ((s.links o.client).arrived.drop count) ?_ ?_ ?_ ?_
    · refine ⟨?_, reading.unended, reading.follows⟩
      rw [bytes, List.take_append_drop, sent]
      exact reading.bytes
    · simp [State.setLink]
    · rwa [size]
    · rwa [size]
  · cases stepped

theorem step_inv {event : Event} (inv : Inv e past s) (stepped : s.step event = some s') :
    Inv e (past ++ [event]) s' := by
  cases event with
  | send client bytes => exact send_inv inv stepped
  | close client => exact close_inv inv stepped
  | accept client => exact accept_inv inv stepped
  | read count vitals => exact read_inv inv stepped
  | endOfStream vitals => exact endOfStream_inv inv stepped
  | timeOut vitals => exact timeOut_inv inv stepped
  | fail failure vitals => exact fail_inv inv stepped

end Step

/-! ### All events -/

theorem run_inv {e : Engine} {past events : List Event} {s s' : State} (inv : Inv e past s)
    (ran : s.run events = some s') : Inv e (past ++ events) s' := by
  induction events generalizing past s with
  | nil =>
    cases ran
    rwa [List.append_nil]
  | cons event rest ih =>
    simp only [State.run, Option.bind_eq_bind, Option.bind_eq_some_iff] at ran
    obtain ⟨next, stepped, ran⟩ := ran
    have := ih (step_inv inv stepped) ran
    rwa [List.append_assoc] at this

/-! ### Serialized service -/

/-- The responses that a peer got. -/
def responsesTo (s : State) (client : Nat) : List Response :=
  s.log.filterMap fun x => if x.client = client then x.response else none

theorem length_responses_le_one {log : List Exchange} (once : (log.map (·.client)).Nodup) (client : Nat) :
    (log.filterMap fun x => if x.client = client then x.response else none).length ≤ 1 := by
  induction log with
  | nil => simp
  | cons x rest ih =>
    rw [List.map_cons, List.nodup_cons] at once
    by_cases same : x.client = client
    · have others : (rest.filterMap fun x => if x.client = client then x.response else none) = [] := by
        rw [List.filterMap_eq_nil_iff]
        intro y inside
        refine if_neg fun again => once.1 ?_
        exact List.mem_map.2 ⟨y, inside, again.trans same.symm⟩
      rw [List.filterMap_cons]
      split
      · simp [others]
      · simp [others]
    · rw [List.filterMap_cons, if_neg same]
      exact ih once.2

/-- Only frames that are requests do anything. -/
theorem handleFrame_of_error {e : Engine} {vitals : Vitals} {document : ByteArray} {failure : Failure}
    (h : Request.ofFrame document = .error failure) : (e.handleFrame vitals document).2 = e := by
  rw [Engine.handleFrame, h]

theorem handleFrame_of_ok {e : Engine} {vitals : Vitals} {document : ByteArray} {r : Request}
    (h : Request.ofFrame document = .ok r) : e.handleFrame vitals document = e.dispatch vitals r := by
  rw [Engine.handleFrame, h]

theorem engine_handleAll (done : List Response × Engine) (log : List Exchange) :
    ((log.filterMap Exchange.frame?).foldl handleNext done).2
      = dispatchAll done.2 (log.filterMap Exchange.request?) := by
  induction log generalizing done with
  | nil => rfl
  | cons x rest ih =>
    cases outcome : x.ending.outcome with
    | ok document =>
      have ending := eq_frame_of_outcome outcome
      have frame : x.frame? = some (x.vitals, document) := by rw [Exchange.frame?, ending]
      have next : (handleNext done (x.vitals, document)).2 = (done.2.handleFrame x.vitals document).2 := rfl
      rw [List.filterMap_cons_some frame, List.foldl_cons, ih, next]
      cases decoded : Request.ofFrame document with
      | error failure =>
        have request : x.request? = none := by simp [Exchange.request?, ending, decoded, Except.toOption]
        rw [List.filterMap_cons_none request, handleFrame_of_error decoded]
      | ok r =>
        have request : x.request? = some (x.vitals, r) := by
          simp [Exchange.request?, ending, decoded, Except.toOption]
        rw [List.filterMap_cons_some request, handleFrame_of_ok decoded]
        rfl
    | error reason =>
      rw [List.filterMap_cons_none (frame?_of_outcome outcome),
        List.filterMap_cons_none (request?_of_outcome outcome), ih]

/-- What serialized service means for the state after some events. -/
structure Serialized (e : Engine) (events : List Event) (s : State) : Prop where
  /-- Connections are done with one after the other, as they were accepted; none comes twice. -/
  order : s.log.map (·.client) ++ s.serving.toList.map (·.client) = accepts events
  once : (accepts events).Nodup
  oneResponse : ∀ client, (responsesTo s client).length ≤ 1
  /-- The responses and the engine are those of handling the frames one after the other. -/
  sequential : handleAll e (s.log.filterMap Exchange.frame?) = (s.log.filterMap Exchange.answer?, s.engine)
  /-- Frames are what the peers sent up to the first sentinel, and who got no frame across got a reason. -/
  justified : ∀ x ∈ s.log, x.Justified (s.links x.client).closed (sentBy events x.client) ∧ x.Refused
  /-- A whole frame that fits gets across unless it takes too long or the connection breaks. -/
  kept : ∀ x ∈ s.log, ∀ k, EndsAt (sentBy events x.client) k → k + sentinel.size ≤ maxFrameSize →
    x.ending = .timedOut ∨ (∃ f, x.ending = .broken f) ∨
      ∃ document, x.ending = .frame document ∧ octets document = (sentBy events x.client).take k
  /-- The engine is where the decodable frames alone would have brought it. -/
  unchanged : s.engine = dispatchAll e (s.log.filterMap Exchange.request?)
  /-- Each connection was served as if its reads had been there from the start. -/
  served : ∀ x ∈ s.log, (∀ f, x.ending ≠ .broken f) →
    ∀ e : Engine, e.serve x.vitals x.feed = e.answer x.vitals x.ending.outcome

theorem Exchange.Justified.kept {x : Exchange} {closed : Bool} {sent : List UInt8}
    (h : x.Justified closed sent) {k : Nat} (ends : EndsAt sent k) (fits : k + sentinel.size ≤ maxFrameSize) :
    x.ending = .timedOut ∨ (∃ f, x.ending = .broken f) ∨
      ∃ document, x.ending = .frame document ∧ octets document = sent.take k := by
  unfold Exchange.Justified at h
  split at h
  · next document ending =>
    obtain ⟨ends', front⟩ := h
    obtain rfl := ends'.unique ends
    exact .inr (.inr ⟨document, ending, front⟩)
  · obtain ⟨front, ⟨more, rfl⟩, large, unended, _⟩ := h
    have inside : k + 9 ≤ front.length := by
      rw [size_sentinel] at fits
      omega
    exact absurd (ends.1.of_append inside) (unended k)
  · exact absurd ends.1 (h.2.1 k)
  · next ending => exact .inl ending
  · next failure ending => exact .inr (.inl ⟨failure, ending⟩)

end SnippetKernel.Listener
