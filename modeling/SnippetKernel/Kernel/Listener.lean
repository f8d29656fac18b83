import SnippetKernel.Kernel.Service

/-! The accept loop, read by read. Peers may send and close at any time; the listener has one connection
open, reads from it until there is an outcome, answers it, and only then accepts another one. -/
namespace SnippetKernel.Listener

open Wire

/-- What happens next. Reads, timeouts and failures are about the connection that is open. -/
inductive Event where
  | send (client : Nat) (bytes : List UInt8)
  | close (client : Nat)
  | accept (client : Nat)
  /-- A read that gives so many bytes. -/
  | read (count : Nat) (vitals : Vitals)
  | endOfStream (vitals : Vitals)
  | timeOut (vitals : Vitals)
  | fail (failure : Failure) (vitals : Vitals)

/-- The listener's end of a connection: what has come and has not been read, and whether the peer has closed
its side. -/
structure Link where
  arrived : List UInt8
  closed : Bool

/-- The connection that is open, with its reads so far and what they amount to. -/
structure Open where
  client : Nat
  reads : List ByteArray
  buffer : ByteArray

/-- How the reading of a request ended. -/
inductive Ending where
  | frame (document : ByteArray)
  | refused (failure : Failure)
  | atEnd (reason : NoFrame)
  | timedOut
  | broken (failure : Failure)

namespace Ending

def outcome : Ending → Except NoFrame ByteArray
  | frame document => .ok document
  | refused failure => .error (.failed failure)
  | atEnd reason => .error reason
  | timedOut => .error .silent
  | broken failure => .error (.failed failure)

end Ending

/-- A connection that is done with. -/
structure Exchange where
  client : Nat
  vitals : Vitals
  reads : List ByteArray
  ending : Ending
  response : Option Response

structure State where
  engine : Engine
  links : Nat → Link
  accepted : List Nat
  serving : Option Open
  log : List Exchange

namespace State

def start (e : Engine) : State := ⟨e, fun _ => ⟨[], false⟩, [], none, []⟩

def setLink (s : State) (client : Nat) (link : Link) : State :=
  { s with links := fun i => if i = client then link else s.links i }

/-- Answers the open connection and closes it. -/
def finish (s : State) (o : Open) (vitals : Vitals) (ending : Ending) : State :=
  let (response, engine) := s.engine.answer vitals ending.outcome
  { s with engine, serving := none, log := s.log ++ [⟨o.client, vitals, o.reads, ending, response⟩] }

/-- The open connection, with one more read. -/
def advance (s : State) (o : Open) (vitals : Vitals) (bytes : ByteArray) : State :=
  let reads := o.reads ++ [bytes]
  match receive o.buffer bytes with
  | .frame document => s.finish { o with reads } vitals (.frame document)
  | .failed failure => s.finish { o with reads } vitals (.refused failure)
  | .waiting buffer => { s with serving := some { o with reads, buffer } }

/-- The state after an event, if the event can happen. A connection is accepted once, and while none is open;
a read takes no more than has come. -/
def step (s : State) : Event → Option State
  | .send client bytes =>
    let link := s.links client
    if link.closed then none else some (s.setLink client { link with arrived := link.arrived ++ bytes })
  | .close client => some (s.setLink client { s.links client with closed := true })
  | .accept client =>
    if s.serving.isSome ∨ client ∈ s.accepted then none
    else some { s with accepted := s.accepted ++ [client], serving := some ⟨client, [], .empty⟩ }
  | .read count vitals => do
    let o ← s.serving
    let link := s.links o.client
    if 0 < count ∧ count ≤ readSize ∧ count ≤ link.arrived.length then
      let rest := s.setLink o.client { link with arrived := link.arrived.drop count }
      some (rest.advance o vitals (link.arrived.take count).toByteArray)
    else none
  | .endOfStream vitals => do
    let o ← s.serving
    let link := s.links o.client
    if link.arrived = [] ∧ link.closed then some (s.finish o vitals (.atEnd (noFrame o.buffer true)))
    else none
  | .timeOut vitals => do
    let o ← s.serving
    some (s.finish o vitals .timedOut)
  | .fail failure vitals => do
    let o ← s.serving
    some (s.finish o vitals (.broken failure))

/-- The state after events, if they can happen in this order. -/
def run (s : State) : List Event → Option State
  | [] => some s
  | e :: rest => do (← s.step e).run rest

end State

end SnippetKernel.Listener
