import SnippetKernel.Endpoint.Address
import SnippetKernel.Host.Command
import SnippetKernel.Wire.Frame

/-! One request and its response, over a connection of their own. -/
namespace SnippetKernel

/-- Why a connection could not be made or broke. -/
inductive LinkFault where
  | refused
  | noAnswer
  | reset
  | failed (e : OsError)
  deriving DecidableEq

namespace LinkFault

def failure (e : Endpoint) : LinkFault → Failure
  | refused | noAnswer => .unreachable e.text
  | reset => .busy
  | failed error => .io error.text none

end LinkFault

/-- What comes in from a connection. -/
inductive Received where
  | bytes (b : ByteArray)
  | closed
  /-- The time that was given has passed. -/
  | nothing
  | broken (f : LinkFault)

/-- What is asked of a connection. -/
inductive LinkAsk where
  | connect
  | send (b : ByteArray)
  | receive (within : Duration)

/-- Each answer comes with the time that it took. -/
@[reducible] def LinkAsk.Answer : LinkAsk → Type
  | connect | send _ => Except LinkFault Duration
  | receive _ => Received × Duration

/-- How long is waited, each time and altogether. -/
structure Patience where
  read : Duration
  whole : Duration
  read_pos : 0 < read.nanos := by decide

namespace Exchange

variable (e : Endpoint) (p : Patience)

theorem size_push {a b : Wire.Accumulator} {bytes : ByteArray} (h : a.push bytes = (none, b)) :
    b.size = a.size + bytes.size ∧ b.size ≤ Wire.maxFrameSize := by
  simp only [Wire.Accumulator.push] at h
  split at h
  · cases h
  · next fits =>
    cases h
    simp only [Wire.Accumulator.size, ByteArray.size_append, true_and] at *
    omega

/-- Receives until the bytes are a response, the kernel closes, or the time is up. -/
def receive (remaining : Nat) (a : Wire.Accumulator) :
    Dialogue LinkAsk.Answer (Except Failure Response) :=
  if remaining = 0 then .done (.error (.timeout p.whole))
  else
    let within := min p.read.nanos remaining
    .ask (.receive ⟨within⟩) fun (received, spent) =>
      match received with
      | .nothing => receive (remaining - within) a
      | .broken fault => .done (.error (fault.failure e))
      | .closed => .done (if a.size = 0 then .error .unresponsive else a.finish)
      | .bytes bytes =>
        if bytes.size = 0 then .done (if a.size = 0 then .error .unresponsive else a.finish)
        else
          match _pushed : a.push bytes with
          | (some failure, _) => .done (.error failure)
          | (none, b) =>
            match b.complete? with
            | some response => .done (.ok response)
            | none => receive (remaining - spent.nanos) b
termination_by (Wire.maxFrameSize - a.size) + remaining
decreasing_by
  · have := p.read_pos
    omega
  · have := size_push ‹_›
    omega

/-- Sends a request and receives the response. -/
def run (r : Request) : Dialogue LinkAsk.Answer (Except Failure Response) :=
  .ask .connect fun
    | .error fault => .done (.error (fault.failure e))
    | .ok connected =>
      .ask (.send (Wire.frame r)) fun
        | .error fault => .done (.error (fault.failure e))
        | .ok sent => receive e p (p.whole.nanos - connected.nanos - sent.nanos) .empty

end Exchange

end SnippetKernel
