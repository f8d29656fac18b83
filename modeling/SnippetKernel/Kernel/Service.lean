import SnippetKernel.Kernel.Engine
import SnippetKernel.Wire.Frame

/-! Answering callers. A connection carries one request and one answer, and connections are served one
after another, so requests never overlap. -/
namespace SnippetKernel

namespace Engine

/-- Does what a request asks for. -/
def dispatch (e : Engine) (vitals : Vitals) : Request → Response × Engine
  | .execute code =>
    let (r, e) := e.execute code
    (.execute r, e)
  | .inspect pattern => (.inspect (e.inspect pattern), e)
  | .reset =>
    let (r, e) := e.reset
    (.reset r, e)
  | .status => (.status (e.status vitals), e)

/-- Answers a frame. One that is no request gets a refusal and changes nothing. -/
def handleFrame (e : Engine) (vitals : Vitals) (frame : ByteArray) : Response × Engine :=
  match Request.ofFrame frame with
  | .ok request => e.dispatch vitals request
  | .error failure => (.ofError failure.message, e)

/-- How long a whole request may take to arrive. -/
def readTimeout : Duration := .ofSeconds 30

/-- What a peer is told when no frame came from it. One that closed without sending anything is told
nothing. -/
def refusal : Wire.NoFrame → Option Response
  | .closed => none
  | .failed failure => some (.ofError failure.message)
  | .silent =>
    some (.ofError (Failure.protocol ("no complete request within " ++ readTimeout.text)).message)

/-- Answers what came out of reading a frame. -/
def answer (e : Engine) (vitals : Vitals) : Except Wire.NoFrame ByteArray → Option Response × Engine
  | .ok frame =>
    let (response, e) := e.handleFrame vitals frame
    (some response, e)
  | .error none_came => (refusal none_came, e)

/-- Serves a connection. -/
def serve (e : Engine) (vitals : Vitals) (feed : Wire.Feed) : Option Response × Engine :=
  e.answer vitals (Wire.readFrame .empty feed).1

/-- Serves connections in the order in which they were accepted. -/
def serveAll (e : Engine) (vitals : Vitals) : List Wire.Feed → List (Option Response) × Engine
  | [] => ([], e)
  | feed :: rest =>
    let (response, e) := e.serve vitals feed
    let (responses, e) := e.serveAll vitals rest
    (response :: responses, e)

end Engine

end SnippetKernel
