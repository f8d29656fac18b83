import SnippetKernel.Value.Basic

/-! Where written text goes: to the streams of the process, or into buffers while a capture is open.
Captures nest; closing one puts back what was there when it was opened. -/
namespace SnippetKernel

/-- Where the text of a stream goes. -/
inductive Sink where
  /-- To the streams of the process, whose readers are not our concern. -/
  | process
  | buffer (text : String)
  deriving DecidableEq

namespace Sink

def write (text : String) : Sink → Sink
  | process => process
  | buffer held => buffer (held ++ text)

/-- What has been collected; none of it is kept. -/
def take : Sink → String × Sink
  | process => ("", process)
  | buffer held => (held, buffer "")

def isBuffer : Sink → Bool
  | process => false
  | buffer _ => true

end Sink

structure Streams where
  out : Sink
  err : Sink
  deriving DecidableEq

/-- The text that a capture collected. -/
structure Captured where
  stdout : String
  stderr : String
  deriving DecidableEq

/-- An open capture: where text went before. -/
structure Capture where
  saved : Streams
  deriving DecidableEq

namespace Streams

def start : Streams := ⟨.process, .process⟩

def write (s : Streams) (stream : Stream) (text : String) : Streams :=
  match stream with
  | .out => { s with out := s.out.write text }
  | .err => { s with err := s.err.write text }

/-- Several pieces, one after the other. -/
def writeAll (s : Streams) (pieces : Array (Stream × String)) : Streams :=
  pieces.foldl (fun s (stream, text) => s.write stream text) s

def isCapturing (s : Streams) : Bool := s.out.isBuffer

/-- Opens a capture with empty buffers. -/
def capture (s : Streams) : Capture × Streams := (⟨s⟩, ⟨.buffer "", .buffer ""⟩)

/-- What was captured since the capture was opened, or since it was last taken. -/
def take (s : Streams) : Captured × Streams :=
  let (stdout, out) := s.out.take
  let (stderr, err) := s.err.take
  (⟨stdout, stderr⟩, ⟨out, err⟩)

end Streams

namespace Capture

/-- Puts back what the capture replaced. -/
def close (c : Capture) : Streams := c.saved

end Capture

end SnippetKernel
