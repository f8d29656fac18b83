import SnippetKernel.Kernel.Duration
import SnippetKernel.Text.Escaped

/-! What can go wrong between a caller and the kernel. An exception of submitted code is not among
these: it travels back in an ordinary answer. -/
namespace SnippetKernel

inductive Failure where
  | protocol (message : String)
  | frameTooLarge (size max : Nat)
  | json (message : String)
  /-- The kernel answered with an error document. -/
  | remote (message : String)
  | unreachable (address : String)
  | startFailed (message : String) (exitCode : Option Int)
  | unresponsive
  | busy
  | timeout (after : Duration)
  | io (message : String) (path : Option String)
  | config (message : String)
  | other (message : String)
  deriving DecidableEq

namespace Failure

/-- The name of the kind of failure. -/
def kind : Failure → String
  | protocol _ => "Protocol"
  | frameTooLarge .. => "FrameTooLarge"
  | json _ => "Json"
  | remote _ => "Remote"
  | unreachable _ => "Unreachable"
  | startFailed .. => "StartFailed"
  | unresponsive => "Unresponsive"
  | busy => "Busy"
  | timeout _ => "Timeout"
  | io .. => "Io"
  | config _ => "Config"
  | other _ => "Other"

def pathText : Option String → String
  | none => "None"
  | some path => "Some(" ++ Text.escapedPath path ++ ")"

def message : Failure → String
  | protocol message => "Protocol error: " ++ message
  | frameTooLarge size max =>
    "Frame size " ++ toString size ++ " exceeds maximum " ++ toString max
  | json message => "JSON error: " ++ message
  | remote message => "Kernel error: " ++ message
  | unreachable address => "Kernel unreachable at " ++ address
  | startFailed message _ => "Kernel start failed: " ++ message
  | unresponsive => "Kernel unresponsive: connection closed without a reply"
  | busy => "Kernel busy: connection reset while another request was running"
  | timeout after =>
    "Timed out after " ++ after.text ++ "; the execution may still be running in the kernel"
  | io message path => "IO error at " ++ pathText path ++ ": " ++ message
  | config message => "Configuration error: " ++ message
  | other message => message

/-- Whether the whole exchange is worth another try. -/
def isRetryable : Failure → Bool
  | unreachable _ | unresponsive | busy => true
  | _ => false

end Failure

end SnippetKernel
