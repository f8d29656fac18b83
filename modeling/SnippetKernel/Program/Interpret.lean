import SnippetKernel.Program.Call
import SnippetKernel.Source.Parser

/-! From the text of a program to what it did. -/
namespace SnippetKernel

/-- The exception that a run reports when it did not come to its end. -/
def Halt.report : Halt → Fault
  | .fault f => f
  | .crash message => .raised .internal message
  | .turns => .raised .internal "a loop did not end"

/-- What a run left behind, and why it ended early if it did. -/
structure Ran where
  halt : Option Halt
  machine : Machine

namespace Ran

def fault? (r : Ran) : Option Fault := r.halt.map (·.report)

end Ran

namespace Machine

/-- Runs the statements of a program. -/
def perform (m : Machine) (limits : Limits) (body : List Source.Stmt) : Ran :=
  match Run.program limits body m with
  | .ok _ m => ⟨none, m⟩
  | .error halt m => ⟨some halt, m⟩

/-- Reads a text and runs it. A text that is no program does nothing. -/
def interpret (m : Machine) (limits : Limits) (source : String) : Ran :=
  match Source.parse source with
  | .error e => ⟨some (.fault (.ofSyntaxError e)), m⟩
  | .ok body => m.perform limits body

end Machine

end SnippetKernel
