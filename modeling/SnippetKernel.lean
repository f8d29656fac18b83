import SnippetKernel.Main
import SnippetKernel.Proofs.Wire.Extension
import SnippetKernel.Proofs.Wire.Written
import SnippetKernel.Proofs.Wire.Framing
import SnippetKernel.Proofs.Wire.ReadBack
import SnippetKernel.Proofs.Wire.Documents
import SnippetKernel.Kernel.Listener
import SnippetKernel.Proofs.Kernel.Serialized
import SnippetKernel.Proofs.Kernel.Splitting
import SnippetKernel.Proofs.Kernel.Passive
import SnippetKernel.Proofs.Value.InsertionOrder
import SnippetKernel.Proofs.Kernel.Afresh
import SnippetKernel.Proofs.Source.Tower
import SnippetKernel.Proofs.Program.Data
import SnippetKernel.Proofs.Program.Spared
import SnippetKernel.Proofs.Caller.Retries
import SnippetKernel.Proofs.Kernel.Uncaught
import SnippetKernel.Proofs.Source.Positions
import SnippetKernel.Proofs.Supervisor.Overlapping
import SnippetKernel.Proofs.Supervisor.Firing
import SnippetKernel.Proofs.Source.Placement
import SnippetKernel.Proofs.Program.Codes
import SnippetKernel.Proofs.Kernel.Flows
import SnippetKernel.Proofs.Value.Ordinary
import SnippetKernel.Proofs.Program.Refusals
import SnippetKernel.Proofs.Source.Formed
import SnippetKernel.Proofs.Program.Faults
import SnippetKernel.Proofs.Program.SyntaxErrors
import SnippetKernel.Proofs.Program.Targets
import SnippetKernel.Proofs.Kernel.Accepted
import SnippetKernel.Proofs.Wire.SizeLimit
import SnippetKernel.Proofs.Value.Selection
import SnippetKernel.Proofs.Program.Slicing
import SnippetKernel.Proofs.Value.SliceChanges
import SnippetKernel.Proofs.Wire.Lexemes
import SnippetKernel.Proofs.Wire.Tokens
import SnippetKernel.Proofs.Wire.MemberOrder
import SnippetKernel.Proofs.Program.RangeReads
import SnippetKernel.Proofs.Value.Comparison
import SnippetKernel.Proofs.Value.Containment
import SnippetKernel.Proofs.Value.Structure
import SnippetKernel.Proofs.Value.Identity
import SnippetKernel.Proofs.Program.Extremes
import SnippetKernel.Proofs.Value.Rendering
import SnippetKernel.Proofs.Value.DictKeys
import SnippetKernel.Proofs.Program.IntegerOperations
import SnippetKernel.Proofs.Program.IntegerTexts
import SnippetKernel.Proofs.Program.Binding
import SnippetKernel.Proofs.Program.Untouched
import SnippetKernel.Proofs.Program.FormattedIntegers
import SnippetKernel.Proofs.Kernel.Preview
import SnippetKernel.Proofs.Kernel.Inspection
import SnippetKernel.Proofs.Kernel.Capturing
import SnippetKernel.Proofs.Value.Emptying
import SnippetKernel.Proofs.Source.Layout
import SnippetKernel.Proofs.Source.Progress
import SnippetKernel.Proofs.Source.Precedence
import SnippetKernel.Proofs.Program.TextSearch
import SnippetKernel.Proofs.Process.Escalation
import SnippetKernel.Proofs.Supervisor.Sweep
import SnippetKernel.Proofs.Supervisor.Races
import SnippetKernel.Proofs.Session.Submissions
