import SnippetKernel.Host.Command
import SnippetKernel.Number.Bounded
import SnippetKernel.Text.Blank
import SnippetKernel.Text.Lines

/-! The processes that a listing names. -/
namespace SnippetKernel.Owners

/-- The process that a line names. A line that is no text, or holds anything beside a number, names none. -/
def pid? (line : List UInt8) : Option Pid := do
  let text ← Text.textOf? line
  let n ← Bounded.ofText? 4294967296 (Text.trim text)
  return UInt32.ofNat n

/-- Adds a number to increasing ones, unless it is among them. -/
def insert (pid : Pid) : List Pid → List Pid
  | [] => [pid]
  | other :: rest =>
    if pid < other then pid :: other :: rest
    else if pid = other then other :: rest
    else other :: insert pid rest

/-- The processes that the listing names, each once and in increasing order. -/
def ofListing (listing : ByteArray) : List Pid :=
  ((Text.linesOf listing).filterMap pid?).foldr insert []

theorem mem_insert {pid p : Pid} {pids : List Pid} : p ∈ insert pid pids ↔ p = pid ∨ p ∈ pids := by
  induction pids with
  | nil => simp [insert]
  | cons other rest ih =>
    simp only [insert]
    split
    · simp
    · split
      · next same => simp [same]
      · simp only [List.mem_cons, ih]
        constructor
        · rintro (h | h | h) <;> simp [h]
        · rintro (h | h | h) <;> simp [h]

/-- A tool that fails or is missing names no process. -/
def ofOutput : Option ByteArray → List Pid
  | none => []
  | some listing => ofListing listing

end SnippetKernel.Owners
