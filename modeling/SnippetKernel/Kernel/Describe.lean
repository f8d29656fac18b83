import SnippetKernel.Kernel.Result
import SnippetKernel.Number.Layout
import SnippetKernel.Text.Case
import SnippetKernel.Text.Search
import SnippetKernel.Value.Repr

/-! How bindings and figures are shown to a caller. -/
namespace SnippetKernel

namespace Describe

def kilobyte : UInt64 := 1024

def megabyte : UInt64 := 1024 * 1024

/-- An amount in a unit, with one place. -/
def inUnit (bytes unit : UInt64) (name : String) : String :=
  let amount := (Double.ofUInt64 bytes).div (Double.ofUInt64 unit)
  String.ofList (Digits.fixedText (Digits.atPlace amount 1) 1) ++ " " ++ name

def size (bytes : UInt64) : String :=
  if bytes < kilobyte then toString bytes.toNat ++ " B"
  else if bytes < megabyte then inUnit bytes kilobyte "KB"
  else inUnit bytes megabyte "MB"

/-- Whole minutes and seconds. -/
def uptime (seconds : Nat) : String := toString (seconds / 60) ++ "m " ++ toString (seconds % 60) ++ "s"

def memory : Option UInt64 → String
  | some bytes => inUnit bytes megabyte "MB"
  | none => "unavailable"

/-- The name contains the pattern; capital letters and small ones are the same. -/
def isMatch (name pattern : String) : Bool :=
  pattern.isEmpty ||
    Text.contains (Text.toLower pattern).toList (Text.toLower name).toList

/-- How many characters of a value's text a preview shows. -/
def previewLength : Nat := 50

/-- The beginning of a value's text. -/
def preview (h : Cells) (v : Value) : String :=
  let text := v.reprWithin h (previewLength * 4 + 4)
  if previewLength < text.length then String.ofList (text.toList.take previewLength) ++ "..." else text

/-- A binding as it is shown. -/
def variable_ (h : Cells) (name : String) (v : Value) : VariableInfo :=
  let bytes := UInt64.ofNat (v.sizeEstimate h)
  ⟨name, v.typeName, bytes, size bytes, preview h v⟩

end Describe

end SnippetKernel
