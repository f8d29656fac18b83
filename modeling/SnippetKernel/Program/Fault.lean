import SnippetKernel.Source.Token
import SnippetKernel.Value.ExceptionKind

/-! Exceptions on their way up the calls, and the traceback that an uncaught one leaves. -/
namespace SnippetKernel

/-- The statement that was running in the call with `depth` calls around it. -/
structure TraceEntry where
  depth : Nat
  line : Nat
  scope : String
  deriving DecidableEq

structure Fault where
  exception : Exception
  /-- The number that the exception carries as a value, once it has been one. -/
  id : Option Nat
  /-- The innermost call comes first. -/
  trace : List TraceEntry
  /-- For a text that is no program: the line where that shows. -/
  syntaxLine : Option Nat
  deriving DecidableEq

namespace Fault

def ofException (e : Exception) (id : Option Nat) : Fault := ⟨e, id, [], none⟩

def raised (kind : ExceptionKind) (message : String) : Fault := ofException ⟨kind, message⟩ none

def ofSyntaxError (e : Source.SyntaxError) : Fault :=
  { raised .syntaxError e.message with syntaxLine := some e.line }

/-- Notes the statement that was running in a call. Only the innermost statement of a call is kept, and a
text that is no program has no calls. -/
def recordFrame (f : Fault) (depth line : Nat) (scope : String) : Fault :=
  if f.syntaxLine.isSome ∨ (f.trace.getLast?.map (·.depth)) = some depth then f
  else { f with trace := f.trace ++ [⟨depth, line, scope⟩] }

/-- The line of the innermost statement. -/
def line? (f : Fault) : Option Nat := f.syntaxLine.or (f.trace.head?.map (·.line))

def summary (f : Fault) : String := f.exception.summary

def location (line : Nat) : String := "  File \"<kernel>\", line " ++ toString line

/-- The traceback: the outermost call first, the exception last. -/
def render (f : Fault) : String :=
  let syntaxLine :=
    match f.syntaxLine with
    | some line => location line ++ "\n"
    | none => ""
  let calls := f.trace.reverse.map fun e => location e.line ++ ", in " ++ e.scope ++ "\n"
  "Traceback (most recent call last):\n" ++ syntaxLine ++ String.join calls ++ f.summary ++ "\n"

end Fault

end SnippetKernel
