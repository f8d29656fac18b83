import SnippetKernel.Caller.Exchange
import SnippetKernel.Host.Command

/-! What callers ask of the machine that they run on. -/
namespace SnippetKernel

inductive Ask where
  /-- Makes a directory, and those in which it lies. -/
  | makeDirectory (path : String)
  /-- Opens a file for additions, making it if need be. -/
  | openLog (path : String)
  | readFile (path : String)
  /-- Reads all of the standard input. -/
  | readInput
  /-- Writes to the standard output. -/
  | write (text : String)
  | spawn (c : Command)
  /-- Whether a child has ended. -/
  | poll (pid : Pid)
  /-- Whether a process can be signalled. -/
  | isAlive (pid : Pid)
  | signal (pid : Pid) (s : Signal)
  | ownPid
  /-- What the tool prints that lists the processes which listen on a port. -/
  | portOwners (port : UInt16)
  /-- Whether the endpoint accepts connections. -/
  | isReachable (e : Endpoint) (within : Duration)
  | exchange (e : Endpoint) (r : Request) (p : Patience)
  | pause (d : Duration)
  /-- How long a clock has run that is never set back. -/
  | clock
  /-- Looks after the child that is held, and forgets it if it has ended. -/
  | checkHeld
  | held
  | hold (pid : Pid)
  /-- Takes the child that is held; then none is. -/
  | takeHeld
  | setStarting (b : Bool)
  | isStarting

/-- The child that is held, when it is looked after. -/
inductive Held where
  | nothing
  | running (pid : Pid)
  /-- It had ended, and is no longer held. -/
  | ended (pid : Pid) (s : ExitStatus)
  | unknown (pid : Pid)
  deriving DecidableEq

/-- What a question is answered with. -/
@[reducible] def Ask.Answer : Ask → Type
  | makeDirectory _ | openLog _ => Except OsError Unit
  | readFile _ => Except OsError ByteArray
  | readInput => ByteArray
  | write _ => Unit
  | spawn _ => Except OsError Pid
  | poll _ => Poll
  | isAlive _ => Bool
  | signal _ _ => Except OsError Unit
  | ownPid => Pid
  | portOwners _ => Option ByteArray
  | isReachable _ _ => Bool
  | exchange _ _ _ => Except Failure Response
  | pause _ => Unit
  | clock => Duration
  | checkHeld => Held
  | held | takeHeld => Option Pid
  | hold _ => Unit
  | setStarting _ => Unit
  | isStarting => Bool

/-- A computation on a machine. -/
abbrev Host (α : Type) : Type := Dialogue Ask.Answer α

/-- A computation on a machine that can fail. -/
abbrev Errand (α : Type) : Type := ExceptT Failure (Dialogue Ask.Answer) α

namespace Host

def ask (q : Ask) : Host q.Answer := .question q

end Host

namespace Errand

/-- Goes on with a failure as with any other outcome. -/
def attempt {α : Type} (t : Errand α) : Errand (Except Failure α) := ExceptT.lift t.run

def ofOutcome {α : Type} (outcome : Except Failure α) : Errand α := ExceptT.mk (pure outcome)

end Errand

end SnippetKernel
