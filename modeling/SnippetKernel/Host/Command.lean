import SnippetKernel.Host.Dialogue

/-! Processes, as the operating system sees them. -/
namespace SnippetKernel

abbrev Pid := UInt32

inductive Signal where
  /-- Asks a process to end. -/
  | terminate
  | kill
  deriving DecidableEq

/-- How a process ended. -/
inductive ExitStatus where
  | exited (code : Nat)
  | signalled (s : Signal)
  deriving DecidableEq

namespace ExitStatus

def code? : ExitStatus → Option Int
  | exited code => some code
  | signalled _ => none

def text : ExitStatus → String
  | exited code => "exit status: " ++ toString code
  | signalled .terminate => "signal: 15 (SIGTERM)"
  | signalled .kill => "signal: 9 (SIGKILL)"

end ExitStatus

/-- What is known of a child. -/
inductive Poll where
  | running
  | ended (s : ExitStatus)
  | unknown
  deriving DecidableEq

/-- An error by its number, where that is none of those that are told apart. -/
structure OtherError where
  number : Nat
  symbol : String
  description : String
  other : number ∉ [1, 2, 3, 13, 20, 21]
  deriving DecidableEq

/-- Why the operating system refuses. -/
inductive OsError where
  | notPermitted
  | notFound
  | noProcess
  | accessDenied
  | notDirectory
  | isDirectory
  | other (e : OtherError)
  deriving DecidableEq

namespace OsError

def number : OsError → Nat
  | notPermitted => 1
  | notFound => 2
  | noProcess => 3
  | accessDenied => 13
  | notDirectory => 20
  | isDirectory => 21
  | other e => e.number

def symbol : OsError → String
  | notPermitted => "EPERM"
  | notFound => "ENOENT"
  | noProcess => "ESRCH"
  | accessDenied => "EACCES"
  | notDirectory => "ENOTDIR"
  | isDirectory => "EISDIR"
  | other e => e.symbol

def description : OsError → String
  | notPermitted => "Operation not permitted"
  | notFound => "No such file or directory"
  | noProcess => "No such process"
  | accessDenied => "Permission denied"
  | notDirectory => "Not a directory"
  | isDirectory => "Is a directory"
  | other e => e.description

def text (e : OsError) : String := e.description ++ " (os error " ++ toString e.number ++ ")"

def symbolText (e : OsError) : String := e.symbol ++ ": " ++ e.description

end OsError

/-- A program and what it is started with. -/
structure Command where
  program : String
  arguments : List String
  /-- Added to the environment of the caller, in the order of the names. -/
  environment : List (String × String)
  directory : String
  /-- Takes what the program prints. -/
  logFile : String

end SnippetKernel
