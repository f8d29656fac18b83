import SnippetKernel.Host.Ask

/-! Ending processes: first by asking, then by force. -/
namespace SnippetKernel

/-- How the request to end a process came out. -/
inductive Termination where
  /-- Nothing was running. -/
  | notRunning
  /-- It ended within the period of grace. -/
  | graceful
  /-- It ended by force. -/
  | killed
  /-- It was still running after that. -/
  | survived
  deriving DecidableEq

/-- A running process was brought down. -/
def Termination.stopped : Termination → Bool
  | graceful | killed => true
  | notRunning | survived => false

namespace Pid

/-- The greatest number of a single process. Zero and greater numbers address groups of processes. -/
def greatest : Pid := 2147483647

/-- Whether this is the number of a process that is alive. -/
def isAlive (pid : Pid) : Host Bool :=
  if pid = 0 ∨ greatest < pid then pure false else Host.ask (.isAlive pid)

end Pid

/-- A process, and how its end is noticed. -/
inductive Target where
  | child (pid : Pid)
  | foreign (pid : Pid)
  deriving DecidableEq

namespace Target

def pid : Target → Pid
  | child pid | foreign pid => pid

def isRunning : Target → Host Bool
  | child pid => do
    match ← Host.ask (.poll pid) with
    | .running => return true
    | .ended _ => return false
    | .unknown => Pid.isAlive pid
  | foreign pid => Pid.isAlive pid

/-- The pause between two looks at a process that is to end. -/
def lookInterval : Duration := .ofMillis 100

/-- How long a process may take to end by force. -/
def settlePeriod : Duration := .ofSeconds 1

/-- Looks until the process has ended, or until a look is over when the deadline has passed. The clock has come to
`reached`, so that it does not show less. -/
def lookUntil (t : Target) (deadline reached : Nat) : Host Bool := do
  if ← t.isRunning then
    let reading ← Host.ask .clock
    if deadline ≤ max reached reading.nanos then return false
    else
      Host.ask (.pause lookInterval)
      lookUntil t deadline (max reached reading.nanos + lookInterval.nanos)
  else return true
termination_by deadline - reached
decreasing_by
  have : 0 < lookInterval.nanos := by decide
  omega

/-- Looks until the process has ended or the time is up. -/
def waitForExit (t : Target) (limit : Duration) : Host Bool := do
  let begun ← Host.ask .clock
  t.lookUntil (begun.nanos + limit.nanos) begun.nanos

/-- Ends a process that is running. -/
def stop (t : Target) (grace : Duration) : Errand Termination := do
  if Pid.greatest < t.pid then throw (.other ("PID " ++ toString t.pid.toNat ++ " out of range"))
  match ← Host.ask (.signal t.pid .terminate) with
  | .error .noProcess => return .notRunning
  | _ =>
    if ← waitForExit t grace then return .graceful
    match ← Host.ask (.signal t.pid .kill) with
    | .error .noProcess | .ok () =>
      return if ← waitForExit t settlePeriod then .killed else .survived
    | .error e =>
      throw (.other ("Failed to kill process " ++ toString t.pid.toNat ++ ": " ++ e.symbolText))

/-- Ends a process, if it is running. -/
def terminate (t : Target) (grace : Duration) : Errand Termination := do
  if ← t.isRunning then stop t grace else return .notRunning

end Target

end SnippetKernel
