import SnippetKernel.Process.Termination
import SnippetKernel.Supervisor.Launch

/-! Starting a kernel. A kernel runs if its endpoint accepts connections, whoever started it; so a kernel
that runs already is adopted, not started a second time. -/
namespace SnippetKernel

/-- Starts, watches and stops the kernel of one endpoint. The child that it started is held outside, and is
the same for all copies. -/
structure Supervisor where
  settings : Settings
  launch : Launch
  /-- How often a kernel that was started is looked for. -/
  attempts : Nat := 50
  interval : Duration := .ofMillis 200
  attempts_pos : 0 < attempts := by decide

/-- How a start succeeded. -/
inductive Started where
  /-- A kernel was running already. -/
  | adopted
  | spawned (pid : Pid)
  deriving DecidableEq

/-- What the kernel appears to do. -/
inductive Condition where
  | stopped
  | starting
  | running
  /-- The child is alive, but its endpoint does not answer. -/
  | unresponsive
  deriving DecidableEq

def Condition.text : Condition → String
  | stopped => "stopped"
  | starting => "starting"
  | running => "running"
  | unresponsive => "unresponsive"

structure SupervisorStatus where
  condition : Condition
  /-- The child, if one is held. -/
  pid? : Option Pid
  endpoint : Endpoint

namespace Supervisor

def ofSettings (s : Settings) : Supervisor := { settings := s, launch := .ofSettings s }

/-- A kernel that was started is looked for at least once. -/
def withPolling (s : Supervisor) (attempts : Nat) (interval : Duration) : Supervisor :=
  { s with attempts := max attempts 1, interval, attempts_pos := by omega }

def endpoint (s : Supervisor) : Endpoint := s.settings.endpoint

/-- How long a kernel is waited for that is being started or stopped. -/
def startProbe : Duration := .ofSeconds 1

/-- How long a kernel is waited for that ought to be running. -/
def livenessProbe : Duration := .ofSeconds 3

/-- How long a process may take to end when asked. -/
def grace : Duration := .ofSeconds 3

def isReachable (s : Supervisor) (within : Duration) : Host Bool :=
  Host.ask (.isReachable s.endpoint within)

/-- Whether the child is held and alive. -/
def isChildAlive : Host Bool := do
  match ← Host.ask .checkHeld with
  | .nothing | .ended _ _ => return false
  | .running _ => return true
  | .unknown pid => Pid.isAlive pid

/-- How the child that was held ended, if it did. -/
def childExit? : Host (Option ExitStatus) := do
  match ← Host.ask .checkHeld with
  | .ended _ status => return some status
  | .nothing | .running _ | .unknown _ => return none

/-- The endpoint answers, or may do so soon. -/
def isRunning (s : Supervisor) : Host Bool := do
  if ← s.isReachable livenessProbe then return true
  isChildAlive

def condition (s : Supervisor) : Host Condition := do
  if ← s.isReachable livenessProbe then return .running
  if ← Host.ask .isStarting then return .starting
  if ← isChildAlive then return .unresponsive
  return .stopped

def status (s : Supervisor) : Host SupervisorStatus := do
  let condition ← s.condition
  return ⟨condition, ← Host.ask .held, s.endpoint⟩

/-- Ends the child that is held. It is no longer held then, whatever comes of it. -/
def terminateChild : Errand Bool := do
  match ← Host.ask .takeHeld with
  | none => return false
  | some pid =>
    let outcome ← (Target.child pid).terminate grace
    return outcome.stopped

/-- Looks for the kernel that was started until it listens or has ended. -/
def await (s : Supervisor) (pid : Pid) : (left : Nat) → Errand Started
  | 0 => do
    let _ ← terminateChild
    throw (.startFailed ("kernel did not listen on " ++ s.endpoint.text ++ " after "
      ++ toString s.attempts ++ " attempts (see " ++ s.launch.logFile ++ ")") none)
  | left + 1 => do
    if ← s.isReachable startProbe then return .spawned pid
    match ← childExit? with
    | some status =>
      throw (.startFailed ("kernel exited with " ++ status.text ++ " before listening on "
        ++ s.endpoint.text ++ " (see " ++ s.launch.logFile ++ ")") status.code?)
    | none =>
      Host.ask (.pause s.interval)
      await s pid left

/-- Starts a process and waits until it listens. A child that is alive but does not answer is ended
first. -/
def spawnAndAwait (s : Supervisor) : Errand Started := do
  if ← isChildAlive then
    let _ ← terminateChild
  let pid ← s.launch.spawn
  Host.ask (.hold pid)
  s.await pid s.attempts

/-- Makes the endpoint answer. -/
def start (s : Supervisor) : Errand Started := do
  if ← s.isReachable startProbe then return .adopted
  Host.ask (.setStarting true)
  let outcome ← s.spawnAndAwait.attempt
  Host.ask (.setStarting false)
  .ofOutcome outcome

/-- Tries again after a failure, `more` times at most. -/
def startRetrying (s : Supervisor) (delay : Duration) : (more : Nat) → Errand Started
  | 0 => s.start
  | more + 1 => do
    match ← s.start.attempt with
    | .ok started => return started
    | .error _ =>
      Host.ask (.pause delay)
      s.startRetrying delay more

/-- Starts, in at most so many attempts and in at least one. -/
def startWithRetries (s : Supervisor) (attempts : Nat) (delay : Duration) : Errand Started :=
  s.startRetrying delay (attempts - 1)

/-- Does nothing if the kernel runs. -/
def ensureRunning (s : Supervisor) (attempts : Nat) (delay : Duration) : Errand Unit := do
  if ← s.isRunning then return ()
  let _ ← s.startWithRetries attempts delay

end Supervisor

end SnippetKernel
