import SnippetKernel.Supervisor.Start

/-! What callers ask of the kernel. Giving up waiting does not stop what the kernel was asked to do. -/
namespace SnippetKernel

structure Caller where
  supervisor : Supervisor
  /-- How long the answer to an execution is waited for. -/
  deadline : Duration := .ofSeconds 60
  /-- Without it only an execution starts a kernel. -/
  autoStart : Bool := true

namespace Caller

def startAttempts : Nat := 3

def startDelay : Duration := .ofSeconds 1

/-- Precedes the second try of an execution. -/
def emptyDelay : Duration := .ofSeconds 3

def commandAttempts : Nat := 3

def refusedDelay : Duration := .ofSeconds 1

def busyDelay : Duration := .ofSeconds 2

/-- What to wait before a command is tried again. -/
def retryDelay : Failure → Duration
  | .busy => busyDelay
  | _ => refusedDelay

/-- An exchange, and a second one if the first was closed without an answer. -/
def twice (once : Host (Except Failure Response)) : Errand Response := do
  match ← ExceptT.lift once with
  | .error .unresponsive =>
    Host.ask (.pause emptyDelay)
    .mk once
  | outcome => .ofOutcome outcome

/-- An exchange, and up to `more` others while the failures are retryable. -/
def retrying (once : Host (Except Failure Response)) : (more : Nat) → Errand Response
  | 0 => .mk once
  | more + 1 => do
    match ← ExceptT.lift once with
    | .ok response => return response
    | .error failure =>
      if failure.isRetryable then
        Host.ask (.pause (retryDelay failure))
        retrying once more
      else throw failure

def actionOf : Response → String
  | .execute _ => "execute"
  | .inspect _ => "inspect"
  | .reset _ => "reset"
  | .status _ => "status"
  | .error .. => "error"

def unexpected (expected : String) (got : Response) : Failure :=
  .protocol ("expected " ++ expected ++ " response, got " ++ actionOf got)

def exchange (c : Caller) (r : Request) (p : Patience) : Host (Except Failure Response) :=
  Host.ask (.exchange c.supervisor.endpoint r p)

def ensureRunning (c : Caller) : Errand Unit := c.supervisor.ensureRunning startAttempts startDelay

/-- Runs code, starting the kernel first if need be. -/
def execute (c : Caller) (code : String) : Errand ExecuteResult := do
  c.ensureRunning
  let response ← twice (c.exchange (.execute code) { read := .ofSeconds 30, whole := c.deadline })
  match ← Errand.ofOutcome response.result with
  | .execute result => return result
  | other => throw (unexpected "execute" other)

/-- A request that is answered at once. -/
def command (c : Caller) (r : Request) (p : Patience) : Errand Response := do
  if c.autoStart then c.ensureRunning
  else if !(← c.supervisor.isRunning) then throw (.unreachable c.supervisor.endpoint.text)
  let response ← retrying (c.exchange r p) (commandAttempts - 1)
  .ofOutcome response.result

/-- For answers that take no time. -/
def briefly : Patience := { read := .ofSeconds 5, whole := .ofSeconds 5 }

/-- A reset may have to wait for what runs before it. -/
def patiently : Patience := { read := .ofSeconds 300, whole := .ofSeconds 300 }

def inspect (c : Caller) (pattern : String) : Errand InspectResult := do
  match ← c.command (.inspect pattern) briefly with
  | .inspect result => return result
  | other => throw (unexpected "inspect" other)

def reset (c : Caller) : Errand ResetResult := do
  match ← c.command .reset patiently with
  | .reset result => return result
  | other => throw (unexpected "reset" other)

def status (c : Caller) : Errand StatusResult := do
  match ← c.command .status briefly with
  | .status result => return result
  | other => throw (unexpected "status" other)

end Caller

end SnippetKernel
