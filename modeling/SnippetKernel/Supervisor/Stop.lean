import SnippetKernel.Process.Owners
import SnippetKernel.Supervisor.Start

/-! Stopping a kernel. -/
namespace SnippetKernel

namespace Supervisor

/-- Ends processes one after another; whether one of them was running and is gone. One that fails to end
does not keep the next from being tried. -/
def terminateAll : List Pid → Host Bool
  | [] => return false
  | pid :: rest => do
    let outcome ← ((Target.foreign pid).terminate grace).run
    let others ← terminateAll rest
    return (outcome.toOption.any (·.stopped)) || others

/-- Ends the child and then, if the endpoint still answers, every other process that listens on the port.
Whether anything was stopped. -/
def stop (s : Supervisor) : Errand Bool := do
  let child ← terminateChild
  if ← s.isReachable startProbe then
    let own ← Host.ask .ownPid
    let owners := Owners.ofOutput (← Host.ask (.portOwners s.endpoint.port))
    let others ← terminateAll (owners.filter (· ≠ own))
    return child || others
  return child

/-- Leaves time for the port to become free. -/
def restartDelay : Duration := .ofSeconds 2

/-- Stops the kernel and starts another; its bindings are lost. -/
def restart (s : Supervisor) : Errand Started := do
  let _ ← s.stop
  Host.ask (.pause restartDelay)
  s.startWithRetries 3 (.ofSeconds 1)

end Supervisor

/-- Stops the kernel when its user goes away, once. -/
structure Hook where
  fired : Bool
  deriving DecidableEq

namespace Hook

def armed : Hook := ⟨false⟩

/-- Whether the kernel is to be stopped now, and the hook from then on. -/
def fire (h : Hook) : Bool × Hook := (!h.fired, ⟨true⟩)

/-- The kernel will go on running. -/
def disarm (_ : Hook) : Hook := ⟨true⟩

/-- Stops the kernel unless the hook has fired before. -/
def stop (h : Hook) (s : Supervisor) : Errand Bool :=
  if h.fire.1 then s.stop else pure false

end Hook

end SnippetKernel
