import SnippetKernel.Endpoint.Address
import SnippetKernel.Kernel.Failure
import SnippetKernel.Number.Bounded
import SnippetKernel.Text.Blank
import SnippetKernel.Text.Path

/-! What differs from one installation to the next: where the kernel listens, which program it is, and
where it keeps its files. -/
namespace SnippetKernel

structure Settings where
  /-- The one endpoint a kernel may listen on. -/
  endpoint : Endpoint
  kernelProgram : String
  stateDirectory : String

/-- Directories of the user and of the running program. -/
structure Surroundings where
  programs : String
  data : String

namespace Settings

def defaultPort : UInt16 := 9999

/-- The address that a variable asks for. -/
def host (name raw : String) : Except Failure Address :=
  match Address.ofText? (Text.trim raw) with
  | some address => .ok address
  | none => .error (.config (name ++ " '" ++ raw ++ "' is not an IP address: invalid IP address syntax"))

/-- The port that a variable asks for. -/
def port (name raw : String) : Except Failure UInt16 :=
  match Bounded.ofText 65536 (Text.trim raw) with
  | .ok n => .ok (UInt16.ofNat n)
  | .error refusal => .error (.config (name ++ " '" ++ raw ++ "' is not a port: " ++ refusal.message))

/-- What a variable asks for, or else what holds without it. -/
def orElse {α : Type} (variable_ : Option String) (read : String → Except Failure α) (default_ : α) :
    Except Failure α :=
  match variable_ with
  | some raw => read raw
  | none => .ok default_

/-- The settings that the environment variables ask for. -/
def ofVariables (s : Surroundings) (variable_ : String → Option String) : Except Failure Settings := do
  let host ← orElse (variable_ "HEARTH_HOST") (host "HEARTH_HOST") .loopback
  let port ← orElse (variable_ "HEARTH_PORT") (port "HEARTH_PORT") defaultPort
  return {
    endpoint := ⟨host, port⟩
    kernelProgram := (variable_ "HEARTH_KERNEL_BIN").getD (Path.join s.programs "hearth-kernel")
    stateDirectory := (variable_ "HEARTH_STATE_DIR").getD (Path.join s.data "hearth") }

/-- Takes what the kernel prints. -/
def logFile (s : Settings) : String := Path.join s.stateDirectory "kernel.log"

/-- The directory in which the kernel runs. -/
def workspace (s : Settings) : String := Path.join s.stateDirectory "workspace"

end Settings

end SnippetKernel
