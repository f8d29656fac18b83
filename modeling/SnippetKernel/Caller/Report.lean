import SnippetKernel.Kernel.Failure
import SnippetKernel.Kernel.Result
import SnippetKernel.Wire.Request

/-! What callers are shown of the kernel's answers. -/
namespace SnippetKernel.Report

def lines (parts : List String) : String := "\n".intercalate parts

/-- A part under a heading, unless there is nothing in it. -/
def section_ (heading text : String) : List String :=
  if text.isEmpty then [] else ["--- " ++ heading ++ " ---\n" ++ text]

def execute (r : ExecuteResult) : String :=
  let output := section_ "Output" r.stdout ++ section_ "Stderr" r.stderr
  if r.success then if output.isEmpty then "OK (no output)" else lines ("OK" :: output)
  else
    let error :=
      match r.error with
      | some text => ["--- Error ---\n" ++ text]
      | none => []
    lines ("ERROR execution failed" :: output ++ error)

def status (r : StatusResult) : String :=
  lines ["KERNEL running", "├─ Uptime: " ++ r.uptimeHuman,
    "├─ Variables: " ++ toString r.variableCount.toNat, "└─ Memory: " ++ r.memoryUsage]

def variable_ (v : VariableInfo) : List String :=
  ["├─ " ++ v.name ++ " (" ++ v.typeName ++ ", " ++ v.size ++ ")", "│   └─ " ++ v.preview]

def inspect (r : InspectResult) (pattern : String) : String :=
  if r.count = 0 then
    if pattern.isEmpty then "INSPECT no variables in the kernel (fresh or just reset)"
    else "INSPECT no variables matching '" ++ pattern ++ "'"
  else
    lines (("KERNEL variables (" ++ toString r.count.toNat ++ ")") :: r.bindings.flatMap variable_)

def reset (r : ResetResult) : String := (if r.success then "RESET " else "ERROR ") ++ r.message

/-- For a command that was given while no kernel is running. -/
def notRunning : Action → String
  | .status => "KERNEL not running\n(it starts on the next execute)"
  | .inspect => "INSPECT kernel not running, no variables to show"
  | .reset => "RESET kernel not running, nothing to reset"
  | .execute => "ERROR kernel not running"

/-- A failure, on one line. -/
def failure : Failure → String
  | .timeout after =>
    "TIMEOUT no reply after " ++ after.secondsText
      ++ "s; the code may still be running (use `restart` to stop it)"
  | .unresponsive => "ERROR kernel unresponsive, try again later"
  | .unreachable address => "ERROR kernel not started or connection refused (" ++ address ++ ")"
  | .busy => "ERROR kernel busy, try again later"
  | .startFailed message (some code) =>
    "ERROR kernel failed to start (exit code " ++ toString code ++ "): " ++ message
  | .startFailed message none => "ERROR kernel failed to start: " ++ message
  | .remote message => "ERROR " ++ message
  | other => "FATAL kernel connection error: " ++ other.message

end SnippetKernel.Report
