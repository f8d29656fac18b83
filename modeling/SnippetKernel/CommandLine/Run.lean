import SnippetKernel.CommandLine.Arguments
import SnippetKernel.Session.Run

/-! What the commands of the caller do, what they print, and how they exit. -/
namespace SnippetKernel.CommandLine

open Session (ExitCode Typed succeeded failed writeLine)

def usageCode : ExitCode := 2

def Refusal.exitCode : Refusal → ExitCode
  | .help => succeeded
  | .usage => usageCode

def exitCode (success : Bool) : ExitCode := if success then succeeded else failed

/-- The code to execute; nothing if it cannot be read or is no text. -/
def code? : Source → Host (Option String)
  | .given code => return some code
  | .file path => do
    match ← Host.ask (.readFile path) with
    | .ok bytes => return String.fromUTF8? bytes
    | .error _ => return none
  | .input => do return String.fromUTF8? (← Host.ask .readInput)

/-- Prints a failure. -/
def report (failure : Failure) : Host ExitCode := do
  writeLine (Report.failure failure)
  return failed

/-- Prints a failure of a command. That no kernel is running is none. -/
def reportCommand (action : SnippetKernel.Action) : Failure → Host ExitCode
  | .unreachable _ => do
    writeLine (Report.notRunning action)
    return succeeded
  | failure => report failure

/-- Prints an outcome. -/
def conclude {α : Type} (outcome : Except Failure α) (shown : α → String) (success : α → Bool)
    (onFailure : Failure → Host ExitCode) : Host ExitCode := do
  match outcome with
  | .ok a =>
    writeLine (shown a)
    return exitCode (success a)
  | .error failure => onFailure failure

/-- Runs a command. `typed` is what is typed if the command is a session. -/
def run (s : Settings) (typed : List Typed) : Action → Host ExitCode
  | .execute source deadline => do
    match ← code? source with
    | none => return failed
    | some code =>
      let caller : Caller := { supervisor := .ofSettings s, deadline }
      conclude (← (caller.execute code).run) Report.execute (·.success) report
  | .inspect pattern => do
    conclude (← (commands.inspect pattern).run) (Report.inspect · pattern) (fun _ => true)
      (reportCommand .inspect)
  | .reset => do
    conclude (← commands.reset.run) Report.reset (·.success) (reportCommand .reset)
  | .status => do
    conclude (← commands.status.run) Report.status (fun _ => true) (reportCommand .status)
  | .start => do
    let shown : Started → String
      | .adopted => "Kernel already running on " ++ s.endpoint.text
      | .spawned pid => "Kernel started on " ++ s.endpoint.text ++ " (PID " ++ toString pid.toNat ++ ")"
    conclude (← supervisor.start.run) shown (fun _ => true) report
  | .stop => do
    let shown (stopped : Bool) : String :=
      if stopped then "Kernel stopped" else "No kernel running on " ++ s.endpoint.text
    conclude (← supervisor.stop.run) shown (fun _ => true) (fun _ => return failed)
  | .restart => do
    let shown (_ : Started) : String :=
      "Kernel restarted on " ++ s.endpoint.text ++ ", all variables cleared"
    conclude (← supervisor.restart.run) shown (fun _ => true) report
  | .session deadline => Session.run supervisor deadline typed
where
  supervisor : Supervisor := .ofSettings s
  /-- Does not start a kernel. -/
  commands : Caller := { supervisor, autoStart := false }

/-- What a command line asks for, and the settings under which it does; or how it exits without having done
anything, and what there is to say about that. -/
def prepare (surroundings : Surroundings) (variable_ : String → Option String) (arguments : List String) :
    Except (ExitCode × String) (Settings × Action) :=
  match ofArguments arguments with
  | .error refusal => .error (refusal.exitCode, usage)
  | .ok parsed =>
    match Settings.ofVariables surroundings variable_ with
    | .error failure => .error (failed, failure.message)
    | .ok settings => .ok (parsed.choices.settings settings, parsed.action)

/-- Does what a command line asks for. -/
def invoke (surroundings : Surroundings) (variable_ : String → Option String) (arguments : List String)
    (typed : List Typed) : Host ExitCode :=
  match prepare surroundings variable_ arguments with
  | .error (code, _) => return code
  | .ok (settings, action) => run settings typed action

end SnippetKernel.CommandLine
