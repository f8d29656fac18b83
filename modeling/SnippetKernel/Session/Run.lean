import SnippetKernel.Caller.Call
import SnippetKernel.Caller.Report
import SnippetKernel.Supervisor.Stop
import SnippetKernel.Text.Blank
import SnippetKernel.Text.Lines

/-! An interactive session, line by line. A line that ends in a colon opens a block, which a blank line closes; outside
of blocks, a line that begins with a colon is a command to the session. It owns the kernel: when the session ends, the
kernel is stopped. -/
namespace SnippetKernel.Session

/-! ### What is typed -/

inductive Command where
  | help
  | inspect (pattern : String)
  | status
  | reset
  | restart
  | quit
  | unknown (name : String)
  deriving DecidableEq

/-- The command that is written behind a colon: a name, and behind the first blank what it applies to. -/
def Command.ofText (text : String) : Command :=
  let cs := (Text.trim text).toList
  let name := String.ofList (cs.takeWhile (!Text.isBlank ·))
  match name with
  | "help" | "h" => .help
  | "inspect" | "vars" => .inspect (Text.trim (String.ofList (cs.dropWhile (!Text.isBlank ·))))
  | "status" => .status
  | "reset" => .reset
  | "restart" => .restart
  | "quit" | "exit" | "q" => .quit
  | name => .unknown name

/-- What a line amounts to. -/
inductive Entry where
  /-- Nothing is to be done yet. -/
  | pending
  | code (text : String)
  | command (c : Command)
  deriving DecidableEq

/-- The lines of a block that is still open; without lines no block is open. -/
structure Block where
  lines : List String
  deriving DecidableEq

namespace Block

def empty : Block := ⟨[]⟩

def isOpen (b : Block) : Bool := !b.lines.isEmpty

def text (b : Block) : String := "\n".intercalate b.lines

/-- Takes a line in. -/
def push (b : Block) (line : String) : Entry × Block :=
  let trimmed := (Text.trim line).toList
  if b.isOpen then
    if trimmed.isEmpty then (.code b.text, empty) else (.pending, ⟨b.lines ++ [line]⟩)
  else
    match trimmed with
    | [] => (.pending, empty)
    | ':' :: rest => (.command (.ofText (String.ofList rest)), empty)
    | trimmed => if trimmed.getLast? = some ':' then (.pending, ⟨[line]⟩) else (.code line, empty)

/-- The entries of lines, and the block that is open behind them. -/
def pushAll (b : Block) : List String → List Entry × Block
  | [] => ([], b)
  | line :: rest =>
    let (entry, b) := b.push line
    let (entries, b) := b.pushAll rest
    (entry :: entries, b)

end Block

/-! ### The session -/

/-- What comes from the one who types. -/
inductive Typed where
  | line (text : String)
  | ended
  /-- Bytes that are no text. -/
  | unreadable
  /-- A signal to end the session. -/
  | interrupted
  deriving DecidableEq

/-- How a program ended. -/
abbrev ExitCode := UInt32

def succeeded : ExitCode := 0

def failed : ExitCode := 1

/-- Also what shells say of a command that was interrupted. -/
def interruptedCode : ExitCode := 130

def writeLine (text : String) : Host Unit := Host.ask (.write (text ++ "\n"))

def help : String :=
  Report.lines ["Session commands:",
    "  :inspect [pattern]  list kernel variables",
    "  :status             kernel uptime, variables and memory",
    "  :reset              clear every variable",
    "  :restart            restart the kernel process",
    "  :quit               stop the kernel and leave"]

/-- What is shown of an outcome. -/
def shown {α : Type} (report : α → String) : Except Failure α → String
  | .ok a => report a
  | .error failure => Report.failure failure

def execute (c : Caller) (code : String) : Host Unit := do
  writeLine (shown Report.execute (← (c.execute code).run))

/-- What is shown in answer to a command. -/
def answer (c : Caller) : Command → Host String
  | .help | .quit => return help
  | .inspect pattern => return shown (Report.inspect · pattern) (← (c.inspect pattern).run)
  | .status => return shown Report.status (← c.status.run)
  | .reset => return shown Report.reset (← c.reset.run)
  | .restart =>
    return shown (fun _ => "Kernel restarted, all variables cleared") (← c.supervisor.restart.run)
  | .unknown name => return "Unknown command ':" ++ name ++ "' (try :help)"

/-- Stops the kernel; whether that failed matters only to a session that ended as it should. -/
def leave (c : Caller) (code : ExitCode) : Host ExitCode := do
  match ← (Hook.armed.stop c.supervisor).run with
  | .ok _ => return code
  | .error _ => return if code = succeeded then failed else code

/-- Makes sure that a kernel runs, and greets. Without a kernel there is no session. -/
def enter (s : Supervisor) (deadline : Duration) : Host (Option Caller) := do
  let caller : Caller := { supervisor := s, deadline }
  match ← caller.ensureRunning.run with
  | .ok () =>
    writeLine ("hearth session on " ++ s.endpoint.text ++ " (:help for commands, :quit to leave)")
    return some caller
  | .error failure =>
    writeLine (Report.failure failure)
    return none

def showPrompt (b : Block) : Host Unit :=
  Host.ask (.write (if b.isOpen then "... " else ">>> "))

/-- Takes in what was typed: the block that is open afterwards, or how the session ended. -/
def step (c : Caller) (b : Block) : Typed → Host (Except ExitCode Block)
  | .line text => do
    match b.push text with
    | (.pending, b) => return .ok b
    | (.code code, b) =>
      execute c code
      return .ok b
    | (.command .quit, _) => return .error (← leave c succeeded)
    | (.command command, b) =>
      writeLine (← answer c command)
      return .ok b
  | .ended => do
    if b.isOpen then execute c b.text
    writeLine ""
    return .error (← leave c succeeded)
  | .unreadable => return .error (← leave c failed)
  | .interrupted => return .error (← leave c interruptedCode)

/-- Takes in everything that was typed, with a prompt before each. -/
def steps (c : Caller) (b : Block) : List Typed → Host ExitCode
  | [] => do
    showPrompt b
    match ← step c b .ended with
    | .ok _ => return succeeded
    | .error code => return code
  | typed :: rest => do
    showPrompt b
    match ← step c b typed with
    | .ok b => steps c b rest
    | .error code => return code

/-- A session in which all this is typed. -/
def run (s : Supervisor) (deadline : Duration) (typed : List Typed) : Host ExitCode := do
  match ← enter s deadline with
  | some caller => steps caller .empty typed
  | none =>
    let _ ← (Hook.armed.stop s).run
    return succeeded

/-- A line, which is text or not. -/
def typedLine (line : List UInt8) : Typed :=
  match Text.textOf? line with
  | some text => .line text
  | none => .unreadable

/-- A line without the carriage return at its end. -/
def withoutReturn (line : List UInt8) : List UInt8 :=
  if line.getLast? = some 13 then line.dropLast else line

/-- What pieces between line feeds amount to. The last one is a line unless it is empty. -/
def typedLines : List (List UInt8) → List Typed
  | [] | [[]] => [.ended]
  | [last] => [typedLine last, .ended]
  | line :: rest => typedLine (withoutReturn line) :: typedLines rest

/-- What an input amounts to. -/
def typed (input : ByteArray) : List Typed := typedLines (Text.linesOf input)

end SnippetKernel.Session
