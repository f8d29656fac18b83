import SnippetKernel.CommandLine.Options
import SnippetKernel.Endpoint.Settings
import SnippetKernel.Kernel.Duration

/-! The command lines of the caller and of the kernel. -/
namespace SnippetKernel.CommandLine

/-- Where code is taken from. -/
inductive Source where
  | given (code : String)
  | file (path : String)
  | input
  deriving DecidableEq

inductive Action where
  | execute (source : Source) (deadline : Duration)
  | inspect (pattern : String)
  | reset
  | status
  | start
  | stop
  | restart
  | session (deadline : Duration)
  deriving DecidableEq

/-- What options choose. -/
structure Choices where
  host : Option Address := none
  port : Option UInt16 := none
  kernelProgram : Option String := none
  stateDirectory : Option String := none
  debug : Bool := false
  file : Option String := none
  /-- In seconds. -/
  timeout : Nat := 60

/-- A port, read as an integer that has to be in range; so zero may have any sign. -/
def port? (text : String) : Option UInt16 :=
  (intOfDigits? 10 text.toList).bind fun i =>
    if 0 ≤ i ∧ i < 65536 then some (UInt16.ofNat i.toNat) else none

/-- A path, which has at least one character. -/
def path? (text : String) : Option String := if text.isEmpty then none else some text

/-- An option whose value is read by `f`. -/
def valued {α : Type} (f : String → Option α) (set : α → Choices → Choices) : Effect Choices :=
  .value fun text chosen => (f text).map (set · chosen)

def hostRule : Rule Choices :=
  { name := "host", effect := valued Address.ofText? fun v c => { c with host := some v } }

def portRule : Rule Choices :=
  { name := "port", letter := some 'p', effect := valued port? fun v c => { c with port := some v } }

def debugRule : Rule Choices :=
  { name := "debug", letter := some 'd', effect := .flag fun c => { c with debug := true } }

/-- Can be given anywhere. -/
def commonRules : List (Rule Choices) :=
  [hostRule, portRule, debugRule,
    { name := "kernel-bin", effect := valued path? fun v c => { c with kernelProgram := some v } },
    { name := "state-dir", effect := valued path? fun v c => { c with stateDirectory := some v } }]

def fileRule : Rule Choices :=
  { name := "file", letter := some 'f', effect := valued path? fun v c => { c with file := some v } }

def timeoutRule : Rule Choices :=
  { name := "timeout", letter := some 't'
    effect := valued (Bounded.ofText? (Nat.pow 2 64)) fun v c => { c with timeout := v } }

/-- A command of the caller: its options, how many operands it takes, and what it does. -/
structure Form where
  name : String
  rules : List (Rule Choices) := []
  room : Nat := 0
  action : Choices → List String → Except Refusal Action

def forms : List Form :=
  [{ name := "exec", rules := [fileRule, timeoutRule], room := 1
     action := fun c operands =>
       match operands, c.file with
       | code :: _, none => .ok (.execute (.given code) (.ofSeconds c.timeout))
       | [], some path => .ok (.execute (.file path) (.ofSeconds c.timeout))
       | [], none => .ok (.execute .input (.ofSeconds c.timeout))
       | _ :: _, some _ => .error .usage },
    { name := "inspect", room := 1, action := fun _ operands => .ok (.inspect (operands.head?.getD "")) },
    { name := "reset", action := fun _ _ => .ok .reset },
    { name := "status", action := fun _ _ => .ok .status },
    { name := "start", action := fun _ _ => .ok .start },
    { name := "stop", action := fun _ _ => .ok .stop },
    { name := "restart", action := fun _ _ => .ok .restart },
    { name := "session", rules := [timeoutRule], action := fun c _ => .ok (.session (.ofSeconds c.timeout)) }]

/-- A command line of the caller. -/
structure Parsed where
  action : Action
  choices : Choices

/-- What can be asked for. -/
def usage : String :=
  "commands: " ++ ", ".intercalate (forms.map (·.name)) ++ "\noptions: "
    ++ ", ".intercalate (commonRules.map fun rule => "--" ++ rule.name)

/-- Asks for help on a command that there is, or on all of them. -/
def helpOn : List String → Refusal
  | [] => .help
  | [name] => if name = "help" ∨ forms.any (·.name == name) then .help else .usage
  | _ => .usage

def ofArguments (arguments : List String) : Except Refusal Parsed := do
  let (common, rest) ← read commonRules 0 (.start {}) arguments
  match rest with
  | [] => throw .usage
  | name :: rest =>
    if name = "help" then throw (helpOn rest)
    match forms.find? (·.name == name) with
    | none => throw .usage
    | some form =>
      let (r, unread) ← read (commonRules ++ form.rules) form.room (.start common.chosen) rest
      if !unread.isEmpty then throw .usage
      return ⟨← form.action r.chosen r.operands, r.chosen⟩

/-- The settings, of which options replace some. -/
def Choices.settings (c : Choices) (s : Settings) : Settings :=
  { endpoint := ⟨c.host.getD s.endpoint.host, c.port.getD s.endpoint.port⟩
    kernelProgram := c.kernelProgram.getD s.kernelProgram
    stateDirectory := c.stateDirectory.getD s.stateDirectory }

/-- What a kernel is told: an option, or else a variable, or else the default. -/
def told {α : Type} (option : Option α) (variable_ : Option String) (read : String → Option α) (default_ : α) :
    Except Refusal α :=
  match option, variable_ with
  | some a, _ => .ok a
  | none, none => .ok default_
  | none, some text =>
    match read text with
    | some a => .ok a
    | none => .error .usage

/-- Where a kernel is told to listen. -/
def kernelEndpoint (variable_ : String → Option String) (arguments : List String) :
    Except Refusal Endpoint := do
  let (r, unread) ← read [hostRule, portRule, debugRule] 0 (.start {}) arguments
  if !unread.isEmpty then throw .usage
  let host ← told r.chosen.host (variable_ "HEARTH_HOST") Address.ofText? .loopback
  let port ← told r.chosen.port (variable_ "HEARTH_PORT") port? Settings.defaultPort
  return ⟨host, port⟩

end SnippetKernel.CommandLine
