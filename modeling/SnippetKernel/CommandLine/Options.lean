/-! Options and operands on a command line. An option has a long name behind two dashes and may have a letter
behind one; its value is attached or is the next argument. Behind a bare pair of dashes everything is an
operand. -/
namespace SnippetKernel.CommandLine

/-- Why no command was made out. -/
inductive Refusal where
  /-- Help was asked for. -/
  | help
  | usage
  deriving DecidableEq

/-- What an option does to what has been chosen so far. -/
inductive Effect (σ : Type) where
  | flag (set : σ → σ)
  /-- Refuses values that it cannot use. -/
  | value (set : String → σ → Option σ)

structure Rule (σ : Type) where
  name : String
  letter : Option Char := none
  effect : Effect σ

/-- What has been read: the choices, the options that were given, and the operands. -/
structure Reading (σ : Type) where
  chosen : σ
  given : List String
  operands : List String

namespace Reading

variable {σ : Type}

def start (chosen : σ) : Reading σ := ⟨chosen, [], []⟩

/-- An option can be given once. -/
def give (r : Reading σ) (name : String) (chosen : Option σ) : Except Refusal (Reading σ) :=
  if name ∈ r.given then .error .usage
  else
    match chosen with
    | some chosen => .ok { r with chosen, given := name :: r.given }
    | none => .error .usage

/-- At most `room` operands are taken. -/
def operand (r : Reading σ) (room : Nat) (text : String) : Except Refusal (Reading σ) :=
  if r.operands.length < room then .ok { r with operands := r.operands ++ [text] } else .error .usage

end Reading

/-- What one argument amounts to. -/
inductive Outcome (σ : Type) where
  | read (r : Reading σ)
  /-- The next argument is the value of the option of this name. -/
  | awaits (name : String) (set : String → σ → Option σ) (r : Reading σ)

variable {σ : Type}

/-- An option with its long name, and the value that is attached to it. -/
def long (rules : List (Rule σ)) (r : Reading σ) (name : String) (attached : Option String) :
    Except Refusal (Outcome σ) := do
  match rules.find? (·.name == name) with
  | none =>
    if name = "help" ∧ attached.isNone then throw .help
    throw .usage
  | some rule =>
    match rule.effect, attached with
    | .flag set, none => return .read (← r.give name (some (set r.chosen)))
    | .flag _, some _ => throw .usage
    | .value set, some text => return .read (← r.give name (set text r.chosen))
    | .value set, none => return .awaits name set r

/-- Options with their letters; behind the letter of an option with a value comes the value, with or without
an equals sign. -/
def letters (rules : List (Rule σ)) (r : Reading σ) : List Char → Except Refusal (Outcome σ)
  | [] => .ok (.read r)
  | c :: rest =>
    match rules.find? (·.letter == some c) with
    | none => .error (if c = 'h' then .help else .usage)
    | some rule =>
      match rule.effect with
      | .flag set => do
        let r ← r.give rule.name (some (set r.chosen))
        letters rules r rest
      | .value set =>
        match rest with
        | [] => .ok (.awaits rule.name set r)
        | '=' :: text => do
          return .read (← r.give rule.name (set (String.ofList text) r.chosen))
        | text => do return .read (← r.give rule.name (set (String.ofList text) r.chosen))

/-- An argument that begins with a dash, and is not that alone, is no operand. -/
def isOption (argument : List Char) : Bool :=
  match argument with
  | '-' :: _ :: _ => true
  | _ => false

/-- The name and the value that an equals sign attaches to it. -/
def cut (text : List Char) : String × Option String :=
  let name := text.takeWhile (· ≠ '=')
  match text.dropWhile (· ≠ '=') with
  | [] => (String.ofList name, none)
  | _ :: value => (String.ofList name, some (String.ofList value))

/-- Takes the rest for operands. -/
def operands (r : Reading σ) (room : Nat) : List String → Except Refusal (Reading σ)
  | [] => .ok r
  | text :: rest => do
    let r ← r.operand room text
    operands r room rest

/-- Reads options, and operands among them. Without room for operands the first one ends the reading; the rest
from there on is part of the answer. -/
def read (rules : List (Rule σ)) (room : Nat) (r : Reading σ) :
    List String → Except Refusal (Reading σ × List String)
  | [] => .ok (r, [])
  | argument :: rest =>
    match argument.toList with
    | ['-', '-'] => do return (← operands r room rest, [])
    | '-' :: c :: text => do
      let outcome ←
        if c = '-' then
          let (name, attached) := cut text
          long rules r name attached
        else letters rules r (c :: text)
      match outcome, rest with
      | .read r, rest => read rules room r rest
      | .awaits name set r, value :: rest =>
        if isOption value.toList then throw .usage
        let r ← r.give name (set value r.chosen)
        read rules room r rest
      | .awaits .., [] => throw .usage
    | _ =>
      if room = 0 then .ok (r, argument :: rest)
      else do
        let r ← r.operand room argument
        read rules room r rest

end SnippetKernel.CommandLine
