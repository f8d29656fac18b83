import SnippetKernel.Kernel.Failure
import SnippetKernel.Wire.Reader

/-! Requests and their documents. -/
namespace SnippetKernel

/-- What a caller can ask for. -/
inductive Action where
  | execute | inspect | reset | status
  deriving DecidableEq

namespace Action

def text : Action → String
  | execute => "execute"
  | inspect => "inspect"
  | reset => "reset"
  | status => "status"

def all : List Action := [execute, inspect, reset, status]

def ofText? (text : String) : Option Action := all.find? (·.text == text)

/-- The action with the given name. -/
def ofText (text : String) : Except Failure Action :=
  match ofText? text with
  | some action => .ok action
  | none => .error (.protocol ("unknown action '" ++ text ++ "'"))

end Action

inductive Request where
  | execute (code : String)
  | inspect (pattern : String)
  | reset
  | status
  deriving DecidableEq

namespace Request

open Wire

def action : Request → Action
  | execute _ => .execute
  | inspect _ => .inspect
  | reset => .reset
  | status => .status

def toJson (r : Request) : Json :=
  .object <| ("action", .string r.action.text) ::
    match r with
    | execute code => [("code", .string code)]
    | inspect pattern => [("pattern", .string pattern)]
    | reset | status => []

/-- The document, on one line. -/
def text (r : Request) : String := r.toJson.text

/-- The fields of a request document as they are read: not seen yet, or seen with a text or `null`. -/
structure Fields where
  action : Option (Option String)
  code : Option (Option String)
  pattern : Option (Option String)
  deriving DecidableEq

namespace Fields

def empty : Fields := ⟨none, none, none⟩

variable {s : String}

/-- The value of a member whose key has been read. -/
def memberText (p : s.Pos) : Read (Option String) p := afterColon (optionalText "a string") p

/-- A member, from behind its key. No known field may come twice; what is unknown is read over. -/
def member (name : String) (f : Fields) (p : s.Pos) : Read Fields p :=
  let known (before : Option (Option String)) (set : Option String → Fields) : Read Fields p :=
    if before.isSome then .error (.duplicateField name) else (memberText p).map set
  match name with
  | "action" => known f.action fun v => { f with action := some v }
  | "code" => known f.code fun v => { f with code := some v }
  | "pattern" => known f.pattern fun v => { f with pattern := some v }
  | _ => (afterColon skipValue p).map fun _ => f

/-- An element of a document that is an array: the fields in their order. -/
def element (f : Fields) (p : s.Pos) : Read Fields p :=
  match f with
  | ⟨none, _, _⟩ => (optionalText "a string" p).map fun v => { f with action := some v }
  | ⟨_, none, _⟩ => (optionalText "a string" p).map fun v => { f with code := some v }
  | ⟨_, _, none⟩ => (optionalText "a string" p).map fun v => { f with pattern := some v }
  | _ => .malformed

/-- The request that the fields mean; without an action it is to execute. -/
def request (f : Fields) : Except Failure Request := do
  let action ←
    match f.action.join with
    | none => pure .execute
    | some name => Action.ofText name
  match action with
  | .execute =>
    match f.code.join with
    | some code => return .execute code
    | none => throw (.protocol "execute request without 'code'")
  | .inspect => return .inspect (f.pattern.join.getD "")
  | .reset => return .reset
  | .status => return .status

end Fields

/-- Reads a request document. What it means is settled before the text behind it is looked at. -/
def read {s : String} (p : s.Pos) : Read Request p :=
  let fields : Read Fields p := .afterSpace <|
    match next? (skipSpace p).1 with
    | some ('\x7b', q) => .behind q (members Fields.member true .empty (.here q.1))
    | some ('[', q) => .behind q (elements Fields.element true .empty (.here q.1))
    | _ => wrongType "struct RequestDocument" _
  match fields with
  | .error e => .error e
  | .ok (f, q) =>
    match f.request with
    | .ok r => .ok (r, q)
    | .error failure => .error (.refused failure.message)

def ofText (text : String) : Except JsonError Request := whole text read

/-- The request of a frame. -/
def ofFrame (frame : ByteArray) : Except Failure Request :=
  match String.fromUTF8? frame with
  | none => .error (.protocol "invalid UTF-8 in request frame")
  | some text =>
    match ofText text with
    | .ok r => .ok r
    | .error e => .error (.json e.message)

end Request

end SnippetKernel
