import SnippetKernel.Kernel.Failure
import SnippetKernel.Kernel.Result
import SnippetKernel.Wire.Reader

/-! Responses and their documents. A response document is tagged with its action; its fields are looked at
only when the whole of it has been read. -/
namespace SnippetKernel

inductive Response where
  | execute (r : ExecuteResult)
  | inspect (r : InspectResult)
  | reset (r : ResetResult)
  | status (r : StatusResult)
  /-- The answer to what is no request. -/
  | error (success : Bool) (message : String)
  deriving DecidableEq

namespace Wire

/-! ### Writing -/

def Json.ofUInt64 (n : UInt64) : Json := .number (.natural n)

def Json.ofOption {α : Type} (f : α → Json) : Option α → Json
  | some a => f a
  | none => .null

end Wire

open Wire

namespace ExecuteResult

def members (r : ExecuteResult) : List (String × Json) :=
  [("success", .bool r.success), ("stdout", .string r.stdout), ("stderr", .string r.stderr),
    ("error", .ofOption .string r.error)]

end ExecuteResult

namespace VariableInfo

def toJson (v : VariableInfo) : Json :=
  .object [("name", .string v.name), ("type", .string v.typeName), ("size_bytes", .ofUInt64 v.sizeBytes),
    ("size", .string v.size), ("preview", .string v.preview)]

end VariableInfo

namespace InspectResult

def members (r : InspectResult) : List (String × Json) :=
  [("success", .bool r.success), ("count", .ofUInt64 r.count),
    ("variables", .array (r.bindings.map VariableInfo.toJson))]

end InspectResult

namespace ResetResult

def members (r : ResetResult) : List (String × Json) :=
  [("success", .bool r.success), ("message", .string r.message)]

end ResetResult

namespace StatusResult

def members (r : StatusResult) : List (String × Json) :=
  [("success", .bool r.success), ("uptime_seconds", .number (.float r.uptimeSeconds)),
    ("uptime_human", .string r.uptimeHuman), ("variable_count", .ofUInt64 r.variableCount),
    ("memory_usage_bytes", .ofOption .ofUInt64 r.memoryUsageBytes),
    ("memory_usage", .string r.memoryUsage)]

end StatusResult

namespace Response

/-- The tag of a response document. -/
inductive Tag where
  | execute | inspect | reset | status | error
  deriving DecidableEq

namespace Tag

def text : Tag → String
  | execute => "execute"
  | inspect => "inspect"
  | reset => "reset"
  | status => "status"
  | error => "error"

def all : List Tag := [execute, inspect, reset, status, error]

def ofText? (text : String) : Option Tag := all.find? (·.text == text)

end Tag

def tag : Response → Tag
  | execute _ => .execute
  | inspect _ => .inspect
  | reset _ => .reset
  | status _ => .status
  | error .. => .error

def members : Response → List (String × Json)
  | execute r => r.members
  | inspect r => r.members
  | reset r => r.members
  | status r => r.members
  | error success message => [("success", .bool success), ("error", .string message)]

def toJson (r : Response) : Json := .object (("action", .string r.tag.text) :: r.members)

/-- The document, on one line. -/
def text (r : Response) : String := r.toJson.text

def isSuccess : Response → Bool
  | execute r => r.success
  | inspect r => r.success
  | reset r => r.success
  | status r => r.success
  | error .. => false

/-- A refusal to answer. -/
def ofError (message : String) : Response := error false message

/-- The response, unless it is a refusal. -/
def result (r : Response) : Except Failure Response :=
  match r with
  | error _ message => .error (.remote message)
  | r => .ok r

end Response

namespace Wire

/-! ### Fields -/

/-- How a field gets its value from a part of a document. -/
abbrev FieldReader (α : Type) := Json → Except JsonError α

namespace FieldReader

def bool : FieldReader Bool
  | .bool b => .ok b
  | j => .error (.invalidType (.ofJson j) "a boolean")

def string : FieldReader String
  | .string text => .ok text
  | j => .error (.invalidType (.ofJson j) "a string")

def unsigned (typeName : String) : FieldReader UInt64
  | .number (.natural n) => .ok n
  | .number (.negative i) => .error (.invalidValue (.negative i) typeName)
  | j => .error (.invalidType (.ofJson j) typeName)

def double : FieldReader Double
  | .number (.natural n) => .ok (.ofUInt64 n)
  | .number (.negative i) => .ok (.ofInt64 i)
  | .number (.float d) => .ok d
  | j => .error (.invalidType (.ofJson j) "f64")

def optional {α : Type} (read : FieldReader α) : FieldReader (Option α)
  | .null => .ok none
  | j => (read j).map some

def list {α : Type} (read : FieldReader α) : FieldReader (List α)
  | .array items => items.mapM read
  | j => .error (.invalidType (.ofJson j) "a sequence")

end FieldReader

/-- A record in documents: its name and its fields in their order, each with what its value must be. -/
structure RecordShape where
  name : String
  fields : List (String × FieldReader Unit)

/-- A value that the reader accepts. -/
def FieldReader.check {α : Type} (read : FieldReader α) : FieldReader Unit := fun j =>
  (read j).map fun _ => ()

namespace RecordShape

/-- Goes through members in the order of the document. No known field may come twice, and its value must
fit; unknown ones are passed over. -/
def checkMembers (shape : RecordShape) (seen : List String) :
    List (String × Json) → Except JsonError Unit
  | [] => .ok ()
  | (name, value) :: rest =>
    match shape.fields.lookup name with
    | none => checkMembers shape seen rest
    | some check => do
      if seen.contains name then throw (.duplicateField name)
      check value
      checkMembers shape (name :: seen) rest

/-- The members of a record. An array stands for the fields in their order. -/
def members (shape : RecordShape) (j : Json) : Except JsonError (List (String × Json)) := do
  match j with
  | .object members =>
    shape.checkMembers [] members
    return members
  | .array items =>
    let members := (shape.fields.map (·.1)).zip items
    shape.checkMembers [] members
    let wanted := shape.fields.length
    if items.length < wanted then
      throw (.invalidLength items.length
        ("struct " ++ shape.name ++ " with " ++ toString wanted ++ " elements"))
    if wanted < items.length then
      throw (.invalidLength items.length (toString wanted ++ " elements in sequence"))
    return members
  | j => throw (.invalidType (.ofJson j) ("struct " ++ shape.name))

end RecordShape

/-- The value of a field that must be there. -/
def field {α : Type} (members : List (String × Json)) (name : String) (read : FieldReader α) :
    Except JsonError α :=
  match members.lookup name with
  | some j => read j
  | none => .error (.missingField name)

/-- The value of a field that may be missing or `null`. -/
def optionalField {α : Type} (members : List (String × Json)) (name : String) (read : FieldReader α) :
    Except JsonError (Option α) :=
  match members.lookup name with
  | some j => read.optional j
  | none => .ok none

end Wire

namespace ExecuteResult

def shape : RecordShape :=
  ⟨"ExecuteResult",
    [("success", FieldReader.bool.check), ("stdout", FieldReader.string.check),
      ("stderr", FieldReader.string.check), ("error", FieldReader.string.optional.check)]⟩

def ofJson (j : Json) : Except JsonError ExecuteResult := do
  let m ← shape.members j
  return ⟨← field m "success" .bool, ← field m "stdout" .string, ← field m "stderr" .string,
    ← optionalField m "error" .string⟩

end ExecuteResult

namespace VariableInfo

def shape : RecordShape :=
  ⟨"VariableInfo",
    [("name", FieldReader.string.check), ("type", FieldReader.string.check),
      ("size_bytes", (FieldReader.unsigned "u64").check), ("size", FieldReader.string.check),
      ("preview", FieldReader.string.check)]⟩

def ofJson (j : Json) : Except JsonError VariableInfo := do
  let m ← shape.members j
  return ⟨← field m "name" .string, ← field m "type" .string, ← field m "size_bytes" (.unsigned "u64"),
    ← field m "size" .string, ← field m "preview" .string⟩

end VariableInfo

namespace InspectResult

def variables? : FieldReader (List VariableInfo) := .list VariableInfo.ofJson

def shape : RecordShape :=
  ⟨"InspectResult",
    [("success", FieldReader.bool.check), ("count", (FieldReader.unsigned "usize").check),
      ("variables", variables?.check)]⟩

def ofJson (j : Json) : Except JsonError InspectResult := do
  let m ← shape.members j
  return ⟨← field m "success" .bool, ← field m "count" (.unsigned "usize"),
    ← field m "variables" variables?⟩

end InspectResult

namespace ResetResult

def shape : RecordShape :=
  ⟨"ResetResult", [("success", FieldReader.bool.check), ("message", FieldReader.string.check)]⟩

def ofJson (j : Json) : Except JsonError ResetResult := do
  let m ← shape.members j
  return ⟨← field m "success" .bool, ← field m "message" .string⟩

end ResetResult

namespace StatusResult

def shape : RecordShape :=
  ⟨"StatusResult",
    [("success", FieldReader.bool.check), ("uptime_seconds", FieldReader.double.check),
      ("uptime_human", FieldReader.string.check), ("variable_count", (FieldReader.unsigned "usize").check),
      ("memory_usage_bytes", (FieldReader.unsigned "u64").optional.check),
      ("memory_usage", FieldReader.string.check)]⟩

def ofJson (j : Json) : Except JsonError StatusResult := do
  let m ← shape.members j
  return {
    success := ← field m "success" .bool
    uptimeSeconds := ← field m "uptime_seconds" .double
    uptimeHuman := ← field m "uptime_human" .string
    variableCount := ← field m "variable_count" (.unsigned "usize")
    memoryUsageBytes := ← optionalField m "memory_usage_bytes" (.unsigned "u64")
    memoryUsage := ← field m "memory_usage" .string }

end StatusResult

namespace Response

def errorShape : RecordShape :=
  ⟨"ErrorResult", [("success", FieldReader.bool.check), ("error", FieldReader.string.check)]⟩

/-- The response with a tag and the rest of its document. -/
def ofTagged (tag : Tag) (rest : Json) : Except JsonError Response := do
  match tag with
  | .execute => return execute (← ExecuteResult.ofJson rest)
  | .inspect => return inspect (← InspectResult.ofJson rest)
  | .reset => return reset (← ResetResult.ofJson rest)
  | .status => return status (← StatusResult.ofJson rest)
  | .error =>
    let m ← errorShape.members rest
    return error (← field m "success" .bool) (← field m "error" .string)

/-! ### Reading -/

/-- How many arrays and objects may be inside one another in a part of a document. -/
def maxInside : Nat := 126

variable {s : String}

def readTag (p : s.Pos) : Read Tag p :=
  match Wire.text "variant identifier" p with
  | .error e => .error e
  | .ok (name, q) =>
    match Tag.ofText? name with
    | some tag => .ok (tag, q)
    | none => .error (.unknownVariant name (Tag.all.map (·.text)))

/-- What has been read of a document: the tag if it has come, and the other parts, last part first. -/
structure Parts (α : Type) where
  tag : Option Tag
  others : List α

/-- A member, from behind its key. -/
def member (name : String) (parts : Parts (String × Json)) (p : s.Pos) :
    Read (Parts (String × Json)) p :=
  if name = "action" then
    if parts.tag.isSome then .error (.duplicateField name)
    else (afterColon readTag p).map fun tag => { parts with tag := some tag }
  else (afterColon (value maxInside) p).map fun v => { parts with others := (name, v) :: parts.others }

/-- An element of a document that is an array: the tag comes first. -/
def element (parts : Parts Json) (p : s.Pos) : Read (Parts Json) p :=
  if parts.tag.isNone then (readTag p).map fun tag => { parts with tag := some tag }
  else (value maxInside p).map fun v => { parts with others := v :: parts.others }

/-- The tag of a document, and the rest of it. -/
def readParts (p : s.Pos) : Read (Option Tag × Json) p :=
  .afterSpace <|
    match next? (skipSpace p).1 with
    | some ('\x7b', q) =>
      .behind q <| (Wire.members member true ⟨none, []⟩ (.here q.1)).map fun parts =>
        (parts.tag, .object parts.others.reverse)
    | some ('[', q) =>
      .behind q <| (elements element true ⟨none, []⟩ (.here q.1)).map fun parts =>
        (parts.tag, .array parts.others.reverse)
    | _ => wrongType "internally tagged enum Response" _

/-- Reads a response document. Its fields are settled before the text behind it is looked at. -/
def read (p : s.Pos) : Read Response p :=
  match readParts p with
  | .error e => .error e
  | .ok ((none, _), _) => .error (.missingField "action")
  | .ok ((some tag, rest), q) =>
    match ofTagged tag rest with
    | .ok r => .ok (r, q)
    | .error e => .error e

def ofText (text : String) : Except JsonError Response := whole text read

/-- The response that the bytes are. -/
def ofBytes (bytes : ByteArray) : Except Failure Response :=
  match String.fromUTF8? bytes with
  | none => .error (.protocol "invalid UTF-8 in response")
  | some text =>
    match ofText text with
    | .ok r => .ok r
    | .error e => .error (.json e.message)

end Response

end SnippetKernel
