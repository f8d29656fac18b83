import SnippetKernel.Text.Escaped
import SnippetKernel.Wire.Json

/-! Why a text is not the document that was expected. -/
namespace SnippetKernel.Wire

/-- A value where another type was expected, as far as messages show it. -/
inductive Found where
  | null
  | bool (b : Bool)
  | number (n : JsonNumber)
  | string (text : String)
  | sequence
  | map
  deriving DecidableEq

namespace Found

def text : Found → String
  | null => "null"
  | bool b => if b then "boolean `true`" else "boolean `false`"
  | number (.float d) => "floating point `" ++ d.text floatLayout ++ "`"
  | number n => "integer `" ++ n.text ++ "`"
  | string text => "string " ++ Text.escaped text
  | sequence => "sequence"
  | map => "map"

def ofJson : Json → Found
  | .null => null
  | .bool b => bool b
  | .number n => number n
  | .string text => string text
  | .array _ => sequence
  | .object _ => map

end Found

inductive JsonError where
  /-- The text is no document at all, or goes on behind one. -/
  | malformed
  | invalidType (found : Found) (expected : String)
  /-- An integer outside the range of its field. -/
  | invalidValue (found : JsonNumber) (expected : String)
  /-- A sequence in the place of a record, with a wrong number of elements. -/
  | invalidLength (length : Nat) (expected : String)
  | missingField (name : String)
  | duplicateField (name : String)
  | unknownVariant (name : String) (expected : List String)
  /-- A document with well-formed fields that means nothing. -/
  | refused (message : String)
  deriving DecidableEq

namespace JsonError

def quoteName (name : String) : String := "`" ++ name ++ "`"

def message : JsonError → String
  | malformed => "malformed"
  | invalidType found expected => "invalid type: " ++ found.text ++ ", expected " ++ expected
  | invalidValue found expected =>
    "invalid value: " ++ (Found.number found).text ++ ", expected " ++ expected
  | invalidLength length expected =>
    "invalid length " ++ toString length ++ ", expected " ++ expected
  | missingField name => "missing field " ++ quoteName name
  | duplicateField name => "duplicate field " ++ quoteName name
  | unknownVariant name expected =>
    "unknown variant " ++ quoteName name ++ ", expected one of "
      ++ ", ".intercalate (expected.map quoteName)
  | refused message => message

end JsonError

end SnippetKernel.Wire
