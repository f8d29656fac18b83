import SnippetKernel.Number.Layout

/-! Documents as trees, and the compact text of a tree: no blanks, members in their order. -/
namespace SnippetKernel.Wire

/-- A number of a document. A literal without point or exponent is an integer if it fits. -/
inductive JsonNumber where
  | natural (n : UInt64)
  /-- Below zero. -/
  | negative (i : Int64)
  | float (d : Double)
  deriving DecidableEq

inductive Json where
  | null
  | bool (b : Bool)
  | number (n : JsonNumber)
  | string (text : String)
  | array (items : List Json)
  | object (members : List (String × Json))

/-- Positional from 0.00001 to below 10^16 and always with a point, otherwise an exponent with a sign. -/
def floatLayout : Layout :=
  { positionalFrom := -4, positionalTo := 16, keepsPoint := true, plusExponent := true,
    exponentWidth := 1, nanText := "null" }

namespace JsonNumber

def text : JsonNumber → String
  | natural n => toString n.toNat
  | negative i => toString i.toInt
  | float d => if d.isFinite then d.text floatLayout else "null"

end JsonNumber

namespace Json

def hexDigit (n : Nat) : Char := if n < 10 then Char.ofNat (48 + n) else Char.ofNat (87 + n)

/-- A character as it stands inside quotes. Only quotes, backslashes and control characters change. -/
def escape (c : Char) : String :=
  match c with
  | '"' => "\\\""
  | '\\' => "\\\\"
  | '\n' => "\\n"
  | '\r' => "\\r"
  | '\t' => "\\t"
  | '\x08' => "\\b"
  | '\x0c' => "\\f"
  | c =>
    if c.toNat < 32 then
      "\\u00" ++ String.ofList [hexDigit (c.toNat / 16), hexDigit (c.toNat % 16)]
    else c.toString

def quote (text : String) : String := text.foldl (fun out c => out ++ escape c) "\"" ++ "\""

mutual

/-- The tree, written behind `out`. -/
def write (out : String) : Json → String
  | null => out ++ "null"
  | bool b => out ++ if b then "true" else "false"
  | number n => out ++ n.text
  | string text => out ++ quote text
  | array items => writeItems true (out ++ "[") items ++ "]"
  | object members => writeMembers true (out ++ "\x7b") members ++ "\x7d"

def writeItems (first : Bool) (out : String) : List Json → String
  | [] => out
  | item :: rest => writeItems false (write (if first then out else out ++ ",") item) rest

def writeMembers (first : Bool) (out : String) : List (String × Json) → String
  | [] => out
  | (key, value) :: rest =>
    let out := if first then out else out ++ ","
    writeMembers false (write (out ++ quote key ++ ":") value) rest

end

def text (j : Json) : String := j.write ""

end Json

end SnippetKernel.Wire
