import SnippetKernel.Number.Layout
import SnippetKernel.Text.Quoted
import SnippetKernel.Value.Heap

/-! Values as text. A container inside itself, or with `maxOpen` containers open around it, is shown as
an ellipsis. Writing can be cut short: once the text has more than a given number of bytes, nothing
but closing brackets is added. -/
namespace SnippetKernel

/-- Positional from 0.0001 to below 10^16 and always with a point, otherwise an exponent with a sign and
two digits or more. -/
def valueLayout : Layout :=
  { positionalFrom := -3, positionalTo := 16, keepsPoint := true, plusExponent := true,
    exponentWidth := 2, nanText := "nan" }

def floatText (d : Double) : String := d.text valueLayout

/-- A list or a dict, as something that can be open. -/
inductive Container where
  | list (ref : Nat)
  | dict (ref : Nat)
  deriving DecidableEq

namespace Value

/-- Containers that can be open at a time. -/
def maxOpen : Nat := 64

/-- The text has grown beyond the limit. -/
def overfull (limit : Option Nat) (text : String) : Bool :=
  match limit with
  | some limit => limit < text.utf8ByteSize
  | Option.none => false

/-- Writes items with commas between them, until the text is overfull. -/
def writeItems (write : String → Value → String) (limit : Option Nat) (first : Bool) (text : String) :
    List Value → String
  | [] => text
  | item :: rest =>
    if overfull limit text then text
    else writeItems write limit false (write (if first then text else text ++ ", ") item) rest

/-- Writes the entries of a dict, until the text is overfull. -/
def writeEntries (write : String → Value → String) (limit : Option Nat) (first : Bool)
    (text : String) : List (Value × Value) → String
  | [] => text
  | (key, value) :: rest =>
    if overfull limit text then text
    else
      let text := write (if first then text else text ++ ", ") key
      writeEntries write limit false (write (text ++ ": ") value) rest

def rangeText (r : Range) : String :=
  let bounds := "range(" ++ toString r.start.toInt ++ ", " ++ toString r.stop.toInt
  if r.step = 1 then bounds ++ ")" else bounds ++ ", " ++ toString r.step.toInt ++ ")"

def methodText (name receiver : String) : String :=
  "<built-in method " ++ name ++ " of " ++ receiver ++ " object>"

/-- The text of a value that holds no others. -/
def scalarText : Value → String
  | none => "None"
  | bool true => "True"
  | bool false => "False"
  | int i => toString i.toInt
  | float d => floatText d
  | str text => Text.quoted text
  | range r => rangeText r
  | function _ name _ _ => "<function " ++ name ++ ">"
  | builtin b => "<built-in function " ++ b.text ++ ">"
  | listMethod _ m => methodText m.text "list"
  | tupleMethod _ _ m => methodText m.text "tuple"
  | dictMethod _ m => methodText m.text "dict"
  | strMethod _ m => methodText m.text "str"
  | streamMethod _ m => methodText m.text "TextIOWrapper"
  | module m => "<module '" ++ m.text ++ "'>"
  | type t => "<class '" ++ t.text ++ "'>"
  | exception _ e =>
    if e.message.isEmpty then e.kind.text ++ "()"
    else e.kind.text ++ "(" ++ Text.quoted e.message ++ ")"
  | stream .out => "<stdout>"
  | stream .err => "<stderr>"
  | list _ | tuple .. | dict _ => ""

/-- Adds the text of a value. `room` more containers may be opened, `around` are those that are open. -/
def write (h : Cells) (limit : Option Nat) (room : Nat) (around : List Container) (text : String)
    (v : Value) : String :=
  if overfull limit text then text
  else
    match room, v with
    | 0, list _ => text ++ "[...]"
    | 0, tuple .. => text ++ "(...)"
    | 0, dict _ => text ++ "\x7b...\x7d"
    | room + 1, list ref =>
      if around.contains (.list ref) then text ++ "[...]"
      else
        writeItems (write h limit room (.list ref :: around)) limit true (text.push '[')
          (h.list ref).toList ++ "]"
    | room + 1, tuple _ items =>
      let inner := writeItems (write h limit room around) limit true (text.push '(') items
      inner ++ if items.length = 1 then ",)" else ")"
    | room + 1, dict ref =>
      if around.contains (.dict ref) then text ++ "\x7b...\x7d"
      else
        writeEntries (write h limit room (.dict ref :: around)) limit true (text.push '\x7b')
          (h.dict ref).toList ++ "\x7d"
    | _, v => text ++ v.scalarText

/-- `repr(v)` -/
def repr (h : Cells) (v : Value) : String := v.write h Option.none maxOpen [] ""

/-- `repr(v)`, cut short after about `limit` bytes. -/
def reprWithin (h : Cells) (limit : Nat) (v : Value) : String := v.write h (some limit) maxOpen [] ""

/-- `str(v)`: a text is itself, an exception its message. -/
def display (h : Cells) (v : Value) : String :=
  match v with
  | str text => text
  | exception _ e => e.message
  | v => v.repr h

def truthy (h : Cells) : Value → Bool
  | none => false
  | bool b => b
  | int i => i ≠ 0
  | float d => !d.isZero
  | str text => !text.isEmpty
  | list ref => !(h.list ref).isEmpty
  | tuple _ items => !items.isEmpty
  | dict ref => (h.dict ref).size ≠ 0
  | range r => !r.isEmpty
  | _ => true

/-- An estimate of the bytes that the value takes, without what it contains. -/
def sizeEstimate (h : Cells) : Value → Nat
  | none => 16
  | bool _ | int _ => 28
  | float _ => 24
  | str text => 49 + text.utf8ByteSize
  | list ref => 56 + 8 * (h.list ref).size
  | tuple _ items => 40 + 8 * items.length
  | dict ref => 64 + 24 * (h.dict ref).size
  | range _ => 48
  | function .. => 136
  | builtin _ | listMethod .. | tupleMethod .. | dictMethod .. | strMethod .. | streamMethod .. => 72
  | module _ => 72
  | type _ => 400
  | exception _ e => 64 + e.message.utf8ByteSize
  | stream _ => 200

def charText (c : Char) : Value := .str c.toString

/-- The items that a loop over the value visits. -/
def items (h : Cells) : Value → Except Exception (List Value)
  | list ref => .ok (h.list ref).toList
  | tuple _ items => .ok items
  | str text => .ok (text.toList.map charText)
  | dict ref => .ok (h.dict ref).keys
  | range r => .ok (r.toList.map .int)
  | v => .error (.typeError ("'" ++ v.typeName ++ "' object is not iterable"))

end Value

end SnippetKernel
