import SnippetKernel.Program.Arguments
import SnippetKernel.Text.Blank
import SnippetKernel.Text.Case
import SnippetKernel.Text.Search

/-! The methods of texts. -/
namespace SnippetKernel

/-- A placeholder of a format template: which argument is meant, whether it is shown in its quoted form,
and how it is formatted. -/
structure Field where
  name : String
  quote : Bool
  spec : String

namespace Field

/-- What stands between the braces: a name, `!r` or `!s`, and a specification after the first colon. -/
def ofText (cs : List Char) : Field :=
  let name := cs.takeWhile (· ≠ ':')
  let spec := String.ofList ((cs.dropWhile (· ≠ ':')).drop 1)
  if Text.endsWith ['!', 'r'] name then ⟨String.ofList (name.take (name.length - 2)), true, spec⟩
  else if Text.endsWith ['!', 's'] name then ⟨String.ofList (name.take (name.length - 2)), false, spec⟩
  else ⟨String.ofList name, false, spec⟩

/-- The position that a field is named by. -/
def position? (f : Field) : Option Nat :=
  (unsigned? 10 f.name.toList).bind fun n => if n < Nat.pow 2 64 then some n else none

end Field

/-- A part of a format template. -/
inductive FieldPart where
  | text (text : List Char)
  | field (f : Field)
  /-- A brace that has no partner; nothing after it is read. -/
  | loneOpen
  | loneClose

/-- The parts of a format template; `literal` is the text since the last field, last character first. -/
def fieldParts (literal : List Char) (cs : List Char) : List FieldPart :=
  match cs with
  | [] => [.text literal.reverse]
  | '\x7b' :: '\x7b' :: rest => fieldParts ('\x7b' :: literal) rest
  | '\x7d' :: '\x7d' :: rest => fieldParts ('\x7d' :: literal) rest
  | '\x7d' :: _ => [.text literal.reverse, .loneClose]
  | '\x7b' :: rest =>
    match _after : rest.dropWhile (· ≠ '\x7d') with
    | [] => [.text literal.reverse, .loneOpen]
    | _ :: tail =>
      .text literal.reverse :: .field (Field.ofText (rest.takeWhile (· ≠ '\x7d')))
        :: fieldParts [] tail
  | c :: rest => fieldParts (c :: literal) rest
termination_by cs.length
decreasing_by
  all_goals simp_wf
  all_goals first
    | omega
    | have := Text.length_dropWhile_le (fun c => decide (c ≠ '\x7d')) rest
      rw [‹rest.dropWhile _ = _›, List.length_cons] at this
      omega

namespace TextMethods

open Arguments

def noArgument (i : Nat) : Exception :=
  ⟨.index, "Replacement index " ++ toString i ++ " out of range for positional args tuple"⟩

/-- The value of a field. `next` is the position that a field without a name stands for. -/
def fieldValue (f : Field) (args : Array Value) (keywords : Keywords) (next : Nat) :
    Except Exception Value :=
  let positional (i : Nat) : Except Exception Value :=
    match args[i]? with
    | some v => .ok v
    | none => .error (noArgument i)
  if f.name.isEmpty then positional next
  else
    match f.position? with
    | some i => positional i
    | none =>
      match keywords.lookup f.name with
      | some v => .ok v
      | none => .error ⟨.key, Text.quoted f.name⟩

/-- The text that the parts of a template make, after what was written before them. -/
def fill (args : Array Value) (keywords : Keywords) (next : Nat) (done : String) :
    List FieldPart → Work String
  | [] => return done
  | .text cs :: rest => fill args keywords next (done ++ String.ofList cs) rest
  | .field f :: rest => do
    let v ← Work.ofExcept (fieldValue f args keywords next)
    let v ← if f.quote then do pure (Value.str (← Work.repr v)) else pure v
    let text ← Work.format v f.spec
    fill args keywords (if f.name.isEmpty then next + 1 else next) (done ++ text) rest
  | .loneOpen :: _ => Work.raise .value "Single '\x7b' encountered in format string"
  | .loneClose :: _ => Work.raise .value "Single '\x7d' encountered in format string"

/-- An optional argument that has to be a text if it is given. -/
def optionalText (name : String) (args : List Value) : Work (Option String) := do
  match args with
  | [] | .none :: _ => return none
  | v :: _ => return some (← text name v)

def optionalInt (name : String) (v : Option Value) : Work (Option Int64) := do
  match v with
  | none => return none
  | some v => return some (← int name v)

/-- A count that may be left out or negative, both of which mean that there is no limit. -/
def limitOf (count : Option Int64) : Option Nat :=
  match count with
  | some n => if n < 0 then none else some n.toInt.toNat
  | none => none

def ofPieces (pieces : List (List Char)) : Work Value :=
  Work.onHeap (HeapM.newList (pieces.map fun cs => .str (String.ofList cs)))

def strip (name : String) (cut : (Char → Bool) → List Char → List Char) (self : String)
    (args : List Value) : Work Value := do
  arity name args 0 (some 1)
  let drop : Char → Bool :=
    match ← optionalText name args with
    | some set => fun c => set.toList.contains c
    | none => Text.isBlank
  return .str (String.ofList (cut drop self.toList))

def split (self : String) (args : List Value) : Work Value := do
  arity "split" args 0 (some 2)
  let separator ← optionalText "split" args
  let limit := limitOf (← optionalInt "split" args.tail.head?)
  match separator with
  | some separator =>
    if separator.isEmpty then Work.raise .value "empty separator"
    ofPieces (Text.split separator.toList limit self.toList)
  | none => ofPieces (Text.words limit self.toList)

/-- The items as texts; `i` counts them. -/
def textItems (i : Nat) : List Value → Work (List (List Char))
  | [] => return []
  | .str text :: rest => return text.toList :: (← textItems (i + 1) rest)
  | v :: _ =>
    Work.raiseTypeError ("sequence item " ++ toString i ++ ": expected str instance, " ++ v.typeName
      ++ " found")

def replace (self : String) (args : List Value) : Work Value := do
  arity "replace" args 2 (some 3)
  let old ← text "replace" (first args)
  let new ← text "replace" (second args)
  let limit := limitOf (← optionalInt "replace" args[2]?)
  return .str (String.ofList (Text.replace old.toList new.toList limit self.toList))

/-- Some candidate passes the test; candidates are looked at one by one. -/
def anyText (name : String) (test : List Char → Bool) : List Value → Work Bool
  | [] => return false
  | v :: rest => do
    if test (← text name v).toList then return true else anyText name test rest

def affix (name : String) (test : List Char → List Char → Bool) (self : String)
    (args : List Value) : Work Value := do
  exactly name args 1
  let candidates :=
    match first args with
    | .tuple _ items => items
    | v => [v]
  return .bool (← anyText name (fun piece => test piece self.toList) candidates)

def count (self piece : String) : Nat :=
  if piece.isEmpty then self.length + 1 else Text.count piece.toList self.toList

/-- The method of a text, called. -/
def apply (m : StrMethod) (self : String) (args : List Value) (keywords : Keywords) : Work Value := do
  let name := m.text
  if m = .format then
    return .str (← fill args.toArray keywords 0 "" (fieldParts [] self.toList))
  noKeywords name keywords
  match m with
  | .format => return .str self
  | .upper => return .str (Text.toUpper self)
  | .lower => return .str (Text.toLower self)
  | .title => return .str (Text.toTitle self)
  | .capitalize => return .str (Text.capitalize self)
  | .strip => strip name Text.dropEnds self args
  | .lstrip => strip name Text.dropStart self args
  | .rstrip => strip name Text.dropEnd self args
  | .split => split self args
  | .splitlines => ofPieces (Text.lines self.toList)
  | .join =>
    exactly name args 1
    let pieces ← textItems 0 (← Work.items (first args))
    return .str (String.ofList (Text.join self.toList pieces))
  | .replace => replace self args
  | .startswith => affix name Text.startsWith self args
  | .endswith => affix name Text.endsWith self args
  | .find =>
    exactly name args 1
    let piece ← text name (first args)
    match Text.find? piece.toList self.toList with
    | some i => return .int (Int64.ofNat i)
    | none => return .int (-1)
  | .count =>
    exactly name args 1
    return .int (Int64.ofNat (count self (← text name (first args))))
  | .isdigit => return .bool (!self.isEmpty && self.toList.all Char.isDigit)
  | .isalpha => return .bool (!self.isEmpty && self.toList.all Text.isLetter)

end TextMethods

end SnippetKernel
