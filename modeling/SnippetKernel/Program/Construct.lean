import SnippetKernel.Program.Arguments
import SnippetKernel.Text.Blank

/-! Calling a type: conversions to numbers and text, and new containers, ranges and exceptions. -/
namespace SnippetKernel

/-- A floating point number without its fraction, if that is a 64-bit integer. -/
def intOfDouble (d : Double) : Except Exception Int64 :=
  if d.isNaN then .error (.valueError "cannot convert float NaN to integer")
  else
    let overflow : Exception :=
      ⟨.overflow, "cannot convert float to integer (integers are 64-bit)"⟩
    if d.isInfinite then .error overflow
    else
      match narrow? d.truncate with
      | some i => .ok i
      | none => .error overflow

namespace IntText

/-- Splits off a prefix that names a radix, if the base allows it. -/
def radixOf (base : Nat) (digits : List Char) : Nat × List Char :=
  let named (radix : Nat) (rest : List Char) : Nat × List Char :=
    if base = 0 ∨ base = radix then (radix, rest) else (base, digits)
  match digits with
  | '0' :: 'x' :: rest | '0' :: 'X' :: rest => named 16 rest
  | '0' :: 'o' :: rest | '0' :: 'O' :: rest => named 8 rest
  | '0' :: 'b' :: rest | '0' :: 'B' :: rest => named 2 rest
  | _ => (if base = 0 then 10 else base, digits)

/-- Numbers of more than 128 bits are not read at all. -/
def fitsWide (i : Int) : Bool := -(Int.pow 2 127) ≤ i && i < Int.pow 2 127

/-- The integer that a text denotes: white space around it, a sign, a prefix, digits with underscores
between them. The digits may carry a sign of their own. -/
def denoted? (base : Nat) (text : String) : Option Int :=
  let (negative, digits) := signed? (Text.dropEnds Text.isBlank text.toList)
  let (radix, digits) := radixOf base digits
  if digits.head? = some '_' ∨ digits.getLast? = some '_' then none
  else
    match intOfDigits? radix (digits.filter (· ≠ '_')) with
    | some i => if fitsWide i then some (if negative then -i else i) else none
    | none => none

def parse (base : Int64) (text : String) : Except Exception Int64 :=
  let b := base.toInt
  if b ≠ 0 ∧ (b < 2 ∨ 36 < b) then .error (.valueError "int() base must be >= 2 and <= 36, or 0")
  else
    match denoted? b.toNat text with
    | none =>
      .error (.valueError ("invalid literal for int() with base " ++ toString b ++ ": "
        ++ Text.quoted text))
    | some i =>
      match narrow? i with
      | some n => .ok n
      | none => .error ⟨.overflow, "int too large (integers are 64-bit)"⟩

end IntText

/-- The floating point number that a text denotes, with white space around it. Underscores are left
out. -/
def parseFloat (text : String) : Except Exception Double :=
  let trimmed := Text.dropEnds Text.isBlank text.toList
  match Double.ofText? (String.ofList (trimmed.filter (· ≠ '_'))) with
  | some d => .ok d
  | none =>
    .error (.valueError ("could not convert string to float: " ++ Text.quoted text))

namespace Construct

open Arguments

def toInt (args : List Value) (keywords : Keywords) : Work Value := do
  let (base, keywords) := take "base" keywords
  noKeywords "int" keywords
  arity "int" args 0 (some 2)
  let base ←
    match args.tail.head?.or base with
    | some v => do pure (some (← int "int" v))
    | none => pure none
  match args.head?, base with
  | none, _ => return .int 0
  | some (.str text), base => return .int (← Work.ofExcept (IntText.parse (base.getD 10) text))
  | some _, some _ => Work.raiseTypeError "int() can't convert non-string with explicit base"
  | some (.float d), none => return .int (← Work.ofExcept (intOfDouble d))
  | some v, none =>
    match v.int? with
    | some i => return .int i
    | none =>
      Work.raiseTypeError ("int() argument must be a string or a number, not '" ++ v.typeName ++ "'")

def toFloat (args : List Value) : Work Value := do
  match args with
  | [] => return .float (Double.ofInt64 0)
  | .str text :: _ => return .float (← Work.ofExcept (parseFloat text))
  | v :: _ =>
    match v.number? with
    | some n => return .float n.toDouble
    | none =>
      Work.raiseTypeError ("float() argument must be a string or a real number, not '" ++ v.typeName
        ++ "'")

def toTuple (args : List Value) : Work Value := do
  match args with
  | [] => Work.onHeap (HeapM.newTuple [])
  | .tuple id items :: _ => return .tuple id items
  | v :: _ => Work.onHeap (HeapM.newTuple (← Work.items v))

/-- Adds entries given as pairs; `i` counts them. -/
def insertPairs (i : Nat) (d : Dict) : List Value → Work Dict
  | [] => return d
  | pair :: rest => do
    match ← Work.items pair with
    | [key, value] => insertPairs (i + 1) (← Work.ofExcept (d.insert key value)) rest
    | items =>
      Work.ofExcept (.error (.valueError ("dictionary update sequence element #" ++ toString i
        ++ " has length " ++ toString items.length ++ "; 2 is required")))

def insertEntries (d : Dict) : List (Value × Value) → Work Dict
  | [] => return d
  | (key, value) :: rest => do insertEntries (← Work.ofExcept (d.insert key value)) rest

def toDict (args : List Value) (keywords : Keywords) : Work Value := do
  arity "dict" args 0 (some 1)
  let d ←
    match args with
    | [] => pure Dict.empty
    | .dict ref :: _ => do
      let entries ← Work.reading fun h => (h.dict ref).toList
      insertEntries .empty entries
    | v :: _ => do insertPairs 0 .empty (← Work.items v)
  let d ← insertEntries d (keywords.map fun (key, value) => (.str key, value))
  Work.onHeap (HeapM.newDict d)

def ints : List Value → Work (List Int64)
  | [] => return []
  | v :: rest => do
    match v.int? with
    | some i => return i :: (← ints rest)
    | none =>
      Work.raiseTypeError ("'" ++ v.typeName ++ "' object cannot be interpreted as an integer")

def toRange (args : List Value) : Work Value := do
  arity "range" args 1 (some 3)
  let r : Range :=
    match ← ints args with
    | [stop] => ⟨0, stop, 1⟩
    | [start, stop] => ⟨start, stop, 1⟩
    | start :: stop :: step :: _ => ⟨start, stop, step⟩
    | [] => ⟨0, 0, 1⟩
  if r.step = 0 then Work.raise .value "range() arg 3 must not be zero"
  return .range r

/-- Several arguments are shown as a tuple. -/
def exceptionMessage (args : List Value) : Work String := do
  match args with
  | [] => return ""
  | [v] => Work.display v
  | args => Work.repr (.tuple 0 args)

/-- A type, called. -/
def apply (t : ValueType) (args : List Value) (keywords : Keywords) : Work Value := do
  let name := t.text
  let single : Work Unit := do
    noKeywords name keywords
    arity name args 0 (some 1)
  match t with
  | .int => toInt args keywords
  | .float => single; toFloat args
  | .str =>
    single
    match args with
    | [] => return .str ""
    | v :: _ => return .str (← Work.display v)
  | .bool =>
    single
    match args with
    | [] => return .bool false
    | v :: _ => return .bool (← Work.truthy v)
  | .list =>
    single
    match args with
    | [] => Work.onHeap (HeapM.newList [])
    | v :: _ => Work.onHeap (HeapM.newList (← Work.items v))
  | .tuple => single; toTuple args
  | .dict => toDict args keywords
  | .range =>
    noKeywords name keywords
    toRange args
  | .exception kind =>
    noKeywords name keywords
    Work.onHeap (HeapM.newException ⟨kind, ← exceptionMessage args⟩)
  | _ => Work.raiseTypeError ("cannot create '" ++ name ++ "' instances")

end Construct

end SnippetKernel
