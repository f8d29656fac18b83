import SnippetKernel.Value.Repr

/-! Format specifications, `[[fill]align][sign][#][0][width][grouping][.precision][type]`, and what they make
of a value. -/
namespace SnippetKernel

inductive Alignment where
  | left | right | center
  /-- The filling goes between the sign and the digits. -/
  | afterSign
  deriving DecidableEq

namespace Alignment

def char : Alignment → Char
  | left => '<'
  | right => '>'
  | center => '^'
  | afterSign => '='

def ofChar? (c : Char) : Option Alignment := [left, right, center, afterSign].find? (·.char == c)

end Alignment

/-- What stands in front of a number that is not negative. -/
inductive SignOption where
  | plus | minus | space
  deriving DecidableEq

namespace SignOption

def char : SignOption → Char
  | plus => '+'
  | minus => '-'
  | space => ' '

def ofChar? (c : Char) : Option SignOption := [plus, minus, space].find? (·.char == c)

end SignOption

structure FormatSpec where
  fill : Option Char
  align : Option Alignment
  sign : Option SignOption
  zero : Bool
  width : Option Nat
  /-- What separates groups of three digits. -/
  grouping : Option Char
  precision : Option Nat
  type : Option Char
  deriving DecidableEq

/-- Why a value was not formatted. -/
inductive FormatFailure where
  | exception (e : Exception)
  /-- The filling would be larger than any memory. -/
  | tooWide
  /-- More places than a number is ever written with. -/
  | tooPrecise

def FormatFailure.crashMessage : FormatFailure → String
  | exception e => e.summary
  | tooWide => "capacity overflow"
  | tooPrecise => "Formatting argument out of range"

namespace FormatSpec

def invalid (text : String) : Exception :=
  .valueError ("Invalid format specifier '" ++ text ++ "'")

/-- An optional fill and alignment. A first character counts as a fill if an alignment follows it. -/
def readAlign (cs : List Char) : Option Char × Option Alignment × List Char :=
  match cs with
  | [] => (none, none, [])
  | [c] =>
    match Alignment.ofChar? c with
    | some align => (none, some align, [])
    | none => (none, none, [c])
  | c :: d :: rest =>
    match Alignment.ofChar? d with
    | some align => (some c, some align, rest)
    | none =>
      match Alignment.ofChar? c with
      | some align => (none, some align, d :: rest)
      | none => (none, none, c :: d :: rest)

def readSign (cs : List Char) : Option SignOption × List Char :=
  match cs with
  | [] => (none, [])
  | c :: rest =>
    match SignOption.ofChar? c with
    | some sign => (some sign, rest)
    | none => (none, c :: rest)

/-- Takes the character if it comes next. -/
def readFlag (flag : Char) (cs : List Char) : Bool × List Char :=
  match cs with
  | [] => (false, [])
  | c :: rest => if c = flag then (true, rest) else (false, c :: rest)

/-- Digits, if there are any, as a number below 2^64. -/
def readNumber (text : String) (cs : List Char) : Except Exception (Option Nat × List Char) :=
  match cs.takeWhile Char.isDigit with
  | [] => .ok (none, cs)
  | digits =>
    match natOfDigits? 10 digits with
    | some n =>
      if n < Nat.pow 2 64 then .ok (some n, cs.dropWhile Char.isDigit) else .error (invalid text)
    | none => .error (invalid text)

def readGrouping (cs : List Char) : Option Char × List Char :=
  match cs with
  | [] => (none, [])
  | c :: rest => if c = ',' ∨ c = '_' then (some c, rest) else (none, c :: rest)

def readPrecision (text : String) (cs : List Char) : Except Exception (Option Nat × List Char) :=
  match readFlag '.' cs with
  | (false, cs) => .ok (none, cs)
  | (true, cs) =>
    match readNumber text cs with
    | .ok (none, _) => .error (.valueError "Format specifier missing precision")
    | result => result

def parse (text : String) : Except Exception FormatSpec := do
  let (fill, align, cs) := readAlign text.toList
  let (sign, cs) := readSign cs
  let (_, cs) := readFlag '#' cs
  let (zero, cs) := readFlag '0' cs
  let (width, cs) ← readNumber text cs
  let (grouping, cs) := readGrouping cs
  let (precision, cs) ← readPrecision text cs
  let spec (type : Option Char) : FormatSpec :=
    ⟨fill, align, sign, zero, width, grouping, precision, type⟩
  match cs with
  | [] => return spec none
  | [c] => return spec (some c)
  | _ => throw (invalid text)

/-- Digits in groups of three from the right. -/
def group (separator : Option Char) (digits : List Char) : List Char :=
  match separator with
  | none => digits
  | some c => go c digits
where
  go (c : Char) : List Char → List Char
    | [] => []
    | d :: rest => if rest.length % 3 = 0 ∧ rest ≠ [] then d :: c :: go c rest else d :: go c rest

/-- The part before the first point grouped, the rest as it is. -/
def groupWhole (separator : Option Char) (text : List Char) : List Char :=
  group separator (text.takeWhile (· ≠ '.')) ++ text.dropWhile (· ≠ '.')

/-- No number is written with more places than this. -/
def maxPlaces : Nat := 65535

def checkPlaces (places : Nat) : Except FormatFailure Unit :=
  if maxPlaces < places then .error .tooPrecise else .ok ()

/-- A magnitude with a number of places. -/
def fixed (d : Double) (places : Nat) (grouping : Option Char) :
    Except FormatFailure (List Char) := do
  if !d.isFinite then return (floatText d).toList
  checkPlaces places
  return groupWhole grouping (Digits.fixedText (Digits.atPlace d places) places)

/-- A magnitude with one digit before the point, a number of places and an exponent. -/
def scientificParts (d : Double) (places : Nat) : Except FormatFailure (List Char × List Char) := do
  checkPlaces places
  let digits := Digits.significant d (places + 1)
  return (digits.mantissa, Digits.exponentText true 2 (digits.point - 1))

def scientific (d : Double) (places : Nat) : Except FormatFailure (List Char) := do
  if !d.isFinite then return (floatText d).toList
  let (mantissa, exponent) ← scientificParts d places
  return mantissa ++ exponent

/-- Without zeros at the end of the fraction, and without a point at the end. -/
def stripZeros (text : List Char) : List Char :=
  if text.contains '.' then
    ((text.reverse.dropWhile (· = '0')).dropWhile (· = '.')).reverse
  else text

/-- A magnitude with a number of significant digits, in the notation that suits its size. -/
def general (d : Double) (precision : Nat) : Except FormatFailure (List Char) := do
  if !d.isFinite then return (floatText d).toList
  if d.isZero then return ['0']
  let digits := max precision 1
  let exponent := ((d.map Float.log10).floor).truncate
  if exponent < -4 ∨ digits ≤ exponent then
    let (mantissa, exponent) ← scientificParts d (digits - 1)
    return stripZeros mantissa ++ exponent
  else
    return stripZeros (← fixed d (digits - 1 - exponent : Int).toNat none)

/-- The largest number of filling characters that could be asked of a memory. -/
def maxFilling : Nat := Nat.pow 2 63 - 1

def filling (fill : Char) (n : Nat) : Except FormatFailure (List Char) :=
  if maxFilling < n then .error .tooWide else .ok (List.replicate n fill)

def isSignChar (c : Char) : Bool := c = '+' || c = '-' || c = ' '

/-- The text filled up to the width. Numbers stand right by default, everything else left. -/
def pad (spec : FormatSpec) (numeric : Bool) (body : List Char) :
    Except FormatFailure (List Char) := do
  let missing := spec.width.getD 0 - body.length
  if missing = 0 then return body
  let (fill, align) :=
    match spec.align with
    | some align => (spec.fill.getD ' ', align)
    | none =>
      if spec.zero then ('0', .afterSign)
      else (' ', if numeric then Alignment.right else Alignment.left)
  match align with
  | .left => return body ++ (← filling fill missing)
  | .right => return (← filling fill missing) ++ body
  | .center =>
    return (← filling fill (missing / 2)) ++ body ++ (← filling fill (missing - missing / 2))
  | .afterSign =>
    let (sign, digits) :=
      if body.all isSignChar then ([], body)
      else (body.takeWhile isSignChar, body.dropWhile isSignChar)
    return sign ++ (← filling fill missing) ++ digits

def unknownCode (code : Char) (v : Value) : FormatFailure :=
  .exception (.valueError ("Unknown format code '" ++ code.toString ++ "' for object of type '"
    ++ v.typeName ++ "'"))

def upperHex (cs : List Char) : List Char := cs.map Char.toUpper

/-- Whether an integer is negative, and the digits of its magnitude. -/
def integerText (spec : FormatSpec) (v : Value) (i : Int64) : Except FormatFailure (Bool × List Char) :=
  let negative := i.toInt < 0
  let n := i.toInt.natAbs
  match spec.type with
  | none | some 'd' => .ok (negative, group spec.grouping (Nat.toDigits 10 n))
  | some 'x' => .ok (negative, Nat.toDigits 16 n)
  | some 'X' => .ok (negative, upperHex (Nat.toDigits 16 n))
  | some 'o' => .ok (negative, Nat.toDigits 8 n)
  | some 'b' => .ok (negative, Nat.toDigits 2 n)
  | some 'c' =>
    match if negative then none else charOfCode? n with
    | some c => .ok (false, [c])
    | none => .error (.exception ⟨.overflow, "%c arg not in range(0x110000)"⟩)
  | some code => .error (unknownCode code v)

/-- Whether a floating point number is shown as negative, and the text of its magnitude. -/
def floatParts (spec : FormatSpec) (v : Value) (d : Double) :
    Except FormatFailure (Bool × List Char) := do
  let negative := d.lt (Double.ofInt64 0)
  let magnitude := d.abs
  let places := spec.precision.getD 6
  match spec.type with
  | some 'f' | some 'F' =>
    return (d.isNegative && !d.isZero, ← fixed magnitude places spec.grouping)
  | some 'e' => return (negative, ← scientific magnitude places)
  | some 'E' => return (negative, upperHex (← scientific magnitude places))
  | some '%' =>
    return (negative, (← fixed (magnitude.mul (Double.ofInt64 100)) places spec.grouping) ++ ['%'])
  | some 'g' | some 'G' => return (negative, ← general magnitude places)
  | some code => throw (unknownCode code v)
  | none =>
    match spec.precision with
    | some precision => return (negative, ← general magnitude precision)
    | none =>
      let text := (floatText magnitude).toList
      return (d.isNegative && !d.isNaN,
        if text.contains '.' then groupWhole spec.grouping text else text)

/-- The types that show an integer as a floating point number. -/
def isFloatType (c : Char) : Bool := ['f', 'F', 'e', 'E', '%', 'g', 'G'].contains c

def numberText (spec : FormatSpec) (v : Value) : Except FormatFailure (List Char) := do
  let (negative, digits) ←
    match v with
    | .float d => floatParts spec v d
    | v =>
      let i := v.int?.getD 0
      if spec.type.any isFloatType then floatParts spec v (Double.ofInt64 i)
      else integerText spec v i
  let sign :=
    if negative then ['-']
    else
      match spec.sign with
      | some .plus => ['+']
      | some .space => [' ']
      | _ => []
  return sign ++ digits

def truncated (precision : Option Nat) (text : String) : List Char :=
  match precision with
  | some n => text.toList.take n
  | none => text.toList

/-- What the specification makes of a value. -/
def apply (h : Cells) (spec : FormatSpec) (v : Value) : Except FormatFailure String := do
  let (numeric, body) ←
    match v, spec.type with
    | .str text, none | .str text, some 's' => pure (false, truncated spec.precision text)
    | v, some 's' => throw (unknownCode 's' v)
    | .float _, _ | .int _, _ | .bool _, _ => do pure (true, ← numberText spec v)
    | v, none => pure (false, truncated spec.precision (v.display h))
    | v, some code => throw (unknownCode code v)
  return String.ofList (← pad spec numeric body)

end FormatSpec

/-- The value as the specification says; an empty one means its plain text. -/
def Value.format (h : Cells) (v : Value) (spec : String) : Except FormatFailure String :=
  if spec.isEmpty then .ok (v.display h)
  else
    match FormatSpec.parse spec with
    | .ok spec => spec.apply h v
    | .error e => .error (.exception e)

end SnippetKernel
