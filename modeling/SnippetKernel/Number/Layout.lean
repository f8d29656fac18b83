import SnippetKernel.Number.Digits

/-! How the digits of a double become text. The decisions of one output format are one `Layout`
value, defined where that output is written. -/
namespace SnippetKernel

/-- Positional notation is used for `0.d₁d₂… * 10 ^ point` with `point` from `positionalFrom` to
`positionalTo`, an exponent otherwise. -/
structure Layout where
  positionalFrom : Int
  positionalTo : Int
  /-- Integral values in positional notation end in `.0`. -/
  keepsPoint : Bool
  /-- An exponent that is not negative has a plus sign. -/
  plusExponent : Bool
  /-- Exponents have at least this many digits. -/
  exponentWidth : Nat
  nanText : String

namespace Digits

def zeros (n : Nat) : List Char := List.replicate n '0'

/-- `n` in base ten with at least `width` digits. -/
def padded (n width : Nat) : List Char :=
  let digits := Nat.toDigits 10 n
  zeros (width - digits.length) ++ digits

def chars (d : Digits) : List Char := padded d.coefficient d.count

/-- The digits before and after the decimal point. -/
def positionalParts (d : Digits) : List Char × List Char :=
  let digits := d.chars
  if d.point ≤ 0 then (['0'], zeros (-d.point).toNat ++ digits)
  else (digits.take d.point.toNat ++ zeros (d.point.toNat - d.count), digits.drop d.point.toNat)

/-- One digit, and the others after a point if there are any. -/
def mantissa (d : Digits) : List Char :=
  match d.chars with
  | [] => []
  | [digit] => [digit]
  | digit :: rest => digit :: '.' :: rest

def exponentText (plus : Bool) (width : Nat) (e : Int) : List Char :=
  'e' :: ((if e < 0 then ['-'] else if plus then ['+'] else []) ++ padded e.natAbs width)

/-- The whole text of a magnitude. -/
def text (layout : Layout) (d : Digits) : List Char :=
  if layout.positionalFrom ≤ d.point ∧ d.point ≤ layout.positionalTo then
    match d.positionalParts with
    | (whole, []) => whole ++ if layout.keepsPoint then ['.', '0'] else []
    | (whole, fraction) => whole ++ '.' :: fraction
  else d.mantissa ++ exponentText layout.plusExponent layout.exponentWidth (d.point - 1)

/-- A number with `places` digits after the point, given in units of the last of them. -/
def fixedText (units places : Nat) : List Char :=
  let digits := padded units (places + 1)
  let whole := digits.take (digits.length - places)
  if places = 0 then whole else whole ++ '.' :: digits.drop (digits.length - places)

end Digits

/-- The shortest text of a double that reads back to it. -/
def Double.text (layout : Layout) (d : Double) : String :=
  if d.isNaN then layout.nanText
  else
    let magnitude := if d.isInfinite then ['i', 'n', 'f'] else (Digits.shortest d).text layout
    String.ofList (if d.isNegative then '-' :: magnitude else magnitude)

end SnippetKernel
