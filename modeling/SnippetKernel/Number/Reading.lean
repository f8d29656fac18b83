import SnippetKernel.Number.Double

/-! Reading numbers: decimal texts as doubles, correctly rounded, and digit texts of any base from
two to thirty-six as integers. -/
namespace SnippetKernel

/-- The value of a digit of base thirty-six, in either case. -/
def digitValue? (c : Char) : Option Nat :=
  if '0' ≤ c ∧ c ≤ '9' then some (c.toNat - '0'.toNat)
  else if 'a' ≤ c ∧ c ≤ 'z' then some (c.toNat - 'a'.toNat + 10)
  else if 'A' ≤ c ∧ c ≤ 'Z' then some (c.toNat - 'A'.toNat + 10)
  else none

/-- The number that one or more digits of base `radix` denote. -/
def natOfDigits? (radix : Nat) (cs : List Char) : Option Nat :=
  if cs.isEmpty then none
  else cs.foldlM (fun n c => (digitValue? c).bind fun d => if d < radix then some (n * radix + d) else none) 0

/-- A magnitude with an optional sign in front. -/
def signed? (cs : List Char) : Bool × List Char :=
  match cs with
  | '-' :: rest => (true, rest)
  | '+' :: rest => (false, rest)
  | _ => (false, cs)

/-- An optionally signed number in base `radix`. -/
def intOfDigits? (radix : Nat) (cs : List Char) : Option Int :=
  let (negative, digits) := signed? cs
  (natOfDigits? radix digits).map fun n => if negative then -(n : Int) else n

/-- A number in base `radix` that may have a plus sign in front. -/
def unsigned? (radix : Nat) (cs : List Char) : Option Nat :=
  match cs with
  | '+' :: digits => natOfDigits? radix digits
  | _ => natOfDigits? radix cs

/-- The character with this code, if there is one. -/
def charOfCode? (n : Nat) : Option Char := if h : n.isValidChar then some (Char.ofNatAux n h) else none

/-- The 64-bit integer with this value, if there is one. -/
def narrow? (i : Int) : Option Int64 :=
  if Int64.minValue.toInt ≤ i ∧ i ≤ Int64.maxValue.toInt then some (Int64.ofInt i) else none

theorem narrow?_toInt (i : Int64) : narrow? i.toInt = some i := by
  rw [narrow?, if_pos ⟨i.minValue_le_toInt, i.toInt_le⟩, Int64.ofInt_toInt]

theorem toInt_of_narrow? {i : Int} {n : Int64} (fits : narrow? i = some n) : n.toInt = i := by
  unfold narrow? at fits
  split at fits
  · next bounds =>
    cases fits
    have low : Int64.minValue.toInt = -9223372036854775808 := by decide
    have high : Int64.maxValue.toInt = 9223372036854775807 := by decide
    exact Int64.toInt_ofInt_of_le (by omega) (by omega)
  · cases fits

/-- The positive double nearest to `coefficient * 10 ^ exponent`. Beyond these bounds every such number
is infinite or zero, whatever its digits. -/
def Double.ofDecimal (coefficient : Nat) (exponent : Int) : Double :=
  let size := exponent + (Nat.toDigits 10 coefficient).length
  if coefficient = 0 ∨ size < -400 then ⟨0⟩
  else if 400 < size then infinity
  else ofFloat (Float.ofScientific coefficient (exponent < 0) exponent.natAbs)

/-- An unsigned decimal number: digits with at most one point among or around them, at least one
digit, and an optional exponent. -/
def decimal? (cs : List Char) : Option Double := do
  let whole := cs.takeWhile Char.isDigit
  let rest := cs.dropWhile Char.isDigit
  let (fraction, rest) :=
    match rest with
    | '.' :: rest => (rest.takeWhile Char.isDigit, rest.dropWhile Char.isDigit)
    | _ => ([], rest)
  let coefficient ← natOfDigits? 10 (whole ++ fraction)
  let exponent ←
    match rest with
    | [] => some 0
    | 'e' :: digits | 'E' :: digits => intOfDigits? 10 digits
    | _ => none
  some (Double.ofDecimal coefficient (exponent - fraction.length))

/-- A number as texts write it: a decimal number, `inf`, `infinity` or `nan` in any case, and an
optional sign. -/
def Double.ofText? (text : String) : Option Double :=
  let (negative, magnitude) := signed? text.toList
  let value :=
    match String.ofList (magnitude.map Char.toLower) with
    | "inf" | "infinity" => some infinity
    | "nan" => some nan
    | _ => decimal? magnitude
  value.map fun d => if negative then d.neg else d

end SnippetKernel
