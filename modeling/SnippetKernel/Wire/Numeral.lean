import SnippetKernel.Number.Reading
import SnippetKernel.Wire.Json
import SnippetKernel.Wire.Place

/-! Number literals of documents. Of a long literal only the leading digits that fit 64 bits count; the
digits before the point that were left out count as powers of ten. -/
namespace SnippetKernel.Wire

variable {s : String}

/-- The magnitude `significand * 10 ^ exponent` of a literal. -/
structure Numeral where
  negative : Bool
  significand : Nat
  exponent : Int
  /-- The literal has neither point nor exponent, and all its digits were kept. -/
  isExact : Bool
  deriving DecidableEq

namespace Numeral

def maxSignificand : Nat := Nat.pow 2 64 - 1

def digitOf (c : Char) : Nat := c.toNat - 48

/-- Digits before the point. -/
def wholeDigits {start : s.Pos} (p : From start) (significand dropped : Nat) :
    Nat × Nat × From start :=
  match next? p.1 with
  | none => (significand, dropped, p)
  | some (c, q) =>
    have := q.2
    let r : From start := (p.step q).toFrom
    if c.isDigit then
      let longer := significand * 10 + digitOf c
      if dropped = 0 ∧ longer ≤ maxSignificand then wholeDigits r longer 0
      else wholeDigits r significand (dropped + 1)
    else (significand, dropped, p)
  termination_by p.1

/-- The digits behind the point: the significand with those that fit, how many fit, and how many there
are. -/
def fractionDigits {start : s.Pos} (p : From start) (significand kept count : Nat) :
    Nat × Nat × Nat × From start :=
  match next? p.1 with
  | none => (significand, kept, count, p)
  | some (c, q) =>
    have := q.2
    let r : From start := (p.step q).toFrom
    if c.isDigit then
      let longer := significand * 10 + digitOf c
      if kept = count ∧ longer ≤ maxSignificand then fractionDigits r longer (kept + 1) (count + 1)
      else fractionDigits r significand kept (count + 1)
    else (significand, kept, count, p)
  termination_by p.1

/-- An exponent of this size is as good as any that is larger. -/
def maxExponent : Nat := Nat.pow 2 40

def exponentDigits {start : s.Pos} (p : From start) (value count : Nat) : Nat × Nat × From start :=
  match next? p.1 with
  | none => (value, count, p)
  | some (c, q) =>
    have := q.2
    if c.isDigit then
      exponentDigits (p.step q).toFrom (min (value * 10 + digitOf c) maxExponent)
        (count + 1)
    else (value, count, p)
  termination_by p.1

/-- A sign, if there is one: whether it is a minus, and the place behind it. -/
def sign (p : s.Pos) : Bool × From p :=
  match next? p with
  | some ('-', q) => (true, q.toFrom)
  | some ('+', q) => (false, q.toFrom)
  | _ => (false, .here p)

/-- The part from `e` on, if there is one; the place where it would begin is given. -/
def readExponent? (p : s.Pos) : Option (Option Int × From p) :=
  match next? p with
  | none => some (none, .here p)
  | some (c, q) =>
    if c = 'e' ∨ c = 'E' then
      match exponentDigits (.here (sign q.1).2.1) 0 0 with
      | (value, count, r) =>
        if count = 0 then none
        else
          some (some (if (sign q.1).1 then -(value : Int) else value), ((q.skip (sign q.1).2).skip r).toFrom)
    else some (none, .here p)

/-- The part from the point on, if there is one: the digits that fit, and how many of them there are. -/
def readFraction? (p : s.Pos) (significand : Nat) : Option (Option (Nat × Nat) × From p) :=
  match next? p with
  | none => some (none, .here p)
  | some (c, q) =>
    if c = '.' then
      match fractionDigits (.here q.1) significand 0 0 with
      | (significand, kept, count, r) =>
        if count = 0 then none else some (some (significand, kept), (q.skip r).toFrom)
    else some (none, .here p)

/-- A literal without its sign. A zero in front stands alone. -/
def readUnsigned? (negative : Bool) (p : s.Pos) : Option (Numeral × After p) :=
  match next? p with
  | none => none
  | some (c, q) =>
    if c.isDigit then
      match wholeDigits (.here q.1) (digitOf c) 0 with
      | (significand, dropped, r) =>
        if c = '0' ∧ r.1 ≠ q.1 then none
        else
          match readFraction? r.1 significand with
          | none => none
          | some (fraction, t) =>
            match readExponent? t.1 with
            | none => none
            | some (exponent, u) =>
              let (significand, kept) := fraction.getD (significand, 0)
              let numeral : Numeral :=
                { negative, significand
                  exponent := (dropped : Int) - kept + exponent.getD 0
                  isExact := dropped = 0 && fraction.isNone && exponent.isNone }
              some (numeral, ((q.skip r).skip t).skip u)
    else none

/-- A literal. -/
def read? (p : s.Pos) : Option (Numeral × After p) :=
  match next? p with
  | none => none
  | some (c, q) =>
    if c = '-' then (readUnsigned? true q.1).map fun (n, r) => (n, q.trans r) else readUnsigned? false p

def powerOfTen (n : Nat) : Double := Double.ofDecimal 1 n

/-- The largest power of ten that is a double. -/
def maxPower : Nat := 308

/-- Divides by `10 ^ n`, in as few steps as the powers of ten allow. -/
def scaleDown (d : Double) (n : Nat) : Double :=
  if n ≤ maxPower then d.div (powerOfTen n)
  else if d.isZero then d
  else scaleDown (d.div (powerOfTen maxPower)) (n - maxPower)
  termination_by n
  decreasing_by simp only [maxPower] at *; omega

/-- The magnitude as a double, unless it is too large for one. -/
def magnitude? (n : Numeral) : Option Double :=
  let d := Double.ofUInt64 (UInt64.ofNat n.significand)
  if n.exponent < 0 then some (scaleDown d n.exponent.natAbs)
  else if n.exponent ≤ maxPower then
    let scaled := d.mul (powerOfTen n.exponent.natAbs)
    if scaled.isInfinite then none else some scaled
  else if d.isZero then some d
  else none

/-- What the literal stands for, unless it is out of range. -/
def value? (n : Numeral) : Option JsonNumber :=
  if n.isExact ∧ !n.negative then some (.natural (UInt64.ofNat n.significand))
  else if n.isExact ∧ 0 < n.significand ∧ n.significand ≤ Nat.pow 2 63 then
    some (.negative (Int64.ofInt (-n.significand)))
  else n.magnitude?.map fun d => .float (if n.negative then d.neg else d)

end Numeral

end SnippetKernel.Wire
