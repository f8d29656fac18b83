/-! Floating point numbers of 64 bits, kept as their bits. Two doubles are the same value of this type
iff they have the same bits, so the sign of a NaN and the sign of zero are part of a double; the
numerical comparisons are `Double.eq` and `Double.compare?`.

Arithmetic is core's `Float`. What `Float` leaves open is which NaN an operation gives: here an
operand that is a NaN comes back, the first one first, and an invalid operation on numbers gives
the negative NaN. -/
namespace SnippetKernel

/-- The bits of a number: sign, eleven bits of exponent, fifty-two bits of fraction. -/
structure Double where
  bits : UInt64
  deriving DecidableEq, Hashable, Inhabited

namespace Double

def signBit : UInt64 := 0x8000000000000000

def exponentMask : UInt64 := 0x7FF0000000000000

def fractionMask : UInt64 := 0x000FFFFFFFFFFFFF

def toFloat (d : Double) : Float := Float.ofBits d.bits

def isNaN (d : Double) : Bool :=
  d.bits &&& exponentMask == exponentMask && d.bits &&& fractionMask != 0

def isInfinite (d : Double) : Bool :=
  d.bits &&& exponentMask == exponentMask && d.bits &&& fractionMask == 0

def isFinite (d : Double) : Bool := d.bits &&& exponentMask != exponentMask

/-- The sign bit is set; true of negative zero and of a negative NaN too. -/
def isNegative (d : Double) : Bool := d.bits &&& signBit != 0

def isZero (d : Double) : Bool := d.bits &&& ~~~signBit == 0

def nan : Double := ⟨0x7FF8000000000000⟩

def infinity : Double := ⟨exponentMask⟩

/-- The result of an operation on numbers that are not NaN. -/
def ofFloat (f : Float) : Double := if f.isNaN then ⟨nan.bits ||| signBit⟩ else ⟨f.toBits⟩

def neg (d : Double) : Double := ⟨d.bits ^^^ signBit⟩

def abs (d : Double) : Double := ⟨d.bits &&& ~~~signBit⟩

def map (op : Float → Float) (a : Double) : Double := if a.isNaN then a else ofFloat (op a.toFloat)

def map₂ (op : Float → Float → Float) (a b : Double) : Double :=
  if a.isNaN then a else if b.isNaN then b else ofFloat (op a.toFloat b.toFloat)

def ofInt64 (i : Int64) : Double := ofFloat i.toFloat

def ofUInt64 (n : UInt64) : Double := ofFloat n.toFloat

def add : Double → Double → Double := map₂ (· + ·)

def sub : Double → Double → Double := map₂ (· - ·)

def mul : Double → Double → Double := map₂ (· * ·)

def div : Double → Double → Double := map₂ (· / ·)

/-- Anything to the power zero is one, and so is one to any power, NaN or not. -/
def pow (a b : Double) : Double :=
  if b.isZero || a == ofInt64 1 then ofInt64 1 else map₂ Float.pow a b

def floor : Double → Double := map Float.floor

def ceil : Double → Double := map Float.ceil

def sqrt : Double → Double := map Float.sqrt

def log : Double → Double := map Float.log

def exp : Double → Double := map Float.exp

def sin : Double → Double := map Float.sin

def cos : Double → Double := map Float.cos

/-- Numerical equality: the zeros are equal, and a NaN equals nothing. -/
def eq (a b : Double) : Bool := a.toFloat == b.toFloat

def lt (a b : Double) : Bool := a.toFloat < b.toFloat

def le (a b : Double) : Bool := a.toFloat ≤ b.toFloat

/-- Numerical order; a NaN has no place in it. -/
def compare? (a b : Double) : Option Ordering :=
  if a.lt b then some .lt else if b.lt a then some .gt else if a.eq b then some .eq else none

/-- A finite double is `significand * 2 ^ exponent`, with the sign apart. -/
structure Parts where
  significand : Nat
  exponent : Int
  deriving DecidableEq

/-- The magnitude of a finite double. -/
def parts (d : Double) : Parts :=
  let field := ((d.bits &&& exponentMask) >>> 52).toNat
  let fraction := (d.bits &&& fractionMask).toNat
  if field = 0 then ⟨fraction, -1074⟩ else ⟨fraction + Nat.pow 2 52, field - 1075⟩

/-- The magnitude of a finite double as a quotient of two integers. -/
def quotient (d : Double) : Nat × Nat :=
  let ⟨m, e⟩ := d.parts
  if 0 ≤ e then (m * Nat.pow 2 e.toNat, 1) else (m, Nat.pow 2 (-e).toNat)

/-- A finite double rounded toward zero. -/
def truncate (d : Double) : Int :=
  let (num, den) := d.quotient
  if d.isNegative then -((num / den : Nat) : Int) else ((num / den : Nat) : Int)

/-- The double has an integer value. -/
def isIntegral (d : Double) : Bool :=
  d.isFinite && (let (num, den) := d.quotient; num % den == 0)

/-- The double that is `significand * 2 ^ exponent`, for a value that a double can hold. -/
def ofParts (negative : Bool) (p : Parts) : Double :=
  let magnitude := ofFloat ((Float.ofNat p.significand).scaleB p.exponent)
  if negative then magnitude.neg else magnitude

/-- The integral double nearest to `d`; of two that are equally near, the even one. -/
def roundTiesEven (d : Double) : Double :=
  if !d.isFinite then d
  else
    let (num, den) := d.quotient
    let low := num / den
    let twice := 2 * (num % den)
    let rounded := if twice < den ∨ (twice = den ∧ low % 2 = 0) then low else low + 1
    if num % den = 0 then d else ofParts d.isNegative ⟨rounded, 0⟩

/-- What is left of `a` after taking away `b` as often as it goes in; it has the sign of `a`. -/
def remainder (a b : Double) : Double :=
  if a.isNaN then a
  else if b.isNaN then b
  else if a.isInfinite || b.isZero then ⟨nan.bits ||| signBit⟩
  else if b.isInfinite then a
  else
    let ⟨ma, ea⟩ := a.parts
    let ⟨mb, eb⟩ := b.parts
    let e := min ea eb
    let rest := (ma * Nat.pow 2 (ea - e).toNat) % (mb * Nat.pow 2 (eb - e).toNat)
    ofParts a.isNegative ⟨rest, e⟩

/-- `base` multiplied by itself, by repeated squaring. -/
def powNat (base : Double) (n : Nat) : Double :=
  go base n (ofInt64 1)
where
  go (base : Double) (n : Nat) (acc : Double) : Double :=
    let acc := if n % 2 = 1 then acc.mul base else acc
    if h : n / 2 = 0 then acc else go (base.mul base) (n / 2) acc
  termination_by n
  decreasing_by omega

/-- An integer power, the reciprocal of the positive power where the exponent is negative. -/
def powInt (base : Double) (n : Int) : Double :=
  let positive := powNat base n.natAbs
  if n < 0 then (ofInt64 1).div positive else positive

end Double

end SnippetKernel
