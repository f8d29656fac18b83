import SnippetKernel.Number.Double

/-! The decimal digits of a double, chosen by exact arithmetic on its bits. `shortest` gives the
fewest digits that read back to the double; `atPlace` and `significant` round to a number of places
or of digits, ties to even. How digits are laid out as text is `Number.Layout`. -/
namespace SnippetKernel

/-- The number `0.d₁d₂… * 10 ^ point` for the decimal digits `d₁d₂…` of `coefficient`. -/
structure Digits where
  coefficient : Nat
  /-- How many digits `coefficient` is written with. -/
  count : Nat
  point : Int
  deriving DecidableEq, Repr

namespace Digits

/-- `num / den` is at least `10 ^ k`. -/
def atLeastPowerOfTen (num den : Nat) (k : Int) : Bool :=
  den * Nat.pow 10 k.toNat ≤ num * Nat.pow 10 (-k).toNat

/-- The `k` with `10 ^ (k - 1) ≤ num / den < 10 ^ k`, for positive numbers. The first guess, by the
number of bits, is at most a few too low. -/
def magnitude (num den : Nat) : Int :=
  climb 8 (((num.log2 : Int) - den.log2 - 1) * 1233 / 4096)
where
  climb : Nat → Int → Int
    | 0, k => k
    | n + 1, k => if atLeastPowerOfTen num den k then climb n (k + 1) else k

/-- `num / den` rounded to the nearest integer, a tie to the even one. -/
def roundDiv (num den : Nat) : Nat :=
  let low := num / den
  let twice := 2 * (num % den)
  if twice < den ∨ (twice = den ∧ low % 2 = 0) then low else low + 1

/-- The reals that read as a positive double: from `low / den` to `high / den`, ends included iff the
significand is even. -/
structure Interval where
  low : Nat
  value : Nat
  high : Nat
  den : Nat
  closed : Bool

/-- Halfway to the neighbours on both sides. Below a power of two the neighbour is half as far. -/
def interval (d : Double) : Interval :=
  let ⟨m, e⟩ := d.parts
  let below := if m = Nat.pow 2 52 ∧ -1074 < e then 1 else 2
  let scale := Nat.pow 2 (e - 2).toNat
  { low := (4 * m - below) * scale, value := 4 * m * scale, high := (4 * m + 2) * scale,
    den := Nat.pow 2 (2 - e).toNat, closed := m % 2 = 0 }

/-- A number with `n` digits before the point `k` that lies in the interval: the nearer one of the two
neighbours of the value, the upper one if they are equally near. -/
def candidate (i : Interval) (k : Int) (n : Nat) : Option Nat :=
  let place := k - n
  let up := Nat.pow 10 (-place).toNat
  let unit := i.den * Nat.pow 10 place.toNat
  let low := i.value * up / unit
  let rest := i.value * up % unit
  let lowFits :=
    if i.closed then i.low * up ≤ low * unit else i.low * up < low * unit
  let highFits :=
    if i.closed then (low + 1) * unit ≤ i.high * up else (low + 1) * unit < i.high * up
  if lowFits && highFits then some (if 2 * rest < unit then low else low + 1)
  else if lowFits then some low
  else if highFits then some (low + 1)
  else none

/-- A coefficient that grew by one digit stands for a number with a larger point. -/
def normalize (coefficient count : Nat) (point : Int) : Digits :=
  if coefficient = Nat.pow 10 count then ⟨1, 1, point + 1⟩ else ⟨coefficient, count, point⟩

/-- Seventeen digits always suffice. -/
def search (i : Interval) (k : Int) : Nat → Nat → Digits
  | 0, n => ⟨i.value * Nat.pow 10 (n - k).toNat / (i.den * Nat.pow 10 (k - n).toNat), n, k⟩
  | fuel + 1, n =>
    match candidate i k n with
    | some coefficient => normalize coefficient n k
    | none => search i k fuel (n + 1)

/-- The fewest digits that read back to the magnitude of a finite double. -/
def shortest (d : Double) : Digits :=
  if d.isZero then ⟨0, 1, 1⟩
  else
    let (num, den) := d.quotient
    search (interval d) (magnitude num den) 17 1

/-- The magnitude of a finite double in units of `10 ^ -places`. -/
def atPlace (d : Double) (places : Nat) : Nat :=
  let (num, den) := d.quotient
  roundDiv (num * Nat.pow 10 places) den

/-- The magnitude of a finite double with `n` significant digits. -/
def significant (d : Double) (n : Nat) : Digits :=
  if d.isZero then ⟨0, n, 1⟩
  else
    let (num, den) := d.quotient
    let k := magnitude num den
    let coefficient := roundDiv (num * Nat.pow 10 (n - k).toNat) (den * Nat.pow 10 (k - n).toNat)
    if coefficient = Nat.pow 10 n then ⟨Nat.pow 10 (n - 1), n, k + 1⟩ else ⟨coefficient, n, k⟩

end Digits

end SnippetKernel
