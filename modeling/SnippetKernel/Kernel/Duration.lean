import SnippetKernel.Number.Layout

/-! Spans of time. -/
namespace SnippetKernel

structure Duration where
  nanos : Nat
  deriving DecidableEq, Ord

namespace Duration

def ofSeconds (n : Nat) : Duration := ⟨n * 1000000000⟩

def ofMillis (n : Nat) : Duration := ⟨n * 1000000⟩

def seconds (d : Duration) : Nat := d.nanos / 1000000000

/-- The nanoseconds beyond whole seconds. -/
def subsecond (d : Duration) : Nat := d.nanos % 1000000000

/-- A whole number of units and what is left of one, of which a unit has `10 ^ places`. -/
def inUnits (whole rest places : Nat) (unit : String) : String :=
  let digits := (Digits.padded rest places).reverse.dropWhile (· = '0')
  let fraction := if digits.isEmpty then [] else '.' :: digits.reverse
  toString whole ++ String.ofList fraction ++ unit

/-- The duration in the largest unit of which there is at least one. -/
def text (d : Duration) : String :=
  if 0 < d.seconds then inUnits d.seconds d.subsecond 9 "s"
  else if 1000000 ≤ d.nanos then inUnits (d.nanos / 1000000) (d.nanos % 1000000) 6 "ms"
  else if 1000 ≤ d.nanos then inUnits (d.nanos / 1000) (d.nanos % 1000) 3 "µs"
  else toString d.nanos ++ "ns"

/-- Never an exponent, and no point in an integral value. -/
def secondsLayout : Layout :=
  { positionalFrom := -400, positionalTo := 400, keepsPoint := false, plusExponent := false,
    exponentWidth := 1, nanText := "NaN" }

/-- The seconds of the duration, as the nearest double. -/
def inSeconds (d : Duration) : Double :=
  (Double.ofUInt64 (UInt64.ofNat d.seconds)).add
    ((Double.ofUInt64 (UInt64.ofNat d.subsecond)).div (Double.ofUInt64 1000000000))

/-- The number of seconds. -/
def secondsText (d : Duration) : String := d.inSeconds.text secondsLayout

end Duration

end SnippetKernel
