import SnippetKernel.Number.Reading

/-! Reading natural numbers below a bound. -/
namespace SnippetKernel.Bounded

/-- Why a text is no number below the bound. -/
inductive Refusal where
  | empty
  | invalidDigit
  | tooLarge
  deriving DecidableEq

def Refusal.message : Refusal → String
  | .empty => "cannot parse integer from empty string"
  | .invalidDigit => "invalid digit found in string"
  | .tooLarge => "number too large to fit in target type"

/-- The number whose digits are those of `value` and then these. The first character at which the number
reaches the bound, or that is no digit, decides. -/
def digits (bound value : Nat) : List Char → Except Refusal Nat
  | [] => .ok value
  | c :: rest =>
    match digitValue? c with
    | none => .error .invalidDigit
    | some d =>
      if 10 ≤ d then .error .invalidDigit
      else if bound ≤ value * 10 + d then .error .tooLarge
      else digits bound (value * 10 + d) rest

/-- A number in base ten below `bound`, which may have a plus sign in front. -/
def ofText (bound : Nat) (text : String) : Except Refusal Nat :=
  match text.toList with
  | [] => .error .empty
  | ['+'] => .error .invalidDigit
  | '+' :: rest => digits bound 0 rest
  | cs => digits bound 0 cs

def ofText? (bound : Nat) (text : String) : Option Nat := (ofText bound text).toOption

theorem digits_lt {bound value n : Nat} {cs : List Char} (start : value < bound)
    (h : digits bound value cs = .ok n) : n < bound := by
  induction cs generalizing value with
  | nil => cases h; exact start
  | cons c rest ih =>
    simp only [digits] at h
    split at h
    · contradiction
    · split at h
      · contradiction
      · split at h
        · contradiction
        · next fits => exact ih (by omega) h

theorem ofText_lt {bound n : Nat} {text : String} (positive : 0 < bound)
    (h : ofText bound text = .ok n) : n < bound := by
  simp only [ofText] at h
  split at h
  · contradiction
  · contradiction
  · exact digits_lt positive h
  · exact digits_lt positive h

end SnippetKernel.Bounded
