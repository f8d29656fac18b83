import SnippetKernel.Value.Repr

/-! Arithmetic. Integers are computed exactly and then have to fit 64 bits; a result that does not fit
raises `OverflowError` and never wraps. Division rounds toward minus infinity, and a remainder has
the sign of the divisor. -/
namespace SnippetKernel

namespace Value

open Source (BinaryOp UnaryOp)

def zeroDivision (message : String) : Exception := ⟨.zeroDivision, message⟩

def intOverflow : Exception := ⟨.overflow, "integer overflow (integers are 64-bit)"⟩

/-- An exact result, if it fits. -/
def fit (i : Int) : Except Exception Value :=
  match narrow? i with
  | some n => .ok (int n)
  | Option.none => .error intOverflow

/-- The largest magnitude whose power `n` can fit is small unless `n` is: beyond 64 factors only 0, 1 and
-1 have powers that fit. -/
def intPower (a : Int64) (n : Nat) : Except Exception Value :=
  if a = 0 ∨ a = 1 then fit (if n = 0 then 1 else a.toInt)
  else if a = -1 then fit (if n % 2 = 0 then 1 else -1)
  else if 64 < n then .error intOverflow
  else fit (a.toInt.pow n)

/-- `a op b` on integers. -/
def intOp (op : BinaryOp) (a b : Int64) : Except Exception Value :=
  let x := a.toInt
  let y := b.toInt
  match op with
  | .add => fit (x + y)
  | .sub => fit (x - y)
  | .mul => fit (x * y)
  | .div =>
    if b = 0 then .error (zeroDivision "division by zero")
    else .ok (float ((Double.ofInt64 a).div (Double.ofInt64 b)))
  | .floorDiv =>
    if b = 0 then .error (zeroDivision "integer division or modulo by zero") else fit (x.fdiv y)
  | .mod =>
    if b = 0 then .error (zeroDivision "integer division or modulo by zero")
    else if x = Int64.minValue.toInt ∧ y = -1 then .error intOverflow
    else fit (x.fmod y)
  | .pow =>
    if b < 0 then
      if a = 0 then .error (zeroDivision "0.0 cannot be raised to a negative power")
      else .ok (float ((Double.ofInt64 a).pow (Double.ofInt64 b)))
    else if y < Int.pow 2 32 then intPower a y.toNat
    else .error intOverflow

/-- The remainder with the sign of the divisor. -/
def floatMod (a b : Double) : Double :=
  let r := a.remainder b
  let zero := Double.ofInt64 0
  if !r.eq zero && (r.lt zero != b.lt zero) then r.add b else r

def floatPower (a b : Double) : Except Exception Value :=
  let zero := Double.ofInt64 0
  if a.eq zero && b.lt zero then .error (zeroDivision "0.0 cannot be raised to a negative power")
  else
    let r := a.pow b
    if r.isNaN && !a.isNaN && !b.isNaN then
      .error (.valueError "negative number cannot be raised to a fractional power")
    else if r.isInfinite && a.isFinite && b.isFinite then
      .error ⟨.overflow, "numerical result out of range"⟩
    else .ok (float r)

/-- `a op b` on floating point numbers. -/
def floatOp (op : BinaryOp) (a b : Double) : Except Exception Value :=
  let byZero := b.eq (Double.ofInt64 0)
  match op with
  | .add => .ok (float (a.add b))
  | .sub => .ok (float (a.sub b))
  | .mul => .ok (float (a.mul b))
  | .div =>
    if byZero then .error (zeroDivision "float division by zero") else .ok (float (a.div b))
  | .floorDiv =>
    if byZero then .error (zeroDivision "float floor division by zero")
    else .ok (float (a.div b).floor)
  | .mod => if byZero then .error (zeroDivision "float modulo") else .ok (float (floatMod a b))
  | .pow => floatPower a b

/-- Two integers are computed with as integers, other numbers as floating point numbers. -/
def numberOp (op : BinaryOp) : Number → Number → Except Exception Value
  | .int a, .int b => intOp op a b
  | a, b => floatOp op a.toDouble b.toDouble

/-- Sequences made by repetition have at most this many items, or bytes if they are text. -/
def maxRepeated : Nat := 64 * 1024 * 1024

def repeatCount (unit : Nat) (times : Int64) : Except Exception Nat :=
  let n := times.toInt.toNat
  if maxRepeated < unit * n then .error ⟨.overflow, "repeated sequence is too long"⟩
  else .ok (if unit = 0 then 0 else n)

/-- A text written `n` times, by doubling. -/
def repeatText (text : String) (n : Nat) : String :=
  if _done : n = 0 then ""
  else
    let half := repeatText text (n / 2)
    if n % 2 = 0 then half ++ half else half ++ half ++ text
termination_by n
decreasing_by omega

def repeatItems {α : Type} (items : Array α) (n : Nat) : Array α :=
  go n #[]
where
  go : Nat → Array α → Array α
    | 0, acc => acc
    | n + 1, acc => go n (acc ++ items)

/-- `sequence * times`, for a text, list or tuple. -/
def repeated? (h : Cells) (sequence times : Value) : Option (HeapM Value) :=
  match sequence, times.int? with
  | str text, some n => some do
    return .str (repeatText text (← HeapM.ofExcept (repeatCount text.utf8ByteSize n)))
  | list ref, some n => some do
    HeapM.newListOf (repeatItems (h.list ref) (← HeapM.ofExcept (repeatCount (h.list ref).size n)))
  | tuple _ items, some n => some do
    let n ← HeapM.ofExcept (repeatCount items.length n)
    HeapM.newTuple (repeatItems items.toArray n).toList
  | _, _ => Option.none

def unsupported (op : BinaryOp) (a b : Value) : Exception :=
  .typeError ("unsupported operand type(s) for " ++ op.text ++ ": '" ++ a.typeName ++ "' and '"
    ++ b.typeName ++ "'")

/-- `a op b` -/
def binary (op : BinaryOp) (a b : Value) : HeapM Value := do
  match a.number?, b.number? with
  | some x, some y => HeapM.ofExcept (numberOp op x y)
  | _, _ =>
    match op, a, b with
    | .add, str x, str y => return .str (x ++ y)
    | .add, list r, list s =>
      let h ← get
      HeapM.newListOf (h.list r ++ h.list s)
    | .add, tuple _ xs, tuple _ ys => HeapM.newTuple (xs ++ ys)
    | .mul, a, b =>
      let h ← get
      match repeated? h a b, repeated? h b a with
      | some make, _ => make
      | _, some make => make
      | _, _ => throw (unsupported op a b)
    | .mod, str _, _ =>
      throw (.typeError "printf-style '%' formatting is not supported; use f-strings or str.format")
    | op, a, b => throw (unsupported op a b)

/-- `op a` -/
def unary (h : Cells) (op : UnaryOp) (a : Value) : Except Exception Value :=
  match op, a.number? with
  | .not, _ => .ok (bool !(a.truthy h))
  | .neg, some (.int i) => fit (-i.toInt)
  | .neg, some (.float d) => .ok (float d.neg)
  | .neg, Option.none => .error (.typeError ("bad operand type for unary -: '" ++ a.typeName ++ "'"))
  | .pos, some (.int i) => .ok (int i)
  | .pos, some (.float d) => .ok (float d)
  | .pos, Option.none => .error (.typeError ("bad operand type for unary +: '" ++ a.typeName ++ "'"))

end Value

end SnippetKernel
