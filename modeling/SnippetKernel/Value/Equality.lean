import SnippetKernel.Value.Heap

/-! Equality and order of values. Both look into containers, at most `maxDepth` deep: two containers
that contain themselves would otherwise be compared for ever. -/
namespace SnippetKernel

namespace Value

/-- Containers inside containers that a comparison looks into. -/
def maxDepth : Nat := 500

def tooDeep : Exception := ⟨.recursion, "maximum recursion depth exceeded in comparison"⟩

namespace Number

/-- Integers are equal as integers, other numbers as floating point numbers. -/
def eq : Number → Number → Bool
  | int a, int b => a == b
  | a, b => a.toDouble.eq b.toDouble

def compare? : Number → Number → Option Ordering
  | int a, int b => some (compare a b)
  | a, b => a.toDouble.compare? b.toDouble

end Number

/-- Items at the same place are equal, up to the end of the shorter list. -/
def allEqual (eq : Value → Value → Except Exception Bool) :
    List Value → List Value → Except Exception Bool
  | a :: as, b :: bs => do
    if ← eq a b then allEqual eq as bs else return false
  | _, _ => return true

/-- Every entry of the first dict is in the second. -/
def allIn (eq : Value → Value → Except Exception Bool) (d : Dict) :
    List (Value × Value) → Except Exception Bool
  | [] => return true
  | (key, value) :: rest => do
    match ← d.get? key with
    | Option.none => return false
    | some other =>
      if ← eq other value then allIn eq d rest else return false

/-- One container deeper, if that is allowed. -/
def inside {α : Type} (depth : Nat) (body : Nat → Except Exception α) : Except Exception α :=
  match depth with
  | 0 => .error tooDeep
  | depth + 1 => body depth

/-- `==`, looking into at most `depth` nested containers. -/
def equalWithin (h : Cells) (depth : Nat) (a b : Value) : Except Exception Bool :=
  match a.number?, b.number? with
  | some x, some y => return x.eq y
  | _, _ =>
    match depth, a, b with
    | 0, list r, list s =>
      if r == s then return true
      else if (h.list r).size ≠ (h.list s).size then return false
      else throw tooDeep
    | depth + 1, list r, list s =>
      if r == s then return true
      else if (h.list r).size ≠ (h.list s).size then return false
      else allEqual (equalWithin h depth) (h.list r).toList (h.list s).toList
    | 0, tuple _ xs, tuple _ ys =>
      if xs.length ≠ ys.length then return false else throw tooDeep
    | depth + 1, tuple _ xs, tuple _ ys =>
      if xs.length ≠ ys.length then return false else allEqual (equalWithin h depth) xs ys
    | 0, dict r, dict s =>
      if r == s then return true
      else if (h.dict r).size ≠ (h.dict s).size then return false
      else throw tooDeep
    | depth + 1, dict r, dict s =>
      if r == s then return true
      else if (h.dict r).size ≠ (h.dict s).size then return false
      else allIn (equalWithin h depth) (h.dict s) (h.dict r).toList
    | _, range r, range s => return r.same s
    | _, a, b => return a.same b

def equal (h : Cells) (a b : Value) : Except Exception Bool := equalWithin h maxDepth a b

/-- The first items that are not equal decide; if there are none, the shorter list is less. -/
def compareItems (eq : Value → Value → Except Exception Bool)
    (cmp : Value → Value → Except Exception Ordering) :
    List Value → List Value → Except Exception Ordering
  | a :: as, b :: bs => do
    if ← eq a b then compareItems eq cmp as bs else cmp a b
  | [], [] => return .eq
  | [], _ :: _ => return .lt
  | _ :: _, [] => return .gt

/-- The order behind `<`, looking into at most `depth` nested containers. -/
def compareWithin (h : Cells) (depth : Nat) (a b : Value) : Except Exception Ordering :=
  match a.number?, b.number? with
  | some x, some y =>
    match x.compare? y with
    | some order => return order
    | Option.none => throw (.valueError "cannot order NaN values")
  | _, _ =>
    match depth, a, b with
    | _, str a, str b => return compare a b
    | 0, list _, list _ => throw tooDeep
    | depth + 1, list r, list s =>
      compareItems (equalWithin h depth) (compareWithin h depth) (h.list r).toList (h.list s).toList
    | 0, tuple .., tuple .. => throw tooDeep
    | depth + 1, tuple _ xs, tuple _ ys =>
      compareItems (equalWithin h depth) (compareWithin h depth) xs ys
    | _, a, b =>
      throw (.typeError ("'<' not supported between instances of '" ++ a.typeName ++ "' and '"
        ++ b.typeName ++ "'"))

def compareValues (h : Cells) (a b : Value) : Except Exception Ordering := compareWithin h maxDepth a b

/-- The place of the first of the items that equals the value. -/
def position? (h : Cells) (v : Value) (items : List Value) : Except Exception (Option Nat) :=
  go 0 items
where
  go (i : Nat) : List Value → Except Exception (Option Nat)
    | [] => return Option.none
    | item :: rest => do
      if ← equal h item v then return some i else go (i + 1) rest

/-- How many of the items equal the value. -/
def countEqual (h : Cells) (v : Value) (items : List Value) : Except Exception Nat :=
  go 0 items
where
  go (n : Nat) : List Value → Except Exception Nat
    | [] => return n
    | item :: rest => do
      if ← equal h item v then go (n + 1) rest else go n rest

end Value

end SnippetKernel
