import SnippetKernel.Program.Machine

/-! The arguments of the functions and methods that are always there: how many there may be, which
keywords are known, and of what type they have to be. -/
namespace SnippetKernel

/-- Arguments given by name. -/
abbrev Keywords := List (String × Value)

/-- What a call of a value does. -/
abbrev ValueCaller := Value → List Value → Keywords → Run Value

namespace Arguments

/-- The message for a number of arguments that is not from `least` to `most`. -/
def arityMessage (name : String) (given least : Nat) (most : Option Nat) : String :=
  let expected :=
    if most = some least then "exactly " ++ toString least
    else if given < least then "at least " ++ toString least
    else "at most " ++ toString (most.getD 0)
  let single := (most = some least ∧ least = 1) ∨ (most = some 1 ∧ 1 < given)
  name ++ "() takes " ++ expected ++ (if single then " argument (" else " arguments (")
    ++ toString given ++ " given)"

/-- There are from `least` to `most` arguments; without `most` there may be any number. -/
def arity (name : String) (args : List Value) (least : Nat) (most : Option Nat) : Work Unit := do
  let given := args.length
  unless least ≤ given ∧ most.all (given ≤ ·) do
    Work.raiseTypeError (arityMessage name given least most)

def exactly (name : String) (args : List Value) (n : Nat) : Work Unit := arity name args n (some n)

/-- No keyword is left over. -/
def noKeywords (name : String) (keywords : Keywords) : Work Unit := do
  match keywords with
  | [] => return
  | (key, _) :: _ =>
    Work.raiseTypeError (name ++ "() got an unexpected keyword argument '" ++ key ++ "'")

/-- The value of a keyword, and the other keywords. -/
def take (key : String) (keywords : Keywords) : Option Value × Keywords :=
  (keywords.lookup key, keywords.eraseP (·.1 == key))

def int (name : String) (v : Value) : Work Int64 := do
  match v.int? with
  | some i => return i
  | none => Work.raiseTypeError (name ++ "() argument must be int, not '" ++ v.typeName ++ "'")

def number (name : String) (v : Value) : Work Double := do
  match v.number? with
  | some n => return n.toDouble
  | none =>
    Work.raiseTypeError ("must be real number, not " ++ v.typeName ++ " (in " ++ name ++ "())")

def text (name : String) (v : Value) : Work String := do
  match v with
  | .str text => return text
  | v => Work.raiseTypeError (name ++ "() argument must be str, not " ++ v.typeName)

/-- The first argument, which is there when the arity was checked. -/
def first (args : List Value) : Value := args.headD .none

def second (args : List Value) : Value := args.tail.headD .none

end Arguments

end SnippetKernel
