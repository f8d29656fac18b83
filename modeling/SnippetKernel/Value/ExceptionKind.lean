/-! The classes of exceptions. Each one but the first derives from another. -/
namespace SnippetKernel

inductive ExceptionKind where
  | exception | arithmetic | zeroDivision | overflow | lookup | key | index | name | type | value
  | attr | runtime | recursion | notImplemented | assertion | import_ | moduleNotFound
  | stopIteration | syntaxError
  /-- The interpreter itself gave up. Programs have no name for it. -/
  | internal
  deriving DecidableEq, Repr

namespace ExceptionKind

/-- The classes that programs can name. -/
def all : List ExceptionKind :=
  [exception, arithmetic, zeroDivision, overflow, lookup, key, index, name, type, value, attr,
    runtime, recursion, notImplemented, assertion, import_, moduleNotFound, stopIteration,
    syntaxError]

def text : ExceptionKind → String
  | exception => "Exception"
  | arithmetic => "ArithmeticError"
  | zeroDivision => "ZeroDivisionError"
  | overflow => "OverflowError"
  | lookup => "LookupError"
  | key => "KeyError"
  | index => "IndexError"
  | name => "NameError"
  | type => "TypeError"
  | value => "ValueError"
  | attr => "AttributeError"
  | runtime => "RuntimeError"
  | recursion => "RecursionError"
  | notImplemented => "NotImplementedError"
  | assertion => "AssertionError"
  | import_ => "ImportError"
  | moduleNotFound => "ModuleNotFoundError"
  | stopIteration => "StopIteration"
  | syntaxError => "SyntaxError"
  | internal => "InternalError"

def ofText? (text : String) : Option ExceptionKind := all.find? (·.text == text)

/-- The class that a class derives from. -/
def parent? : ExceptionKind → Option ExceptionKind
  | exception => none
  | zeroDivision | overflow => some arithmetic
  | key | index => some lookup
  | recursion | notImplemented => some runtime
  | moduleNotFound => some import_
  | _ => some exception

/-- A class, the class it derives from, and so on. -/
def lineage (k : ExceptionKind) : List ExceptionKind :=
  match k.parent? with
  | none => [k]
  | some p =>
    match p.parent? with
    | none => [k, p]
    | some q => [k, p, q]

/-- No class is more than two steps below the first one. -/
theorem exception_mem_lineage (k : ExceptionKind) : exception ∈ k.lineage := by
  cases k <;> decide

/-- The class is the other one, or derives from it. -/
def derivesFrom (k other : ExceptionKind) : Bool := k.lineage.contains other

end ExceptionKind

/-- An exception without its identity. -/
structure Exception where
  kind : ExceptionKind
  message : String
  deriving DecidableEq

namespace Exception

/-- The class, and the message if there is one. -/
def summary (e : Exception) : String :=
  if e.message.isEmpty then e.kind.text else e.kind.text ++ ": " ++ e.message

def typeError (message : String) : Exception := ⟨.type, message⟩

def valueError (message : String) : Exception := ⟨.value, message⟩

end Exception

end SnippetKernel
