import Std.Data.HashMap
import SnippetKernel.Source.Tree
import SnippetKernel.Value.ExceptionKind
import SnippetKernel.Value.Range

/-! Values. A list or dict is a reference to a cell of the heap, so that all who hold it see a change,
and the code of a function is on the heap too. Everything else is in the value itself; tuples,
functions and exceptions carry a number that tells one made here from an equal one made there. -/
namespace SnippetKernel

inductive Module where
  | math | sys | time
  deriving DecidableEq

namespace Module

def text : Module → String
  | math => "math"
  | sys => "sys"
  | time => "time"

def ofText? (text : String) : Option Module := [math, sys, time].find? (·.text == text)

end Module

/-- The two streams that programs write to. -/
inductive Stream where
  | out | err
  deriving DecidableEq

/-- What a value is; also the value of names such as `int`. -/
inductive ValueType where
  | noneType | bool | int | float | str | list | tuple | dict | range | function | builtinFunction
  | method | module | type | stream
  | exception (kind : ExceptionKind)
  deriving DecidableEq

namespace ValueType

def text : ValueType → String
  | noneType => "NoneType"
  | bool => "bool"
  | int => "int"
  | float => "float"
  | str => "str"
  | list => "list"
  | tuple => "tuple"
  | dict => "dict"
  | range => "range"
  | function => "function"
  | builtinFunction => "builtin_function_or_method"
  | method => "method"
  | module => "module"
  | type => "type"
  | stream => "TextIOWrapper"
  | exception kind => kind.text

/-- Values of the type are values of the other type too. -/
def isSubtypeOf (t other : ValueType) : Bool :=
  t == other ||
    match t, other with
    | bool, int => true
    | exception a, exception b => a.derivesFrom b
    | _, _ => false

end ValueType

/-- Functions that are always there, or that a module has. -/
inductive Builtin where
  | print | len | repr | typeOf | abs | min | max | sum | sorted | reversed | round | isinstance
  | enumerate | zip | any | all | chr | ord | divmod | format | sqrt | floor | ceil | log | exp | sin
  | cos | fabs | clock | sleep | monotonic
  deriving DecidableEq

namespace Builtin

def text : Builtin → String
  | print => "print"
  | len => "len"
  | repr => "repr"
  | typeOf => "type"
  | abs => "abs"
  | min => "min"
  | max => "max"
  | sum => "sum"
  | sorted => "sorted"
  | reversed => "reversed"
  | round => "round"
  | isinstance => "isinstance"
  | enumerate => "enumerate"
  | zip => "zip"
  | any => "any"
  | all => "all"
  | chr => "chr"
  | ord => "ord"
  | divmod => "divmod"
  | format => "format"
  | sqrt => "sqrt"
  | floor => "floor"
  | ceil => "ceil"
  | log => "log"
  | exp => "exp"
  | sin => "sin"
  | cos => "cos"
  | fabs => "fabs"
  | clock => "time"
  | sleep => "sleep"
  | monotonic => "monotonic"

/-- The functions that need no module. -/
def global : List Builtin :=
  [print, len, repr, typeOf, abs, min, max, sum, sorted, reversed, round, isinstance, enumerate, zip,
    any, all, chr, ord, divmod, format]

end Builtin

inductive ListMethod where
  | append | pop | extend | insert | index | count | remove | reverse | sort | copy | clear
  deriving DecidableEq

def ListMethod.text : ListMethod → String
  | append => "append"
  | pop => "pop"
  | extend => "extend"
  | insert => "insert"
  | index => "index"
  | count => "count"
  | remove => "remove"
  | reverse => "reverse"
  | sort => "sort"
  | copy => "copy"
  | clear => "clear"

def ListMethod.every : List ListMethod :=
  [append, pop, extend, insert, index, count, remove, reverse, sort, copy, clear]

inductive DictMethod where
  | get | keys | values | items | pop | update | setdefault | copy | clear
  deriving DecidableEq

def DictMethod.text : DictMethod → String
  | get => "get"
  | keys => "keys"
  | values => "values"
  | items => "items"
  | pop => "pop"
  | update => "update"
  | setdefault => "setdefault"
  | copy => "copy"
  | clear => "clear"

def DictMethod.every : List DictMethod :=
  [get, keys, values, items, pop, update, setdefault, copy, clear]

inductive StrMethod where
  | upper | lower | strip | lstrip | rstrip | split | join | replace | startswith | endswith | find
  | count | isdigit | isalpha | format | splitlines | title | capitalize
  deriving DecidableEq

def StrMethod.text : StrMethod → String
  | upper => "upper"
  | lower => "lower"
  | strip => "strip"
  | lstrip => "lstrip"
  | rstrip => "rstrip"
  | split => "split"
  | join => "join"
  | replace => "replace"
  | startswith => "startswith"
  | endswith => "endswith"
  | find => "find"
  | count => "count"
  | isdigit => "isdigit"
  | isalpha => "isalpha"
  | format => "format"
  | splitlines => "splitlines"
  | title => "title"
  | capitalize => "capitalize"

def StrMethod.every : List StrMethod :=
  [upper, lower, strip, lstrip, rstrip, split, join, replace, startswith, endswith, find, count,
    isdigit, isalpha, format, splitlines, title, capitalize]

inductive TupleMethod where
  | index | count
  deriving DecidableEq

def TupleMethod.text : TupleMethod → String
  | index => "index"
  | count => "count"

def TupleMethod.every : List TupleMethod := [index, count]

inductive StreamMethod where
  | write | flush
  deriving DecidableEq

def StreamMethod.text : StreamMethod → String
  | write => "write"
  | flush => "flush"

def StreamMethod.every : List StreamMethod := [write, flush]

inductive Value where
  | none
  | bool (b : Bool)
  | int (i : Int64)
  | float (d : Double)
  | str (text : String)
  | list (ref : Nat)
  | tuple (id : Nat) (items : List Value)
  | dict (ref : Nat)
  | range (r : Range)
  /-- `code` is a reference; `defaults` has one element for each parameter of the code. -/
  | function (id : Nat) (name : String) (code : Nat) (defaults : List (Option Value))
  | builtin (b : Builtin)
  | listMethod (ref : Nat) (m : ListMethod)
  | tupleMethod (id : Nat) (items : List Value) (m : TupleMethod)
  | dictMethod (ref : Nat) (m : DictMethod)
  | strMethod (text : String) (m : StrMethod)
  | streamMethod (s : Stream) (m : StreamMethod)
  | module (m : Module)
  | type (t : ValueType)
  | exception (id : Nat) (e : Exception)
  | stream (s : Stream)
  deriving Inhabited

namespace Value

def ofLiteral : Source.Literal → Value
  | .none => .none
  | .bool b => .bool b
  | .int i => .int i
  | .float d => .float d
  | .str text => .str text

def valueType : Value → ValueType
  | none => .noneType
  | bool _ => .bool
  | int _ => .int
  | float _ => .float
  | str _ => .str
  | list _ => .list
  | tuple .. => .tuple
  | dict _ => .dict
  | range _ => .range
  | function .. => .function
  | builtin _ => .builtinFunction
  | listMethod .. | tupleMethod .. | dictMethod .. | strMethod .. | streamMethod .. => .method
  | module _ => .module
  | type _ => .type
  | exception _ e => .exception e.kind
  | stream _ => .stream

def typeName (v : Value) : String := v.valueType.text

/-- A number, for arithmetic and comparison. -/
inductive Number where
  | int (i : Int64)
  | float (d : Double)

def Number.toDouble : Number → Double
  | .int i => .ofInt64 i
  | .float d => d

def boolInt (b : Bool) : Int64 := if b then 1 else 0

/-- Integers and booleans, which count as 0 and 1. -/
def int? : Value → Option Int64
  | bool b => some (boolInt b)
  | int i => some i
  | _ => Option.none

def number? : Value → Option Number
  | bool b => some (.int (boolInt b))
  | int i => some (.int i)
  | float d => some (.float d)
  | _ => Option.none

/-- The two values are one: `is`. Methods are made anew each time they are asked for, and a floating
point number or a range is never the same as another. -/
def same : Value → Value → Bool
  | none, none => true
  | bool a, bool b => a == b
  | int a, int b => a == b
  | str a, str b => a == b
  | list a, list b => a == b
  | dict a, dict b => a == b
  | tuple a _, tuple b _ => a == b
  | function a _ _ _, function b _ _ _ => a == b
  | exception a _, exception b _ => a == b
  | type a, type b => a == b
  | module a, module b => a == b
  | builtin a, builtin b => a == b
  | stream a, stream b => a == b
  | _, _ => false

end Value

end SnippetKernel
