import SnippetKernel.Program.Construct
import SnippetKernel.Program.ContainerMethods

/-! The functions that are always there and those of the modules. -/
namespace SnippetKernel

open Arguments

namespace Builtins

def textKeyword (name key : String) (keywords : Keywords) (default : String) :
    Work (String × Keywords) := do
  let (given, keywords) := take key keywords
  match given with
  | none | some .none => return (default, keywords)
  | some v => return (← text name v, keywords)

def displays : List Value → Work (List (List Char))
  | [] => return []
  | v :: rest => do return (← Work.display v).toList :: (← displays rest)

def print (args : List Value) (keywords : Keywords) : Work Value := do
  let (separator, keywords) ← textKeyword "print" "sep" keywords " "
  let (ending, keywords) ← textKeyword "print" "end" keywords "\n"
  let (file, keywords) := take "file" keywords
  let stream ←
    match file with
    | none | some .none => pure Stream.out
    | some (.stream s) => pure s
    | some v => Work.ofExcept (.error (v.noAttribute "write"))
  let (_, keywords) := take "flush" keywords
  noKeywords "print" keywords
  let pieces ← displays args
  Work.write stream (String.ofList (Text.join separator.toList pieces) ++ ending)
  return .none

/-- How many items a value has. Lengths are 64-bit integers. -/
def len (v : Value) : Work Value := do
  let ofNat (n : Nat) : Work Value := return .int (Int64.ofNat n)
  match v with
  | .str text => ofNat text.length
  | .list ref => ofNat (← Work.reading fun h => (h.list ref).size)
  | .tuple _ items => ofNat items.length
  | .dict ref => ofNat (← Work.reading fun h => (h.dict ref).size)
  | .range r => ofNat r.size
  | v => Work.raiseTypeError ("object of type '" ++ v.typeName ++ "' has no len()")

def abs (v : Value) : Work Value := do
  match v, v.int? with
  | .float d, _ => return .float d.abs
  | _, some i =>
    match narrow? i.toInt.natAbs with
    | some n => return .int n
    | none => Work.raise .overflow "integer overflow"
  | v, none => Work.raiseTypeError ("bad operand type for abs(): '" ++ v.typeName ++ "'")

/-- The items of one argument, or several arguments. -/
def candidates : List Value → Work (List Value)
  | [v] => Work.items v
  | args => return args

/-- The least or the greatest of the items of one argument, or of several arguments. -/
def extreme (callKey : Value → Value → Run Value) (name : String) (want : Ordering)
    (args : List Value) (keywords : Keywords) : Run Value := do
  let (key, keywords) := take "key" keywords
  let (default, keywords) := take "default" keywords
  noKeywords name keywords
  arity name args 1 none
  let keyOf := ListMethods.keyOf callKey key
  match ← candidates args, default with
  | item :: rest, _ => Run.bestOf keyOf want ⟨← keyOf item, item⟩ rest
  | [], some v => return v
  | [], none => Work.raise .value (name ++ "() arg is an empty sequence")

def addAll (total : Value) : List Value → Work Value
  | [] => return total
  | v :: rest => do addAll (← Work.onHeap (Value.binary .add total v)) rest

def sum (args : List Value) (keywords : Keywords) : Work Value := do
  let (start, keywords) := take "start" keywords
  noKeywords "sum" keywords
  arity "sum" args 1 (some 2)
  let total := (args.tail.head?.or start).getD (.int 0)
  match total with
  | .str _ => Work.raiseTypeError "sum() can't sum strings [use ''.join(seq) instead]"
  | total => addAll total (← Work.items (first args))

def sorted (callKey : Value → Value → Run Value) (args : List Value) (keywords : Keywords) :
    Run Value := do
  let (key, reverse, keywords) ← ListMethods.sortKeywords keywords
  noKeywords "sorted" keywords
  exactly "sorted" args 1
  let items ← Work.items (first args)
  Work.onHeap (HeapM.newList (← Run.sorted (ListMethods.keyOf callKey key) reverse items))

/-- The power of ten that a number is scaled by before it is rounded to `digits` places. -/
def roundingFactor (digits : Int64) : Double :=
  (Double.ofInt64 10).powInt (min (max digits.toInt (-308)) 308)

def round (args : List Value) : Work Value := do
  arity "round" args 1 (some 2)
  let digits ←
    match args.tail.head? with
    | none | some .none => pure none
    | some v => pure (some (← int "round" v))
  match first args, digits with
  | .float d, none => return .int (← Work.ofExcept (intOfDouble d.roundTiesEven))
  | .float d, some digits =>
    let factor := roundingFactor digits
    return .float ((d.mul factor).roundTiesEven.div factor)
  | v, _ =>
    match v.int? with
    | some i => return .int i
    | none => Work.raiseTypeError ("type " ++ v.typeName ++ " doesn't define __round__ method")

/-- Some class is the type of the value, or a type above it. -/
def isAny (actual : ValueType) : List Value → Work Bool
  | [] => return false
  | .type t :: rest => if actual.isSubtypeOf t then return true else isAny actual rest
  | v :: _ =>
    Work.raiseTypeError ("isinstance() arg 2 must be a type or tuple of types, not " ++ v.typeName)

def isinstance (args : List Value) : Work Value := do
  exactly "isinstance" args 2
  let classes :=
    match second args with
    | .tuple _ items => items
    | v => [v]
  return .bool (← isAny (first args).valueType classes)

/-- The items with the integers from `i` on. -/
def numbered (i : Int) : List Value → Work (List (Value × Value))
  | [] => return []
  | v :: rest => do
    match narrow? i with
    | some n => return (.int n, v) :: (← numbered (i + 1) rest)
    | none => Work.raise .overflow "integer overflow"

def enumerate (args : List Value) (keywords : Keywords) : Work Value := do
  let (start, keywords) := take "start" keywords
  let start ←
    match start with
    | some v => int "enumerate" v
    | none => pure 0
  noKeywords "enumerate" keywords
  arity "enumerate" args 1 (some 2)
  let start ←
    match args.tail.head? with
    | some v => int "enumerate" v
    | none => pure start
  let entries ← numbered start.toInt (← Work.items (first args))
  Work.onHeap do HeapM.newList (← HeapM.newPairs entries)

def columns : List Value → Work (List (List Value))
  | [] => return []
  | v :: rest => do return (← Work.items v) :: (← columns rest)

/-- The rows that are complete. -/
def rows (columns : List (Array Value)) : List (List Value) :=
  match (columns.map Array.size).min? with
  | none => []
  | some n => (List.range n).map fun i => columns.filterMap (·[i]?)

def newTuples : List (List Value) → HeapM (List Value)
  | [] => return []
  | row :: rest => do
    let tuple ← HeapM.newTuple row
    return tuple :: (← newTuples rest)

def zip (args : List Value) : Work Value := do
  let columns ← columns args
  Work.onHeap do HeapM.newList (← newTuples (rows (columns.map List.toArray)))

def truths : List Value → Work (List Bool)
  | [] => return []
  | v :: rest => do return (← Work.truthy v) :: (← truths rest)

def chr (v : Value) : Work Value := do
  let code ← int "chr" v
  match if code < 0 then none else charOfCode? code.toInt.toNat with
  | some c => return Value.charText c
  | none => Work.raise .value "chr() arg not in range(0x110000)"

def ord (v : Value) : Work Value := do
  let s ← text "ord" v
  match s.toList with
  | [c] => return .int (Int64.ofNat c.toNat)
  | cs =>
    Work.raiseTypeError ("ord() expected a character, but string of length " ++ toString cs.length
      ++ " found")

def divmod (a b : Value) : Work Value := do
  let q ← Work.onHeap (Value.binary .floorDiv a b)
  let r ← Work.onHeap (Value.binary .mod a b)
  Work.onHeap (HeapM.newTuple [q, r])

def format (args : List Value) : Work Value := do
  arity "format" args 1 (some 2)
  let spec ←
    match args.tail.head? with
    | some v => text "format" v
    | none => pure ""
  return .str (← Work.format (first args) spec)

def domainError {α : Type} : Work α := Work.raise .value "math domain error"

def positive (d : Double) : Bool := (Double.ofInt64 0).lt d

/-- A function of one number that the caller has checked. -/
def onNumber (name : String) (args : List Value) (f : Double → Work Double) : Work Value := do
  exactly name args 1
  return .float (← f (← number name (first args)))

/-- Rounding to an integer; an integer is left as it is. -/
def rounding (name : String) (round : Double → Double) (args : List Value) : Work Value := do
  exactly name args 1
  match (first args).int? with
  | some i => return .int i
  | none =>
    let d ← number name (first args)
    return .int (← Work.ofExcept (intOfDouble (round d)))

def log (args : List Value) : Work Value := do
  arity "log" args 1 (some 2)
  let d ← number "log" (first args)
  if d.le (Double.ofInt64 0) then domainError
  match args.tail.head? with
  | none => return .float d.log
  | some v =>
    let base ← number "log" v
    if base.le (Double.ofInt64 0) || base.eq (Double.ofInt64 1) then domainError
    return .float (d.log.div base.log)

/-- The longest sleep, in seconds, that can be told to a clock: 2^64. -/
def longestSleep : Double := Double.ofParts false ⟨1, 64⟩

def sleep (args : List Value) : Work Value := do
  exactly "sleep" args 1
  let seconds ← number "sleep" (first args)
  if !seconds.isFinite || seconds.lt (Double.ofInt64 0) then
    Work.raise .value "sleep length must be non-negative"
  if longestSleep.le seconds then
    throw (.crash "cannot convert float seconds to Duration: value is either too big or NaN")
  modify fun r => { r with clock := r.clock.advance seconds }
  return .none

/-- A function of one argument that takes no keywords. -/
def single (name : String) (args : List Value) (keywords : Keywords) (f : Value → Work Value) :
    Work Value := do
  noKeywords name keywords
  exactly name args 1
  f (first args)

/-- The function, called. -/
def apply (callKey : Value → Value → Run Value) (b : Builtin) (args : List Value)
    (keywords : Keywords) : Run Value := do
  let name := b.text
  match b with
  | .print => print args keywords
  | .len => single name args keywords len
  | .repr => single name args keywords fun v => do return .str (← Work.repr v)
  | .typeOf => single name args keywords fun v => return .type v.valueType
  | .abs => single name args keywords abs
  | .min => extreme callKey name .lt args keywords
  | .max => extreme callKey name .gt args keywords
  | .sum => sum args keywords
  | .sorted => sorted callKey args keywords
  | .reversed =>
    single name args keywords fun v => do
      let items ← Work.items v
      Work.onHeap (HeapM.newList items.reverse)
  | .round => noKeywords name keywords; round args
  | .isinstance => noKeywords name keywords; isinstance args
  | .enumerate => enumerate args keywords
  | .zip => noKeywords name keywords; zip args
  | .any => single name args keywords fun v => do
      return .bool ((← truths (← Work.items v)).any id)
  | .all => single name args keywords fun v => do
      return .bool ((← truths (← Work.items v)).all id)
  | .chr => single name args keywords chr
  | .ord => single name args keywords ord
  | .divmod =>
    noKeywords name keywords
    exactly name args 2
    divmod (first args) (second args)
  | .format => noKeywords name keywords; format args
  | .sqrt => onNumber name args fun d => do
      if d.lt (Double.ofInt64 0) then domainError
      return d.sqrt
  | .floor => rounding name Double.floor args
  | .ceil => rounding name Double.ceil args
  | .log => log args
  | .exp => onNumber name args fun d => do
      let y := d.exp
      if y.isInfinite then Work.raise .overflow "math range error"
      return y
  | .sin => onNumber name args fun d => return d.sin
  | .cos => onNumber name args fun d => return d.cos
  | .fabs => onNumber name args fun d => return d.abs
  | .clock =>
    exactly name args 0
    return .float (← Work.clock).wall
  | .sleep => sleep args
  | .monotonic =>
    exactly name args 0
    return .float (← Work.clock).elapsed

/-- What a name means that the program has not bound. -/
def global? (name : String) : Option Value :=
  match Builtin.global.find? (·.text == name) with
  | some b => some (.builtin b)
  | none =>
    let types : List ValueType := [.int, .float, .str, .bool, .list, .tuple, .dict, .range]
    match types.find? (·.text == name) with
    | some t => some (.type t)
    | none => (ExceptionKind.ofText? name).map fun kind => .type (.exception kind)

def pi : Double := ⟨0x400921FB54442D18⟩

def euler : Double := ⟨0x4005BF0A8B145769⟩

def tau : Double := ⟨0x401921FB54442D18⟩

/-- The version that programs are told. -/
def version : String := "0.1.0"

/-- An attribute of a module. -/
def moduleAttribute? : Module → String → Option Value
  | .math, "pi" => some (.float pi)
  | .math, "e" => some (.float euler)
  | .math, "tau" => some (.float tau)
  | .math, "inf" => some (.float .infinity)
  | .math, "nan" => some (.float .nan)
  | .math, "sqrt" => some (.builtin .sqrt)
  | .math, "floor" => some (.builtin .floor)
  | .math, "ceil" => some (.builtin .ceil)
  | .math, "log" => some (.builtin .log)
  | .math, "exp" => some (.builtin .exp)
  | .math, "sin" => some (.builtin .sin)
  | .math, "cos" => some (.builtin .cos)
  | .math, "fabs" => some (.builtin .fabs)
  | .sys, "stdout" => some (.stream .out)
  | .sys, "stderr" => some (.stream .err)
  | .sys, "maxsize" => some (.int Int64.maxValue)
  | .sys, "platform" => some (.str "linux")
  | .sys, "version" => some (.str version)
  | .time, "time" => some (.builtin .clock)
  | .time, "sleep" => some (.builtin .sleep)
  | .time, "monotonic" => some (.builtin .monotonic)
  | .time, "perf_counter" => some (.builtin .monotonic)
  | _, _ => none

/-- A method of the value. -/
def method? (v : Value) (name : String) : Option Value :=
  match v with
  | .list ref => (ListMethod.every.find? (·.text == name)).map (.listMethod ref)
  | .tuple id items => (TupleMethod.every.find? (·.text == name)).map (.tupleMethod id items)
  | .dict ref => (DictMethod.every.find? (·.text == name)).map (.dictMethod ref)
  | .str text => (StrMethod.every.find? (·.text == name)).map (.strMethod text)
  | .stream s => (StreamMethod.every.find? (·.text == name)).map (.streamMethod s)
  | _ => none

end Builtins

end SnippetKernel
