import SnippetKernel.Program.Exec
import SnippetKernel.Program.TextMethods

/-! Calls. How many calls of functions may be inside one another is bounded; each one spends a part of
that room, so running a program follows the room and the trees of its functions. -/
namespace SnippetKernel

open Source Arguments

namespace Call

/-- Puts a keyword's value into the slot of its parameter. -/
def fillSlot (code : Code) (slots : Array (Option Value)) (key : String) (v : Value) :
    Except Exception (Array (Option Value)) :=
  match code.params.findIdx? (·.name == key) with
  | none => .error (.typeError (code.name ++ "() got an unexpected keyword argument '" ++ key ++ "'"))
  | some i =>
    match slots[i]? with
    | some none => .ok (slots.setIfInBounds i (some v))
    | _ => .error (.typeError (code.name ++ "() got multiple values for argument '" ++ key ++ "'"))

def fillSlots (code : Code) (slots : Array (Option Value)) :
    Keywords → Except Exception (Array (Option Value))
  | [] => .ok slots
  | (key, v) :: rest => do fillSlots code (← fillSlot code slots key v) rest

/-- The parameters with their values, and the names of those that have none. -/
def settle : List Param → List (Option Value) → List (Option Value) → Namespace Value × List String
  | param :: params, slot :: slots, default :: defaults =>
    let (locals, missing) := settle params slots defaults
    match slot.or default with
    | some v => (⟨(param.name, v) :: locals.entries⟩, missing)
    | none => (locals, param.name :: missing)
  | _, _, _ => (.empty, [])

def plural (n : Nat) : String := if n = 1 then "" else "s"

def quotedName (name : String) : String := "'" ++ name ++ "'"

/-- Names in a sentence: commas between them, and a word before the last. -/
def listing (names : List String) : String :=
  match names.getLast? with
  | none => ""
  | some last =>
    match names.dropLast with
    | [] => quotedName last
    | others => ", ".intercalate (others.map quotedName) ++ " and " ++ quotedName last

/-- The parameters of a function, bound to the arguments of a call. -/
def bindArguments (code : Code) (defaults : List (Option Value)) (args : List Value)
    (keywords : Keywords) : Except Exception (Namespace Value) := do
  let wanted := code.params.length
  let given := args.length
  if wanted < given then
    throw (.typeError (code.name ++ "() takes " ++ toString wanted ++ " positional argument"
      ++ plural wanted ++ " but " ++ toString given ++ (if given = 1 then " was" else " were")
      ++ " given"))
  let slots := (args.map some).toArray ++ Array.replicate (wanted - given) none
  let slots ← fillSlots code slots keywords
  match settle code.params slots.toList defaults with
  | (locals, []) => return locals
  | (_, missing) =>
    throw (.typeError (code.name ++ "() missing " ++ toString missing.length
      ++ " required positional argument" ++ plural missing.length ++ ": " ++ listing missing))

/-- What a program can do with a function that it has defined: call it. -/
abbrev FunctionCaller := Nat → List (Option Value) → List Value → Keywords → Run Value

def streamMethod (s : Stream) (m : StreamMethod) (args : List Value) (keywords : Keywords) :
    Work Value := do
  match m with
  | .write =>
    noKeywords "write" keywords
    exactly "write" args 1
    match first args with
    | .str text =>
      Work.write s text
      return .int (Int64.ofNat text.length)
    | v => Work.raiseTypeError ("write() argument must be str, not " ++ v.typeName)
  | .flush => return .none

/-- A call of any value. `callKey` calls a key function for an item. -/
def applyWith (function : FunctionCaller) (callKey : Value → Value → Run Value) : ValueCaller :=
  fun callee args keywords =>
    match callee with
    | .function _ _ code defaults => function code defaults args keywords
    | .builtin b => Builtins.apply callKey b args keywords
    | .listMethod ref m => ListMethods.apply callKey m ref args keywords
    | .tupleMethod _ items m => TupleMethods.apply m items args keywords
    | .dictMethod ref m => DictMethods.apply m ref args keywords
    | .strMethod text m => TextMethods.apply m text args keywords
    | .streamMethod s m => streamMethod s m args keywords
    | .type t => Construct.apply t args keywords
    | v => Work.raiseTypeError ("'" ++ v.typeName ++ "' object is not callable")

/-- A call of any value. A key function is called with an item alone, so it is not given a key function
in its turn. -/
def value (function : FunctionCaller) : ValueCaller :=
  applyWith function fun key item =>
    applyWith function (fun _ item => return item) key [item] []

/-- A call of a function with room for that many calls inside one another, this one included. -/
def function (turns : Nat) : (room : Nat) → FunctionCaller
  | 0, _, _, _, _ => Work.raise .recursion "maximum recursion depth exceeded"
  | room + 1, ref, defaults, args, keywords => do
    let code := (← get).heap.code ref
    let locals ← Work.ofExcept (bindArguments code defaults args keywords)
    let flow ← Run.inFrame ⟨code.name, locals, []⟩
      (Exec.block ⟨value (function turns room), turns⟩ code.body)
    match flow with
    | .ret v => return v
    | _ => return .none

end Call

/-- What a program may use up. -/
structure Limits where
  /-- How many calls may be inside one another. -/
  depth : Nat
  /-- How many turns each run of a `while` loop may take. -/
  turns : Nat
  deriving DecidableEq

namespace Limits

/-- Two hundred calls inside one another, and more turns than a run could ever take. -/
def default : Limits := ⟨200, Nat.pow 2 62⟩

end Limits

/-- Runs the statements of a program. -/
def Run.program (limits : Limits) (body : List Stmt) : Run Unit := do
  let _ ← Exec.block ⟨Call.value (Call.function limits.turns limits.depth), limits.turns⟩ body

end SnippetKernel
