import SnippetKernel.Program.Builtins
import SnippetKernel.Program.Control

/-! Expressions and assignments. Both follow the tree; what a call of a value does is given to them from
outside. -/
namespace SnippetKernel

open Source

namespace Run

/-- What a name means. -/
def lookup (name : String) : Run Value := do
  match ((← get).lookup? name).or (Builtins.global? name) with
  | some v => return v
  | none => Work.raise .name ("name '" ++ name ++ "' is not defined")

def bind (name : String) (v : Value) : Run Unit := modify (·.bind name v)

/-- Unbinds a name that is bound where an assignment would bind it. -/
def unbind (name : String) : Run Unit := do
  match (← get).binding? name with
  | some _ => modify (·.unbind name)
  | none => Work.raise .name ("name '" ++ name ++ "' is not defined")

end Run

namespace Work

/-- `v.name` -/
def getAttr (v : Value) (name : String) : Work Value := do
  match v, name with
  | .module m, _ =>
    match Builtins.moduleAttribute? m name with
    | some v => return v
    | none => raise .attr ("module '" ++ m.text ++ "' has no attribute '" ++ name ++ "'")
  | .exception _ e, "args" => onHeap (HeapM.newTuple (if e.message.isEmpty then [] else [.str e.message]))
  | v, _ =>
    match Builtins.method? v name with
    | some method => return method
    | none => ofExcept (.error (v.noAttribute name))

/-- No attribute can be assigned to. -/
def refuseAttribute (v : Value) (name : String) : Work Unit :=
  raise .attr ("'" ++ v.typeName ++ "' object attribute '" ++ name ++ "' is read-only")

/-- A bound of a slice. -/
def bound (v : Value) : Work (Option Int64) := do
  match v, v.int? with
  | .none, _ => return none
  | _, some i => return some i
  | _, none => raiseTypeError "slice indices must be integers or None"

/-- As many items as there are targets. -/
def unpack (v : Value) (targets : Nat) : Work (List Value) := do
  let items ← items v
  if items.length < targets then
    raise .value ("not enough values to unpack (expected " ++ toString targets ++ ", got "
      ++ toString items.length ++ ")")
  else if targets < items.length then
    raise .value ("too many values to unpack (expected " ++ toString targets ++ ")")
  else return items

end Work

namespace Eval

mutual

def expr (call : ValueCaller) : Expr → Run Value
  | .literal value => return .ofLiteral value
  | .name id => Run.lookup id
  | .template parts => return .str (← template call "" parts)
  | .list items => do
    let items ← all call items
    Work.onHeap (HeapM.newList items)
  | .tuple items => do
    let items ← all call items
    Work.onHeap (HeapM.newTuple items)
  | .dict pairs => do
    let d ← entries call .empty pairs
    Work.onHeap (HeapM.newDict d)
  | .comprehension element target source cond => do
    let source ← expr call source
    let items ← Work.items source
    let found ← Run.keeping target.names <| Run.collect (fun item => do
      assign call target item
      if ← holds call cond then return some (← expr call element) else return none) #[] items
    Work.onHeap (HeapM.newListOf found)
  | .unary op operand => do
    let v ← expr call operand
    Work.readingExcept fun h => v.unary h op
  | .binary op left right => do
    let left ← expr call left
    let right ← expr call right
    Work.onHeap (Value.binary op left right)
  | .compare first rest => do
    let first ← expr call first
    chain call first rest
  | .and left right => do
    let left ← expr call left
    if ← Work.truthy left then expr call right else return left
  | .or left right => do
    let left ← expr call left
    if ← Work.truthy left then return left else expr call right
  | .ifElse cond yes no => do
    let cond ← expr call cond
    if ← Work.truthy cond then expr call yes else expr call no
  | .call callee args keywords => do
    let callee ← expr call callee
    let args ← all call args
    let keywords ← named call keywords
    call callee args keywords
  | .attr object name => do
    let object ← expr call object
    Work.getAttr object name
  | .index object (.slice start stop step) => do
    let object ← expr call object
    let start ← bound call start
    let stop ← bound call stop
    let step ← bound call step
    Work.onHeap (object.slice ⟨start, stop, step⟩)
  | .index object index => do
    let object ← expr call object
    let index ← expr call index
    Work.readingExcept fun h => object.item h index
  | .slice .. => Work.raise .syntaxError "invalid syntax"

def all (call : ValueCaller) : List Expr → Run (List Value)
  | [] => return []
  | e :: rest => do
    let v ← expr call e
    return v :: (← all call rest)

/-- The entries of a dict, added to `d`. -/
def entries (call : ValueCaller) (d : Dict) : List (Expr × Expr) → Run Dict
  | [] => return d
  | (key, value) :: rest => do
    let key ← expr call key
    let value ← expr call value
    entries call (← Work.ofExcept (d.insert key value)) rest

def named (call : ValueCaller) : List (String × Expr) → Run Keywords
  | [] => return []
  | (name, e) :: rest => do
    let v ← expr call e
    return (name, v) :: (← named call rest)

/-- The rest of a comparison chain whose last operand has the value `left`. -/
def chain (call : ValueCaller) (left : Value) : List (CompareOp × Expr) → Run Value
  | [] => return .bool true
  | (op, e) :: rest => do
    let right ← expr call e
    if ← Work.readingExcept fun h => left.compareBy h op right then chain call right rest
    else return .bool false

/-- A condition that may be missing. -/
def holds (call : ValueCaller) : Option Expr → Run Bool
  | none => return true
  | some e => do
    let v ← expr call e
    Work.truthy v

def bound (call : ValueCaller) : Option Expr → Run (Option Int64)
  | none => return none
  | some e => do
    let v ← expr call e
    Work.bound v

/-- The parts of an f-string, written behind `text`. -/
def template (call : ValueCaller) (text : String) : List TemplatePart → Run String
  | [] => return text
  | .text piece :: rest => template call (text ++ piece) rest
  | .value e quote spec :: rest => do
    let v ← expr call e
    let v ← if quote then Value.str <$> Work.repr v else pure v
    let piece ←
      match spec with
      | some spec => Work.format v spec
      | none => Work.display v
    template call (text ++ piece) rest

def assign (call : ValueCaller) : Target → Value → Run Unit
  | .name id, v => Run.bind id v
  | .index object (.slice start stop step), v => do
    let object ← expr call object
    let start ← bound call start
    let stop ← bound call stop
    let step ← bound call step
    Work.onHeap (object.setSlice ⟨start, stop, step⟩ v)
  | .index object index, v => do
    let object ← expr call object
    let index ← expr call index
    Work.onHeap (object.setItem index v)
  | .attr object name, _ => do
    let object ← expr call object
    Work.refuseAttribute object name
  | .unpack targets, v => do
    let items ← Work.unpack v targets.length
    assignAll call targets items

def assignAll (call : ValueCaller) : List Target → List Value → Run Unit
  | target :: targets, v :: vs => do
    assign call target v
    assignAll call targets vs
  | _, _ => return

end

/-- The same value for each of the targets, from the first to the last. -/
def assignEach (call : ValueCaller) (v : Value) : List Target → Run Unit
  | [] => return
  | target :: rest => do
    assign call target v
    assignEach call v rest

/-- `current op= v`; a list grows in place. -/
def inPlace (op : BinaryOp) (current v : Value) : Run Value := do
  match op, current with
  | .add, .list ref =>
    let more ← Work.items v
    Work.onHeap (HeapM.modifyList ref (·.appendList more))
    return current
  | op, current => Work.onHeap (Value.binary op current v)

/-- `target op= e`. The target is read before the expression is evaluated. -/
def augAssign (call : ValueCaller) (op : BinaryOp) (e : Expr) : Target → Run Unit
  | .name id => do
    let current ← Run.lookup id
    let v ← expr call e
    Run.bind id (← inPlace op current v)
  | .index object index => do
    let object ← expr call object
    let index ← expr call index
    let current ← Work.readingExcept fun h => object.item h index
    let v ← expr call e
    let new ← inPlace op current v
    Work.onHeap (object.setItem index new)
  | .attr object name => do
    let object ← expr call object
    Work.refuseAttribute object name
  | .unpack _ => Work.raise .syntaxError "illegal expression for augmented assignment"

mutual

def delete (call : ValueCaller) : Target → Run Unit
  | .name id => Run.unbind id
  | .index object (.slice start stop step) => do
    let object ← expr call object
    let start ← bound call start
    let stop ← bound call stop
    let step ← bound call step
    Work.onHeap (object.deleteSlice ⟨start, stop, step⟩)
  | .index object index => do
    let object ← expr call object
    let index ← expr call index
    Work.onHeap (object.deleteItem index)
  | .attr object name => do
    let object ← expr call object
    Work.refuseAttribute object name
  | .unpack targets => deleteAll call targets

def deleteAll (call : ValueCaller) : List Target → Run Unit
  | [] => return
  | target :: rest => do
    delete call target
    deleteAll call rest

end

/-! Subscripts that are no slices. -/

section

variable {call : ValueCaller} {object index : Expr} (no_slice : ∀ start stop step, index ≠ .slice start stop step)

include no_slice

theorem expr_item : expr call (.index object index) = (do
    let object ← expr call object
    let index ← expr call index
    Work.readingExcept fun h => object.item h index) := by
  rw [expr]
  exact no_slice

theorem assign_item (v : Value) : assign call (.index object index) v = (do
    let object ← expr call object
    let index ← expr call index
    Work.onHeap (object.setItem index v)) := by
  rw [assign]
  exact no_slice

theorem delete_item : delete call (.index object index) = (do
    let object ← expr call object
    let index ← expr call index
    Work.onHeap (object.deleteItem index)) := by
  rw [delete]
  exact no_slice

end

end Eval

end SnippetKernel
