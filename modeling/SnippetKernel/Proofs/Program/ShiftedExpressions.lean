import SnippetKernel.Proofs.Program.ShiftedRuns

/-! Expressions and assignments behind what was left on the heap: they do the same, if the calls in them do. -/
namespace SnippetKernel

open Source Run

/-- The calls of two runs, one of them behind what was left and at another time. -/
def ShiftCalls (left : Heap) (clock : Clock) (call copy : ValueCaller) : Prop :=
  ∀ callee args keywords, Shifts left clock (Value.shift left) (call callee args keywords)
    (copy (callee.shift left) (args.map (Value.shift left)) (keywords.map (shiftKeyword left)))

namespace Eval

variable {left : Heap} {clock : Clock} {call copy : ValueCaller}

/-- The truth of a value decides how it goes on. -/
theorem shifts_test (v : Value) {α : Type} {result : α → α} {yes no yes' no' : Run α}
    (first : Shifts left clock result yes yes') (second : Shifts left clock result no no') :
    Shifts left clock result (do if ← Work.truthy v then yes else no)
      (do if ← Work.truthy (v.shift left) then yes' else no') := by
  apply (Shifts.ofWork (.truthy v)).before
  intro truth
  cases truth with
  | false => exact second
  | true => exact first

/-! Subscripts that are no slices. -/

theorem shifts_index {object index : Expr} (plain : ∀ start stop step, index ≠ .slice start stop step)
    (first : Shifts left clock (Value.shift left) (expr call object) (expr copy object))
    (second : Shifts left clock (Value.shift left) (expr call index) (expr copy index)) :
    Shifts left clock (Value.shift left) (expr call (.index object index)) (expr copy (.index object index)) := by
  rw [expr_item plain, expr_item plain]
  apply first.andThen
  intro object
  apply second.andThen
  intro index
  exact .ofWork (.readingExcept fun h => object.item_shift index)

theorem shifts_assign_index {object index : Expr} (v : Value)
    (plain : ∀ start stop step, index ≠ .slice start stop step)
    (first : Shifts left clock (Value.shift left) (expr call object) (expr copy object))
    (second : Shifts left clock (Value.shift left) (expr call index) (expr copy index)) :
    Shifts left clock id (assign call (.index object index) v)
      (assign copy (.index object index) (v.shift left)) := by
  rw [assign_item plain, assign_item plain]
  apply first.andThen
  intro object
  apply second.andThen
  intro index
  exact .ofWork (.onHeap (object.shifts_setItem index v))

theorem shifts_delete_index {object index : Expr} (plain : ∀ start stop step, index ≠ .slice start stop step)
    (first : Shifts left clock (Value.shift left) (expr call object) (expr copy object))
    (second : Shifts left clock (Value.shift left) (expr call index) (expr copy index)) :
    Shifts left clock id (delete call (.index object index)) (delete copy (.index object index)) := by
  rw [delete_item plain, delete_item plain]
  apply first.andThen
  intro object
  apply second.andThen
  intro index
  exact .ofWork (.onHeap (object.shifts_deleteItem index))

mutual

theorem shifts_expr (calls : ShiftCalls left clock call copy) (e : Expr) :
    Shifts left clock (Value.shift left) (expr call e) (expr copy e) := by
  cases e with
  | literal value =>
    simp only [expr]
    exact .done (Value.shift_ofLiteral value).symm
  | name id =>
    simp only [expr]
    exact .lookup id
  | template parts =>
    simp only [expr]
    exact (shifts_template calls "" parts).before fun _ => .done rfl
  | list items =>
    simp only [expr]
    exact (shifts_all calls items).andThen fun items => .ofWork (.onHeap (HeapM.shifts_newList items))
  | tuple items =>
    simp only [expr]
    exact (shifts_all calls items).andThen fun items => .ofWork (.onHeap (HeapM.shifts_newTuple items))
  | dict pairs =>
    simp only [expr]
    have fresh := shifts_entries calls .empty pairs
    rw [Dict.shift_empty] at fresh
    exact fresh.andThen fun d => .ofWork (.onHeap (HeapM.shifts_newDict d))
  | comprehension element target source cond =>
    simp only [expr]
    apply (shifts_expr calls source).andThen
    intro source
    apply (Shifts.ofWork (.items source)).andThen
    intro items
    refine Shifts.andThen (.keeping _ (.collectAll (fun item => ?_) items)) fun found =>
      .ofWork (.onHeap (HeapM.shifts_newListOf found))
    apply (shifts_assign calls target item).before
    intro _
    apply (shifts_holds calls cond).before
    intro held
    cases held with
    | false => exact .done rfl
    | true => exact (shifts_expr calls element).andThen fun _ => .done rfl
  | unary op operand =>
    simp only [expr]
    exact (shifts_expr calls operand).andThen fun v => .ofWork (.readingExcept fun h => v.unary_shift op)
  | binary op first second =>
    simp only [expr]
    apply (shifts_expr calls first).andThen
    intro v
    exact (shifts_expr calls second).andThen fun w => .ofWork (.onHeap (Value.shifts_binary op v w))
  | compare first rest =>
    simp only [expr]
    exact (shifts_expr calls first).andThen fun v => shifts_chain calls v rest
  | and first second =>
    simp only [expr]
    exact (shifts_expr calls first).andThen fun v => shifts_test v (shifts_expr calls second) (.done rfl)
  | or first second =>
    simp only [expr]
    exact (shifts_expr calls first).andThen fun v => shifts_test v (.done rfl) (shifts_expr calls second)
  | ifElse cond yes no =>
    simp only [expr]
    exact (shifts_expr calls cond).andThen fun v => shifts_test v (shifts_expr calls yes) (shifts_expr calls no)
  | call callee args keywords =>
    simp only [expr]
    apply (shifts_expr calls callee).andThen
    intro callee
    apply (shifts_all calls args).andThen
    intro args
    exact (shifts_named calls keywords).andThen fun keywords => calls callee args keywords
  | attr object name =>
    simp only [expr]
    exact (shifts_expr calls object).andThen fun object => .ofWork (Work.shifts_getAttr object name)
  | index object index =>
    cases index with
    | slice start stop step =>
      simp only [expr]
      apply (shifts_expr calls object).andThen
      intro object
      apply (shifts_bound calls start).before
      intro start
      apply (shifts_bound calls stop).before
      intro stop
      apply (shifts_bound calls step).before
      intro step
      exact .ofWork (.onHeap (object.shifts_slice _))
    | _ => exact shifts_index nofun (shifts_expr calls object) (shifts_expr calls _)
  | slice start stop step =>
    simp only [expr]
    exact .ofWork (.raise _ _)

theorem shifts_all (calls : ShiftCalls left clock call copy) (es : List Expr) :
    Shifts left clock (List.map (Value.shift left)) (all call es) (all copy es) := by
  cases es with
  | nil =>
    simp only [all]
    exact .done rfl
  | cons e rest =>
    simp only [all]
    exact (shifts_expr calls e).andThen fun _ => (shifts_all calls rest).andThen fun _ => .done rfl

theorem shifts_entries (calls : ShiftCalls left clock call copy) (d : Dict) (pairs : List (Expr × Expr)) :
    Shifts left clock (Dict.shift left) (entries call d pairs) (entries copy (d.shift left) pairs) := by
  cases pairs with
  | nil =>
    simp only [entries]
    exact .done rfl
  | cons pair rest =>
    simp only [entries]
    apply (shifts_expr calls pair.1).andThen
    intro key
    apply (shifts_expr calls pair.2).andThen
    intro value
    exact (Shifts.ofWork (.ofExcept (d.insert_shift key value))).andThen fun d => shifts_entries calls d rest

theorem shifts_named (calls : ShiftCalls left clock call copy) (es : List (String × Expr)) :
    Shifts left clock (List.map (shiftKeyword left)) (named call es) (named copy es) := by
  cases es with
  | nil =>
    simp only [named]
    exact .done rfl
  | cons e rest =>
    simp only [named]
    exact (shifts_expr calls e.2).andThen fun _ => (shifts_named calls rest).andThen fun _ => .done rfl

theorem shifts_chain (calls : ShiftCalls left clock call copy) (first : Value) (es : List (CompareOp × Expr)) :
    Shifts left clock (Value.shift left) (chain call first es) (chain copy (first.shift left) es) := by
  cases es with
  | nil =>
    simp only [chain]
    exact .done rfl
  | cons e rest =>
    simp only [chain]
    apply (shifts_expr calls e.2).andThen
    intro second
    apply (Shifts.ofWork (.readingExcept_id fun h => Value.compareBy_shift e.1 first second)).before
    intro holds
    cases holds with
    | false => exact .done rfl
    | true => exact shifts_chain calls second rest

theorem shifts_holds (calls : ShiftCalls left clock call copy) (cond : Option Expr) :
    Shifts left clock id (holds call cond) (holds copy cond) := by
  cases cond with
  | none =>
    simp only [holds]
    exact .done rfl
  | some e =>
    simp only [holds]
    exact (shifts_expr calls e).andThen fun v => .ofWork (.truthy v)

theorem shifts_bound (calls : ShiftCalls left clock call copy) (e : Option Expr) :
    Shifts left clock id (bound call e) (bound copy e) := by
  cases e with
  | none =>
    simp only [bound]
    exact .done rfl
  | some e =>
    simp only [bound]
    exact (shifts_expr calls e).andThen fun v => .ofWork (Work.shifts_bound v)

theorem shifts_template (calls : ShiftCalls left clock call copy) (text : String) (parts : List TemplatePart) :
    Shifts left clock id (template call text parts) (template copy text parts) := by
  match parts with
  | [] =>
    simp only [template]
    exact .done rfl
  | .text piece :: rest =>
    simp only [template]
    exact shifts_template calls _ rest
  | .value e quote spec :: rest =>
    simp only [template]
    apply (shifts_expr calls e).andThen
    intro v
    have shown (v : Value) : Shifts left clock id
        (match spec with
          | some spec => do
            let piece ← Work.format v spec
            template call (text ++ piece) rest
          | none => do
            let piece ← Work.display v
            template call (text ++ piece) rest)
        (match spec with
          | some spec => do
            let piece ← Work.format (v.shift left) spec
            template copy (text ++ piece) rest
          | none => do
            let piece ← Work.display (v.shift left)
            template copy (text ++ piece) rest) := by
      cases spec with
      | none => exact (Shifts.ofWork (.display v)).before fun _ => shifts_template calls _ rest
      | some spec => exact (Shifts.ofWork (.format v spec)).before fun _ => shifts_template calls _ rest
    cases quote with
    | false => exact shown v
    | true =>
      have quoted : Shifts left clock (Value.shift left) (Value.str <$> (Work.repr v : Run String))
          (Value.str <$> (Work.repr (v.shift left) : Run String)) := (Shifts.ofWork (.repr v)).map fun _ => rfl
      exact quoted.andThen shown

theorem shifts_assign (calls : ShiftCalls left clock call copy) (target : Target) (v : Value) :
    Shifts left clock id (assign call target v) (assign copy target (v.shift left)) := by
  cases target with
  | name id =>
    simp only [assign]
    exact .bind id v
  | index object index =>
    cases index with
    | slice start stop step =>
      simp only [assign]
      apply (shifts_expr calls object).andThen
      intro object
      apply (shifts_bound calls start).before
      intro start
      apply (shifts_bound calls stop).before
      intro stop
      apply (shifts_bound calls step).before
      intro step
      exact .ofWork (.onHeap (object.shifts_setSlice _ v))
    | _ => exact shifts_assign_index v nofun (shifts_expr calls object) (shifts_expr calls _)
  | attr object name =>
    simp only [assign]
    exact (shifts_expr calls object).andThen fun object => .ofWork (Work.shifts_refuseAttribute object name)
  | unpack targets =>
    simp only [assign]
    exact (Shifts.ofWork (Work.shifts_unpack v _)).andThen fun items => shifts_assignAll calls targets items

theorem shifts_assignAll (calls : ShiftCalls left clock call copy) (targets : List Target) (vs : List Value) :
    Shifts left clock id (assignAll call targets vs) (assignAll copy targets (vs.map (Value.shift left))) := by
  match targets, vs with
  | [], _ =>
    simp only [assignAll]
    exact .done rfl
  | _ :: _, [] =>
    simp only [List.map_nil, assignAll]
    exact .done rfl
  | target :: targets, v :: vs =>
    simp only [List.map_cons, assignAll]
    exact (shifts_assign calls target v).before fun _ => shifts_assignAll calls targets vs

end

theorem shifts_assignEach (calls : ShiftCalls left clock call copy) (v : Value) (targets : List Target) :
    Shifts left clock id (assignEach call v targets) (assignEach copy (v.shift left) targets) := by
  induction targets with
  | nil => exact .done rfl
  | cons target rest ih => exact (shifts_assign calls target v).before fun _ => ih

theorem shifts_inPlace (op : BinaryOp) (current v : Value) :
    Shifts left clock (Value.shift left) (inPlace op current v) (inPlace op (current.shift left) (v.shift left)) := by
  have others : Shifts left clock (Value.shift left) (Run.ofWork (Work.onHeap (Value.binary op current v)))
      (Run.ofWork (Work.onHeap (Value.binary op (current.shift left) (v.shift left)))) :=
    .ofWork (.onHeap (Value.shifts_binary op current v))
  cases op with
  | add =>
    cases current with
    | list ref =>
      apply (Shifts.ofWork (.items v)).andThen
      intro more
      have grown : HeapM.Shifts left id (HeapM.modifyList ref (·.appendList more))
          (HeapM.modifyList (left.lists.size + ref) (·.appendList (more.map (Value.shift left)))) :=
        HeapM.shifts_modifyList (fun items => ListMethods.map_appendList _ items more) ref
      exact (Shifts.ofWork (.onHeap grown)).before fun _ => .done rfl
    | _ => exact others
  | _ => exact others

theorem shifts_augAssign (calls : ShiftCalls left clock call copy) (op : BinaryOp) (e : Expr) (target : Target) :
    Shifts left clock id (augAssign call op e target) (augAssign copy op e target) := by
  cases target with
  | name id =>
    apply (Shifts.lookup id).andThen
    intro current
    apply (shifts_expr calls e).andThen
    intro v
    exact (shifts_inPlace op current v).andThen fun new => .bind id new
  | index object index =>
    apply (shifts_expr calls object).andThen
    intro object
    apply (shifts_expr calls index).andThen
    intro index
    apply (Shifts.ofWork (.readingExcept fun h => object.item_shift index)).andThen
    intro current
    apply (shifts_expr calls e).andThen
    intro v
    exact (shifts_inPlace op current v).andThen fun new => .ofWork (.onHeap (object.shifts_setItem index new))
  | attr object name =>
    exact (shifts_expr calls object).andThen fun object => .ofWork (Work.shifts_refuseAttribute object name)
  | unpack targets => exact .ofWork (.raise _ _)

mutual

theorem shifts_delete (calls : ShiftCalls left clock call copy) (target : Target) :
    Shifts left clock id (delete call target) (delete copy target) := by
  cases target with
  | name id =>
    simp only [delete]
    exact .unbind id
  | index object index =>
    cases index with
    | slice start stop step =>
      simp only [delete]
      apply (shifts_expr calls object).andThen
      intro object
      apply (shifts_bound calls start).before
      intro start
      apply (shifts_bound calls stop).before
      intro stop
      apply (shifts_bound calls step).before
      intro step
      exact .ofWork (.onHeap (object.shifts_deleteSlice _))
    | _ => exact shifts_delete_index nofun (shifts_expr calls object) (shifts_expr calls _)
  | attr object name =>
    simp only [delete]
    exact (shifts_expr calls object).andThen fun object => .ofWork (Work.shifts_refuseAttribute object name)
  | unpack targets =>
    simp only [delete]
    exact shifts_deleteAll calls targets

theorem shifts_deleteAll (calls : ShiftCalls left clock call copy) (targets : List Target) :
    Shifts left clock id (deleteAll call targets) (deleteAll copy targets) := by
  cases targets with
  | nil =>
    simp only [deleteAll]
    exact .done rfl
  | cons target rest =>
    simp only [deleteAll]
    exact (shifts_delete calls target).before fun _ => shifts_deleteAll calls rest

end

end Eval

end SnippetKernel
