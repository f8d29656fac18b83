import SnippetKernel.Proofs.Program.Closure
import SnippetKernel.Proofs.Program.Functions

/-! Every expression and every assignment has each closed property that calls have. The proofs follow the trees. -/
namespace SnippetKernel

open Source

variable {R : Region} {may : Prop} {P : Place → ∀ {α : Type}, (α → Prop) → Run α → Prop}

/-- Calls have the closed property too, wherever they run. -/
structure Run.Closed.Calls (R : Region) (may : Prop) (P : Place → ∀ {α : Type}, (α → Prop) → Run α → Prop)
    (call : ValueCaller) : Prop extends Run.Closed R may P where
  called (p : Place) {callee : Value} {args : List Value} {keywords : Keywords} : callee.Within R →
    (∀ v ∈ args, v.Within R) → KeywordsWithin R keywords → P p (Value.Within R) (call callee args keywords)

namespace Eval

variable {call : ValueCaller}

/-! Subscripts that are no slices, and work on a slice. -/

theorem closed_index (closed : Run.Closed R may P) {p : Place} {object index : Expr}
    (plain : ∀ start stop step, index ≠ .slice start stop step) (first : P p (Value.Within R) (expr call object))
    (second : P p (Value.Within R) (expr call index)) :
    P p (Value.Within R) (expr call (.index object index)) := by
  rw [expr_item plain]
  apply closed.andThen first
  intro v v_within
  apply closed.andThen second
  intro index _
  exact closed.ofWork p (.readingExcept fun _ _ begins read => Value.within_item begins v_within read)

theorem closed_assign_index (closed : Run.Closed R may P) {p : Place} {object index : Expr} {v : Value}
    (v_within : v.Within R) (plain : ∀ start stop step, index ≠ .slice start stop step)
    (first : P p (Value.Within R) (expr call object)) (second : P p (Value.Within R) (expr call index)) :
    P p (fun _ => True) (assign call (.index object index) v) := by
  rw [assign_item plain]
  apply closed.andThen first
  intro object object_within
  apply closed.andThen second
  intro index index_within
  exact closed.ofWork p (.onHeap (Value.stays_setItem object_within index_within v_within))

theorem closed_delete_index (closed : Run.Closed R may P) {p : Place} {object index : Expr}
    (plain : ∀ start stop step, index ≠ .slice start stop step) (first : P p (Value.Within R) (expr call object))
    (second : P p (Value.Within R) (expr call index)) :
    P p (fun _ => True) (delete call (.index object index)) := by
  rw [delete_item plain]
  apply closed.andThen first
  intro object object_within
  apply closed.andThen second
  intro index _
  exact closed.ofWork p (.onHeap (Value.stays_deleteItem object_within index))

theorem closed_onSlice (closed : Run.Closed R may P) {p : Place} {object : Expr} {start stop step : Option Expr}
    {α : Type} {good : α → Prop} (next : Value → Slice → Work α) (first : P p (Value.Within R) (expr call object))
    (starts : P p (fun _ => True) (bound call start)) (stops : P p (fun _ => True) (bound call stop))
    (steps : P p (fun _ => True) (bound call step))
    (last : ∀ v s, v.Within R → Work.Stays R good (next v s)) : P p good (do
      let object ← expr call object
      let start ← bound call start
      let stop ← bound call stop
      let step ← bound call step
      next object ⟨start, stop, step⟩) := by
  apply closed.andThen first
  intro v v_within
  apply closed.andThen starts
  intro start _
  apply closed.andThen stops
  intro stop _
  apply closed.andThen steps
  intro step _
  exact closed.ofWork p (last v ⟨start, stop, step⟩ v_within)

/-- The turn of a comprehension: the element, where the condition holds of the item. -/
theorem closed_turn (closed : Run.Closed R may P) {p : Place} {target : Target} {cond : Option Expr} {element : Expr}
    {item : Value} (assigns : P p (fun _ => True) (assign call target item))
    (conds : P p (fun _ => True) (holds call cond)) (elements : P p (Value.Within R) (expr call element)) :
    P p (fun found => ∀ v, found = some v → v.Within R) (do
      assign call target item
      if ← holds call cond then return some (← expr call element) else return none) := by
  apply closed.andThen assigns
  intro _ _
  apply closed.andThen conds
  intro holds _
  cases holds with
  | false => exact closed.done _ nofun
  | true =>
    apply closed.andThen elements
    intro v v_within
    apply closed.done
    rintro w ⟨⟩
    exact v_within

theorem within_ofLiteral (value : Literal) : (Value.ofLiteral value).Within R := by
  cases value <;> simp [Value.ofLiteral]

variable (closed : Run.Closed.Calls R may P call)

include closed

mutual

theorem closed_expr (p : Place) (e : Expr) : P p (Value.Within R) (expr call e) := by
  cases e with
  | literal value =>
    simp only [expr]
    exact closed.done p (within_ofLiteral value)
  | name id =>
    simp only [expr]
    exact closed.lookup p id
  | template parts =>
    simp only [expr]
    apply closed.andThen (closed_template p "" parts)
    intro text _
    exact closed.done p (Value.within_str _)
  | list items =>
    simp only [expr]
    apply closed.andThen (closed_all p items)
    intro items items_within
    exact closed.ofWork p (.onHeap (HeapM.stays_newList items_within))
  | tuple items =>
    simp only [expr]
    apply closed.andThen (closed_all p items)
    intro items items_within
    exact closed.ofWork p (.onHeap (HeapM.stays_newTuple items_within))
  | dict entries =>
    simp only [expr]
    apply closed.andThen (closed_entries p Dict.within_empty entries)
    intro d d_within
    exact closed.ofWork p (.onHeap (HeapM.stays_newDict d_within))
  | comprehension element target source cond =>
    simp only [expr]
    apply closed.andThen (closed_expr p source)
    intro source source_within
    apply closed.andThen (closed.ofWork p (.items source_within))
    intro items items_within
    apply closed.andThen
    · apply closed.keeping p
      apply closed.collect _ items_within
      · intro v mem
        simp at mem
      · intro item item_within
        have assigns := closed_assign (.only target.names) target (fun _ mem => mem) item_within
        exact closed_turn closed.toClosed assigns (closed_holds _ cond) (closed_expr _ element)
    · intro found found_within
      exact closed.ofWork p (.onHeap (HeapM.stays_newListOf found_within))
  | unary op operand =>
    simp only [expr]
    apply closed.andThen (closed_expr p operand)
    intro v _
    exact closed.ofWork p (.readingExcept fun _ _ _ computed => Value.within_unary computed)
  | binary op left right =>
    simp only [expr]
    apply closed.andThen (closed_expr p left)
    intro left left_within
    apply closed.andThen (closed_expr p right)
    intro right right_within
    exact closed.ofWork p (.onHeap (Value.stays_binary op left_within right_within))
  | compare first rest =>
    simp only [expr]
    apply closed.andThen (closed_expr p first)
    intro v _
    exact closed_chain p v rest
  | and left right =>
    simp only [expr]
    apply closed.andThen (closed_expr p left)
    intro left left_within
    exact closed.test left (closed_expr p right) (closed.done p left_within)
  | or left right =>
    simp only [expr]
    apply closed.andThen (closed_expr p left)
    intro left left_within
    exact closed.test left (closed.done p left_within) (closed_expr p right)
  | ifElse cond yes no =>
    simp only [expr]
    apply closed.andThen (closed_expr p cond)
    intro v _
    exact closed.test v (closed_expr p yes) (closed_expr p no)
  | call callee args keywords =>
    simp only [expr]
    apply closed.andThen (closed_expr p callee)
    intro callee callee_within
    apply closed.andThen (closed_all p args)
    intro args args_within
    apply closed.andThen (closed_named p keywords)
    intro keywords keywords_within
    exact closed.called p callee_within args_within keywords_within
  | attr object name =>
    simp only [expr]
    apply closed.andThen (closed_expr p object)
    intro v v_within
    exact closed.ofWork p (Work.stays_getAttr v_within name)
  | index object index =>
    cases index with
    | slice start stop step =>
      simp only [expr]
      apply closed_onSlice closed.toClosed (fun v s => Work.onHeap (v.slice s)) (closed_expr p object)
        (closed_bound p start) (closed_bound p stop) (closed_bound p step)
      exact fun v s v_within => .onHeap (Value.stays_slice v_within s)
    | _ => exact closed_index closed.toClosed nofun (closed_expr p object) (closed_expr p _)
  | slice start stop step =>
    simp only [expr]
    exact closed.ofWork p (.raise _ _)

theorem closed_all (p : Place) (es : List Expr) : P p (fun items => ∀ v ∈ items, v.Within R) (all call es) := by
  cases es with
  | nil =>
    simp only [all]
    exact closed.done p (List.forall_mem_nil _)
  | cons e rest =>
    simp only [all]
    apply closed.andThen (closed_expr p e)
    intro v v_within
    apply closed.andThen (closed_all p rest)
    intro vs vs_within
    exact closed.done p (List.forall_mem_cons.2 ⟨v_within, vs_within⟩)

theorem closed_entries (p : Place) {d : Dict} (d_within : d.Within R) (pairs : List (Expr × Expr)) :
    P p (Dict.Within R) (entries call d pairs) := by
  cases pairs with
  | nil =>
    simp only [entries]
    exact closed.done p d_within
  | cons pair rest =>
    simp only [entries]
    apply closed.andThen (closed_expr p pair.1)
    intro key key_within
    apply closed.andThen (closed_expr p pair.2)
    intro value value_within
    apply closed.andThen (closed.ofWork p (Construct.stays_insert d_within key_within value_within))
    intro d d_within
    exact closed_entries p d_within rest

theorem closed_named (p : Place) (es : List (String × Expr)) : P p (KeywordsWithin R) (named call es) := by
  cases es with
  | nil =>
    simp only [named]
    exact closed.done p (List.forall_mem_nil _)
  | cons e rest =>
    simp only [named]
    apply closed.andThen (closed_expr p e.2)
    intro v v_within
    apply closed.andThen (closed_named p rest)
    intro vs vs_within
    exact closed.done p (List.forall_mem_cons.2 ⟨v_within, vs_within⟩)

theorem closed_chain (p : Place) (left : Value) (es : List (CompareOp × Expr)) :
    P p (Value.Within R) (chain call left es) := by
  cases es with
  | nil =>
    simp only [chain]
    exact closed.done p (Value.within_bool _)
  | cons e rest =>
    simp only [chain]
    apply closed.andThen (closed_expr p e.2)
    intro right _
    apply closed.any (.readingExcept_any _)
    intro holds
    cases holds with
    | false => exact closed.done p (Value.within_bool _)
    | true => exact closed_chain p right rest

theorem closed_holds (p : Place) (cond : Option Expr) : P p (fun _ => True) (holds call cond) := by
  cases cond with
  | none =>
    simp only [holds]
    exact closed.done p trivial
  | some e =>
    simp only [holds]
    apply closed.andThen (closed_expr p e)
    intro v _
    exact closed.ofWork p (.truthy v)

theorem closed_bound (p : Place) (e : Option Expr) : P p (fun _ => True) (bound call e) := by
  cases e with
  | none =>
    simp only [bound]
    exact closed.done p trivial
  | some e =>
    simp only [bound]
    apply closed.andThen (closed_expr p e)
    intro v _
    exact closed.ofWork p (Work.stays_bound v)

theorem closed_template (p : Place) (text : String) (parts : List TemplatePart) :
    P p (fun _ => True) (template call text parts) := by
  match parts with
  | [] =>
    simp only [template]
    exact closed.done p trivial
  | .text piece :: rest =>
    simp only [template]
    exact closed_template p _ rest
  | .value e quote spec :: rest =>
    have shown (v : Value) : P p (fun _ => True) (do
        let piece ←
          match spec with
          | some spec => Work.format v spec
          | none => Work.display v
        template call (text ++ piece) rest : Run String) := by
      cases spec with
      | none => exact closed.any (.display v) fun piece => closed_template p _ rest
      | some spec => exact closed.any (.format v spec) fun piece => closed_template p _ rest
    simp only [template]
    apply closed.andThen (closed_expr p e)
    intro v _
    cases quote with
    | false => exact shown v
    | true =>
      have quoted : P p (fun _ => True) (Value.str <$> (Work.repr v : Run String)) :=
        closed.map (closed.ofWork p (.repr v)) fun _ _ => trivial
      exact closed.andThen quoted fun v _ => shown v

theorem closed_assign (p : Place) (target : Target) (allowed : ∀ name ∈ target.names, p.Allows name) {v : Value}
    (v_within : v.Within R) : P p (fun _ => True) (assign call target v) := by
  cases target with
  | name id =>
    simp only [assign]
    exact closed.bind (allowed id List.mem_cons_self) v_within
  | index object index =>
    cases index with
    | slice start stop step =>
      simp only [assign]
      apply closed_onSlice closed.toClosed (fun object s => Work.onHeap (object.setSlice s v)) (closed_expr p object)
        (closed_bound p start) (closed_bound p stop) (closed_bound p step)
      exact fun object s object_within => .onHeap (Value.stays_setSlice object_within s v_within)
    | _ => exact closed_assign_index closed.toClosed v_within nofun (closed_expr p object) (closed_expr p _)
  | attr object name =>
    simp only [assign]
    apply closed.andThen (closed_expr p object)
    intro object _
    exact closed.ofWork p (Work.stays_refuseAttribute object name)
  | unpack targets =>
    simp only [assign]
    apply closed.andThen (closed.ofWork p (Work.stays_unpack v_within _))
    intro items items_within
    exact closed_assignAll p targets allowed items_within

theorem closed_assignAll (p : Place) (targets : List Target)
    (allowed : ∀ name ∈ Target.names.namesOf targets, p.Allows name) {vs : List Value}
    (inside : ∀ v ∈ vs, v.Within R) : P p (fun _ => True) (assignAll call targets vs) := by
  match targets, vs with
  | [], _ =>
    simp only [assignAll]
    exact closed.done p trivial
  | _ :: _, [] =>
    simp only [assignAll]
    exact closed.done p trivial
  | target :: targets, v :: vs =>
    rw [List.forall_mem_cons] at inside
    simp only [Target.names.namesOf, List.mem_append] at allowed
    simp only [assignAll]
    apply closed.andThen (closed_assign p target (fun name mem => allowed name (.inl mem)) inside.1)
    intro _ _
    exact closed_assignAll p targets (fun name mem => allowed name (.inr mem)) inside.2

end

/-! ### Assignments of statements -/

theorem closed_assignEach {v : Value} (v_within : v.Within R) (targets : List Target) :
    P .call (fun _ => True) (assignEach call v targets) := by
  induction targets with
  | nil => exact closed.done _ trivial
  | cons target rest ih =>
    apply closed.andThen (closed_assign closed .call target (fun _ _ => trivial) v_within)
    intro _ _
    exact ih

theorem closed_inPlace (op : BinaryOp) {current v : Value} (current_within : current.Within R)
    (v_within : v.Within R) : P .call (Value.Within R) (inPlace op current v) := by
  unfold inPlace
  split
  · next ref =>
    apply closed.andThen (closed.ofWork _ (.items v_within))
    intro more more_within
    apply closed.any
    · apply Work.Stays.onHeap
      apply HeapM.stays_modifyList _ (by simpa only [Value.Within] using current_within)
      exact fun items inside => ListMethods.mem_appendList inside more_within
    · intro _
      exact closed.done _ current_within
  · exact closed.ofWork _ (.onHeap (Value.stays_binary op current_within v_within))

theorem closed_augAssign (op : BinaryOp) (e : Expr) (target : Target) :
    P .call (fun _ => True) (augAssign call op e target) := by
  cases target with
  | name id =>
    apply closed.andThen (closed.lookup _ id)
    intro current current_within
    apply closed.andThen (closed_expr closed _ e)
    intro v v_within
    apply closed.andThen (closed_inPlace closed op current_within v_within)
    intro new new_within
    exact closed.bind trivial new_within
  | index object index =>
    apply closed.andThen (closed_expr closed _ object)
    intro object object_within
    apply closed.andThen (closed_expr closed _ index)
    intro index index_within
    apply closed.andThen
    · exact closed.ofWork _ (.readingExcept fun _ _ begins read => Value.within_item begins object_within read)
    · intro current current_within
      apply closed.andThen (closed_expr closed _ e)
      intro v v_within
      apply closed.andThen (closed_inPlace closed op current_within v_within)
      intro new new_within
      exact closed.ofWork _ (.onHeap (Value.stays_setItem object_within index_within new_within))
  | attr object name =>
    apply closed.andThen (closed_expr closed _ object)
    intro object _
    exact closed.ofWork _ (Work.stays_refuseAttribute object name)
  | unpack targets =>
    simp only [augAssign]
    exact closed.ofWork _ (.raise _ _)

mutual

theorem closed_delete (target : Target) : P .call (fun _ => True) (delete call target) := by
  cases target with
  | name id =>
    simp only [delete]
    exact closed.unbind id
  | index object index =>
    cases index with
    | slice start stop step =>
      simp only [delete]
      apply closed_onSlice closed.toClosed (fun v s => Work.onHeap (v.deleteSlice s)) (closed_expr closed _ object)
        (closed_bound closed _ start) (closed_bound closed _ stop) (closed_bound closed _ step)
      exact fun object s object_within => .onHeap (Value.stays_deleteSlice object_within s)
    | _ => exact closed_delete_index closed.toClosed nofun (closed_expr closed _ object) (closed_expr closed _ _)
  | attr object name =>
    simp only [delete]
    apply closed.andThen (closed_expr closed _ object)
    intro object _
    exact closed.ofWork _ (Work.stays_refuseAttribute object name)
  | unpack targets =>
    simp only [delete]
    exact closed_deleteAll targets

theorem closed_deleteAll (targets : List Target) : P .call (fun _ => True) (deleteAll call targets) := by
  cases targets with
  | nil =>
    simp only [deleteAll]
    exact closed.done _ trivial
  | cons target rest =>
    simp only [deleteAll]
    apply closed.andThen (closed_delete target)
    intro _ _
    exact closed_deleteAll rest

end

end Eval

end SnippetKernel
