import SnippetKernel.Program.Call
import SnippetKernel.Program.Exec

/-! Two runs of a program that are alike in some way. If each smallest piece is like itself, and what is put together
from pieces that are alike is alike, then so are the runs of an expression or of an assignment, if its calls are. The
proofs follow the trees.

Calls that are alike. The functions that are always there call back only for keys. -/
namespace SnippetKernel

open Source

namespace Run

variable {α β : Type} {Q : ∀ {α : Type}, Run α → Run α → Prop}

/-- What is put together from pieces that are alike is alike. -/
structure Likeness (Q : ∀ {α : Type}, Run α → Run α → Prop) : Prop where
  done {α : Type} (a : α) : Q (pure a) (pure a)
  raise {α : Type} (e : Exception) (id : Option Nat) :
    Q (throw (.fault (.ofException e id)) : Run α) (throw (.fault (.ofException e id)))
  turns {α : Type} : Q (throw .turns : Run α) (throw .turns)
  andThen {α β : Type} {run copy : Run α} {next after : α → Run β} :
    Q run copy → (∀ a, Q (next a) (after a)) → Q (run >>= next) (copy >>= after)
  ofWork {α : Type} (work : Work α) : Q (Run.ofWork work) (Run.ofWork work)
  lookup (name : String) : Q (Run.lookup name) (Run.lookup name)
  bind (name : String) (v : Value) : Q (Run.bind name v) (Run.bind name v)
  unbind (name : String) : Q (Run.unbind name) (Run.unbind name)
  unbinding {α : Type} {run copy : Run α} (name : String) :
    Q run copy → Q (run.ensure (·.unbind name)) (copy.ensure (·.unbind name))
  keeping {α : Type} {run copy : Run α} (names : List String) :
    Q run copy → Q (Run.keeping names run) (Run.keeping names copy)
  whileHandling {α : Type} {run copy : Run α} (handled : Handled) :
    Q run copy → Q (Run.whileHandling handled run) (Run.whileHandling handled copy)
  reraise : Q Run.reraise Run.reraise
  declareGlobal (names : List String) : Q (Run.declareGlobal names) (Run.declareGlobal names)

namespace Likeness

variable (like : Likeness Q)

include like

theorem map {run copy : Run α} (first : Q run copy) (f : α → β) : Q (f <$> run) (f <$> copy) := by
  rw [map_eq_pure_bind, map_eq_pure_bind]
  exact like.andThen first fun a => like.done (f a)

/-- What a block does after a statement. -/
theorem proceed {rest rest' : Run Flow} (goesOn : Q rest rest') (flow : Flow) :
    Q (match flow with
      | .normal => rest
      | flow => return flow : Run Flow) (match flow with
      | .normal => rest'
      | flow => return flow) := by
  cases flow with
  | normal => exact goesOn
  | stop | next | ret => exact like.done _

/-! ### Loops -/

/-- What a loop does after a turn. -/
theorem turn {rest rest' : Run Flow} (goesOn : Q rest rest') (flow : Flow) :
    Q (match flow with
      | .stop => return .normal
      | .ret v => return .ret v
      | _ => rest : Run Flow) (match flow with
      | .stop => return .normal
      | .ret v => return .ret v
      | _ => rest') := by
  cases flow with
  | normal => exact goesOn
  | next => exact goesOn
  | stop => exact like.done _
  | ret v => exact like.done _

theorem whileTrue {cond cond' : Run Bool} {body body' : Run Flow} (conds : Q cond cond') (bodies : Q body body')
    (turns : Nat) : Q (Run.whileTrue cond body turns) (Run.whileTrue cond' body' turns) := by
  induction turns with
  | zero => exact like.turns
  | succ turns ih =>
    refine like.andThen conds fun holds => ?_
    cases holds with
    | false => exact like.done _
    | true => exact like.andThen bodies (like.turn ih)

theorem forEach {body body' : α → Run Flow} (bodies : ∀ a, Q (body a) (body' a)) (items : List α) :
    Q (Run.forEach body items) (Run.forEach body' items) := by
  induction items with
  | nil => exact like.done _
  | cons item rest ih => exact like.andThen (bodies item) (like.turn ih)

theorem forRange {body body' : Value → Run Flow} (bodies : ∀ v, Q (body v) (body' v)) (r : Range) (i left : Nat) :
    Q (Run.forRange body r i left) (Run.forRange body' r i left) := by
  induction left generalizing i with
  | zero => exact like.done _
  | succ left ih =>
    unfold Run.forRange
    split
    · exact like.done _
    · exact like.andThen (bodies _) (like.turn (ih _))

theorem collect {element element' : Value → Run (Option Value)} (elements : ∀ v, Q (element v) (element' v))
    (found : Array Value) (items : List Value) :
    Q (Run.collect element found items) (Run.collect element' found items) := by
  induction items generalizing found with
  | nil => exact like.done _
  | cons item rest ih =>
    refine like.andThen (elements item) fun v => ?_
    cases v with
    | none => exact ih _
    | some v => exact ih _

theorem visit {body body' : Value → Run Flow} (bodies : ∀ v, Q (body v) (body' v)) (v : Value) :
    Q (Exec.visit v body) (Exec.visit v body') := by
  unfold Exec.visit
  split
  · exact like.forRange bodies _ _ _
  · exact like.andThen (like.ofWork _) fun items => like.forEach bodies items

/-! ### Modules, exceptions -/

theorem load (modules : List (String × Option String)) : Q (Run.load modules) (Run.load modules) := by
  induction modules with
  | nil => exact like.done _
  | cons entry rest ih =>
    unfold Run.load
    split
    · exact like.andThen (like.bind _ _) fun _ => ih
    · exact like.andThen (like.ofWork _) fun _ => ih

/-- The truth of a value decides how both go on. -/
theorem test (v : Value) {α : Type} {yes no yes' no' : Run α} (first : Q yes yes') (second : Q no no') :
    Q (do if ← Work.truthy v then yes else no) (do if ← Work.truthy v then yes' else no') := by
  apply like.andThen (like.ofWork _)
  intro truth
  cases truth with
  | false => exact second
  | true => exact first

theorem raiseValue (v : Value) : Q (Run.raiseValue v) (Run.raiseValue v) := by
  unfold Run.raiseValue
  split
  · exact like.raise _ _
  · exact like.ofWork _
  · exact like.ofWork _

omit like in
mutual

theorem isCaughtBy (like : Likeness Q) (kind : ExceptionKind) (v : Value) :
    Q (Run.isCaughtBy kind v) (Run.isCaughtBy kind v) := by
  unfold Run.isCaughtBy
  split
  · exact like.done _
  · exact isCaughtByAny like kind _
  · exact like.ofWork _

theorem isCaughtByAny (like : Likeness Q) (kind : ExceptionKind) (classes : List Value) :
    Q (Run.isCaughtByAny kind classes) (Run.isCaughtByAny kind classes) := by
  cases classes with
  | nil =>
    simp only [Run.isCaughtByAny]
    exact like.done _
  | cons v rest =>
    simp only [Run.isCaughtByAny]
    refine like.andThen (isCaughtBy like kind v) fun caught => ?_
    cases caught with
    | false => exact isCaughtByAny like kind rest
    | true => exact like.done _

end

theorem handlingAs (handled : Handled) (name : Option String) {body body' : Run Flow} (bodies : Q body body') :
    Q (Run.handlingAs handled name body) (Run.handlingAs handled name body') := by
  have inside := like.whileHandling handled bodies
  cases name with
  | none => exact inside
  | some name => exact like.andThen (like.bind name _) fun _ => like.unbinding name inside

/-- A handler looks at the exception, not at where it came from. -/
theorem handling {fault fault' : Fault} (same : fault'.exception = fault.exception) (same_id : fault'.id = fault.id)
    (name : Option String) {body body' : Run Flow} (bodies : Q body body') :
    Q (Run.handling fault name body) (Run.handling fault' name body') := by
  unfold Run.handling
  rw [same, same_id]
  cases fault.id with
  | none => exact like.andThen (like.ofWork _) fun id => like.handlingAs _ name bodies
  | some id => exact like.andThen (like.done id) fun id => like.handlingAs _ name bodies

end Likeness

end Run

/-! ### Expressions -/

variable {Q : ∀ {α : Type}, Run α → Run α → Prop} {call copy : ValueCaller}

/-- The calls are alike too. -/
structure Run.Likeness.Calls (Q : ∀ {α : Type}, Run α → Run α → Prop) (call copy : ValueCaller) : Prop
    extends Run.Likeness Q where
  called (callee : Value) (args : List Value) (keywords : Keywords) :
    Q (call callee args keywords) (copy callee args keywords)

namespace Eval

/-! Subscripts that are no slices. -/

theorem alike_index (like : Run.Likeness Q) {object index : Expr} (plain : ∀ start stop step, index ≠ .slice start stop step)
    (first : Q (expr call object) (expr copy object))
    (second : Q (expr call index) (expr copy index)) :
    Q (expr call (.index object index)) (expr copy (.index object index)) := by
  rw [expr_item plain, expr_item plain]
  exact like.andThen first fun _ => like.andThen second fun _ => like.ofWork _

theorem alike_assign_index (like : Run.Likeness Q) {object index : Expr} {v : Value}
    (plain : ∀ start stop step, index ≠ .slice start stop step)
    (first : Q (expr call object) (expr copy object))
    (second : Q (expr call index) (expr copy index)) :
    Q (assign call (.index object index) v) (assign copy (.index object index) v) := by
  rw [assign_item plain, assign_item plain]
  exact like.andThen first fun _ => like.andThen second fun _ => like.ofWork _

theorem alike_delete_index (like : Run.Likeness Q) {object index : Expr}
    (plain : ∀ start stop step, index ≠ .slice start stop step)
    (first : Q (expr call object) (expr copy object))
    (second : Q (expr call index) (expr copy index)) :
    Q (delete call (.index object index)) (delete copy (.index object index)) := by
  rw [delete_item plain, delete_item plain]
  exact like.andThen first fun _ => like.andThen second fun _ => like.ofWork _

variable (like : Run.Likeness.Calls Q call copy)

include like

mutual

theorem alike_expr (e : Expr) : Q (expr call e) (expr copy e) := by
  cases e with
  | literal value =>
    simp only [expr]
    exact like.done _
  | name id =>
    simp only [expr]
    exact like.lookup id
  | template parts =>
    simp only [expr]
    exact like.andThen (alike_template "" parts) fun _ => like.done _
  | list items =>
    simp only [expr]
    exact like.andThen (alike_all items) fun _ => like.ofWork _
  | tuple items =>
    simp only [expr]
    exact like.andThen (alike_all items) fun _ => like.ofWork _
  | dict entries =>
    simp only [expr]
    exact like.andThen (alike_entries .empty entries) fun _ => like.ofWork _
  | comprehension element target source cond =>
    simp only [expr]
    refine like.andThen (alike_expr source) fun _ => like.andThen (like.ofWork _) fun items => ?_
    refine like.andThen ?_ fun _ => like.ofWork _
    refine like.keeping _ (like.collect (fun item => ?_) _ _)
    refine like.andThen (alike_assign target item) fun _ => ?_
    refine like.andThen (alike_holds cond) fun holds => ?_
    cases holds with
    | false => exact like.done _
    | true => exact like.andThen (alike_expr element) fun _ => like.done _
  | unary op operand =>
    simp only [expr]
    exact like.andThen (alike_expr operand) fun _ => like.ofWork _
  | binary op left right =>
    simp only [expr]
    exact like.andThen (alike_expr left) fun _ => like.andThen (alike_expr right) fun _ => like.ofWork _
  | compare first rest =>
    simp only [expr]
    exact like.andThen (alike_expr first) fun v => alike_chain v rest
  | and left right =>
    simp only [expr]
    exact like.andThen (alike_expr left) fun v => like.test v (alike_expr right) (like.done v)
  | or left right =>
    simp only [expr]
    exact like.andThen (alike_expr left) fun v => like.test v (like.done v) (alike_expr right)
  | ifElse cond yes no =>
    simp only [expr]
    exact like.andThen (alike_expr cond) fun v => like.test v (alike_expr yes) (alike_expr no)
  | call callee args keywords =>
    simp only [expr]
    refine like.andThen (alike_expr callee) fun v => like.andThen (alike_all args) fun vs => ?_
    exact like.andThen (alike_named keywords) fun named => like.called v vs named
  | attr object name =>
    simp only [expr]
    exact like.andThen (alike_expr object) fun _ => like.ofWork _
  | index object index =>
    cases index with
    | slice start stop step =>
      simp only [expr]
      refine like.andThen (alike_expr object) fun _ => like.andThen (alike_bound start) fun _ => ?_
      exact like.andThen (alike_bound stop) fun _ => like.andThen (alike_bound step) fun _ => like.ofWork _
    | _ =>
      exact alike_index like.toLikeness nofun (alike_expr object) (alike_expr _)
  | slice start stop step =>
    simp only [expr]
    exact like.ofWork _

theorem alike_all (es : List Expr) : Q (all call es) (all copy es) := by
  cases es with
  | nil =>
    simp only [all]
    exact like.done _
  | cons e rest =>
    simp only [all]
    exact like.andThen (alike_expr e) fun _ => like.andThen (alike_all rest) fun _ => like.done _

theorem alike_entries (d : Dict) (pairs : List (Expr × Expr)) :
    Q (entries call d pairs) (entries copy d pairs) := by
  cases pairs with
  | nil =>
    simp only [entries]
    exact like.done _
  | cons pair rest =>
    simp only [entries]
    refine like.andThen (alike_expr pair.1) fun _ => like.andThen (alike_expr pair.2) fun _ => ?_
    exact like.andThen (like.ofWork _) fun d => alike_entries d rest

theorem alike_named (es : List (String × Expr)) :
    Q (named call es) (named copy es) := by
  cases es with
  | nil =>
    simp only [named]
    exact like.done _
  | cons e rest =>
    simp only [named]
    exact like.andThen (alike_expr e.2) fun _ => like.andThen (alike_named rest) fun _ => like.done _

theorem alike_chain (left : Value) (es : List (CompareOp × Expr)) :
    Q (chain call left es) (chain copy left es) := by
  cases es with
  | nil =>
    simp only [chain]
    exact like.done _
  | cons e rest =>
    simp only [chain]
    refine like.andThen (alike_expr e.2) fun right => like.andThen (like.ofWork _) fun holds => ?_
    cases holds with
    | false => exact like.done _
    | true => exact alike_chain right rest

theorem alike_holds (cond : Option Expr) : Q (holds call cond) (holds copy cond) := by
  cases cond with
  | none =>
    simp only [holds]
    exact like.done _
  | some e =>
    simp only [holds]
    exact like.andThen (alike_expr e) fun _ => like.ofWork _

theorem alike_bound (e : Option Expr) : Q (bound call e) (bound copy e) := by
  cases e with
  | none =>
    simp only [bound]
    exact like.done _
  | some e =>
    simp only [bound]
    exact like.andThen (alike_expr e) fun _ => like.ofWork _

theorem alike_template (text : String) (parts : List TemplatePart) :
    Q (template call text parts) (template copy text parts) := by
  match parts with
  | [] =>
    simp only [template]
    exact like.done _
  | .text piece :: rest =>
    simp only [template]
    exact alike_template _ rest
  | .value e quote spec :: rest =>
    simp only [template]
    refine like.andThen (alike_expr e) fun v => ?_
    cases quote with
    | false =>
      simp only [Bool.false_eq_true, ite_false]
      refine like.andThen (like.done v) fun v => ?_
      cases spec with
      | none => exact like.andThen (like.ofWork _) fun _ => alike_template _ rest
      | some spec => exact like.andThen (like.ofWork _) fun _ => alike_template _ rest
    | true =>
      simp only [ite_true]
      refine like.andThen (like.map (like.ofWork _) _) fun v => ?_
      cases spec with
      | none => exact like.andThen (like.ofWork _) fun _ => alike_template _ rest
      | some spec => exact like.andThen (like.ofWork _) fun _ => alike_template _ rest

theorem alike_assign (target : Target) (v : Value) :
    Q (assign call target v) (assign copy target v) := by
  cases target with
  | name id =>
    simp only [assign]
    exact like.bind id v
  | index object index =>
    cases index with
    | slice start stop step =>
      simp only [assign]
      refine like.andThen (alike_expr object) fun _ => like.andThen (alike_bound start) fun _ => ?_
      exact like.andThen (alike_bound stop) fun _ => like.andThen (alike_bound step) fun _ => like.ofWork _
    | _ =>
      exact alike_assign_index like.toLikeness nofun (alike_expr object) (alike_expr _)
  | attr object name =>
    simp only [assign]
    exact like.andThen (alike_expr object) fun _ => like.ofWork _
  | unpack targets =>
    simp only [assign]
    exact like.andThen (like.ofWork _) fun items => alike_assignAll targets items

theorem alike_assignAll (targets : List Target) (vs : List Value) :
    Q (assignAll call targets vs) (assignAll copy targets vs) := by
  match targets, vs with
  | [], _ =>
    simp only [assignAll]
    exact like.done _
  | _ :: _, [] =>
    simp only [assignAll]
    exact like.done _
  | target :: targets, v :: vs =>
    simp only [assignAll]
    exact like.andThen (alike_assign target v) fun _ => alike_assignAll targets vs

end

theorem alike_assignEach (v : Value)
    (targets : List Target) :
    Q (assignEach call v targets) (assignEach copy v targets) := by
  induction targets with
  | nil => exact like.done _
  | cons target rest ih => exact like.andThen (alike_assign like target v) fun _ => ih

theorem alike_inPlace (op : BinaryOp) (current v : Value) :
    Q (inPlace op current v) (inPlace op current v) := by
  unfold inPlace
  split
  · exact like.andThen (like.ofWork _) fun _ => like.andThen (like.ofWork _) fun _ => like.done _
  · exact like.ofWork _

theorem alike_augAssign (op : BinaryOp) (e : Expr)
    (target : Target) : Q (augAssign call op e target) (augAssign copy op e target) := by
  cases target with
  | name id =>
    refine like.andThen (like.lookup id) fun current => like.andThen (alike_expr like e) fun v => ?_
    exact like.andThen (alike_inPlace like op current v) fun _ => like.bind id _
  | index object index =>
    refine like.andThen (alike_expr like object) fun _ => like.andThen (alike_expr like index) fun _ => ?_
    refine like.andThen (like.ofWork _) fun current => like.andThen (alike_expr like e) fun v => ?_
    exact like.andThen (alike_inPlace like op current v) fun _ => like.ofWork _
  | attr object name => exact like.andThen (alike_expr like object) fun _ => like.ofWork _
  | unpack targets =>
    simp only [augAssign]
    exact like.ofWork _

mutual

theorem alike_delete (target : Target) :
    Q (delete call target) (delete copy target) := by
  cases target with
  | name id =>
    simp only [delete]
    exact like.unbind id
  | index object index =>
    cases index with
    | slice start stop step =>
      simp only [delete]
      refine like.andThen (alike_expr like object) fun _ => like.andThen (alike_bound like start) fun _ => ?_
      exact like.andThen (alike_bound like stop) fun _ =>
        like.andThen (alike_bound like step) fun _ => like.ofWork _
    | _ => exact alike_delete_index like.toLikeness nofun (alike_expr like object) (alike_expr like _)
  | attr object name =>
    simp only [delete]
    exact like.andThen (alike_expr like object) fun _ => like.ofWork _
  | unpack targets =>
    simp only [delete]
    exact alike_deleteAll targets

theorem alike_deleteAll (targets : List Target) :
    Q (deleteAll call targets) (deleteAll copy targets) := by
  cases targets with
  | nil =>
    simp only [deleteAll]
    exact like.done _
  | cons target rest =>
    simp only [deleteAll]
    exact like.andThen (alike_delete target) fun _ => alike_deleteAll rest

end

end Eval

/-! ### Statements without blocks -/

namespace Exec

variable (like : Run.Likeness.Calls Q call copy)

include like

theorem alike_defaults (params : List Param) :
    Q (defaults call params) (defaults copy params) := by
  induction params with
  | nil => exact like.done _
  | cons param rest ih =>
    simp only [defaults]
    cases param.default with
    | none => exact like.andThen (like.done _) fun _ => like.andThen ih fun _ => like.done _
    | some e =>
      exact like.andThen (like.map (Eval.alike_expr like e) _) fun _ => like.andThen ih fun _ => like.done _

theorem alike_assert (cond : Expr) (message : Option Expr) :
    Q (assert call cond message) (assert copy cond message) := by
  unfold assert
  refine like.andThen (Eval.alike_expr like cond) fun v => like.test v (like.done _) ?_
  cases message with
  | none => exact like.ofWork _
  | some e =>
    exact like.andThen (Eval.alike_expr like e) fun _ => like.andThen (like.ofWork _) fun _ => like.ofWork _

/-- The statement has no blocks. -/
def IsPlain : StmtKind → Prop
  | .cond .. | .loop .. | .each .. | .define .. | .attempt .. => False
  | _ => True

theorem alike_plain (turns : Nat) {kind : StmtKind} (plain : IsPlain kind) :
    Q (statement ⟨call, turns⟩ kind) (statement ⟨copy, turns⟩ kind) := by
  cases kind with
  | cond | loop | each | define | attempt => exact plain.elim
  | expr value =>
    simp only [statement]
    exact like.andThen (Eval.alike_expr like value) fun _ => like.done _
  | assign targets value =>
    simp only [statement]
    refine like.andThen (Eval.alike_expr like value) fun v => ?_
    exact like.andThen (Eval.alike_assignEach like v targets) fun _ => like.done _
  | augAssign target op value =>
    simp only [statement]
    exact like.andThen (Eval.alike_augAssign like op value target) fun _ => like.done _
  | ret value =>
    cases value with
    | none =>
      simp only [statement]
      exact like.done _
    | some value =>
      simp only [statement]
      exact like.andThen (Eval.alike_expr like value) fun _ => like.done _
  | raise value =>
    cases value with
    | none =>
      simp only [statement]
      exact like.reraise
    | some value =>
      simp only [statement]
      exact like.andThen (Eval.alike_expr like value) fun v => like.raiseValue v
  | assert cond message =>
    simp only [statement]
    exact like.andThen (alike_assert like cond message) fun _ => like.done _
  | del targets =>
    simp only [statement]
    exact like.andThen (Eval.alike_deleteAll like targets) fun _ => like.done _
  | load modules =>
    simp only [statement]
    exact like.andThen (like.load modules) fun _ => like.done _
  | global names =>
    simp only [statement]
    exact like.andThen (like.declareGlobal names) fun _ => like.done _
  | pass | stop | next =>
    simp only [statement]
    exact like.done _

end Exec

end SnippetKernel

/-! ### Calls -/

namespace SnippetKernel

namespace Call

variable {Q : ∀ {α : Type}, Run α → Run α → Prop} (like : Run.Likeness Q)

include like

theorem alike_keyed {keyOf copy : KeyOf} (keys : ∀ item, Q (keyOf item) (copy item))
    (items : List Value) : Q (Run.keyed keyOf items) (Run.keyed copy items) := by
  induction items with
  | nil => exact like.done _
  | cons item rest ih => exact like.andThen (keys item) fun _ => like.andThen ih fun _ => like.done _

theorem alike_sorted {keyOf copy : KeyOf} (keys : ∀ item, Q (keyOf item) (copy item)) (reverse : Bool)
    (items : List Value) :
    Q (Run.sorted keyOf reverse items) (Run.sorted copy reverse items) :=
  like.andThen (alike_keyed like keys items) fun _ => like.ofWork _

theorem alike_bestOf {keyOf copy : KeyOf} (keys : ∀ item, Q (keyOf item) (copy item)) (want : Ordering)
    (champion : Keyed) (items : List Value) :
    Q (Run.bestOf keyOf want champion items) (Run.bestOf copy want champion items) := by
  induction items generalizing champion with
  | nil => exact like.done _
  | cons item rest ih => exact like.andThen (keys item) fun _ => like.andThen (like.ofWork _) fun _ => ih _

variable {callKey copyKey : Value → Value → Run Value}
  (keys : ∀ f item, Q (callKey f item) (copyKey f item))

include keys

theorem alike_keyOf (key : Option Value) (item : Value) :
    Q (ListMethods.keyOf callKey key item) (ListMethods.keyOf copyKey key item) := by
  unfold ListMethods.keyOf
  split
  · exact like.done _
  · exact like.done _
  · exact keys _ item

theorem alike_extreme (name : String) (want : Ordering) (args : List Value) (keywords : Keywords) :
    Q (Builtins.extreme callKey name want args keywords)
      (Builtins.extreme copyKey name want args keywords) := by
  unfold Builtins.extreme
  refine like.andThen (like.ofWork _) fun _ => like.andThen (like.ofWork _) fun _ => ?_
  refine like.andThen (like.ofWork _) fun items => ?_
  split
  · exact like.andThen (alike_keyOf like keys _ _) fun _ => alike_bestOf like (alike_keyOf like keys _) want _ _
  · exact like.done _
  · exact like.ofWork _

theorem alike_builtin_sorted (args : List Value) (keywords : Keywords) :
    Q (Builtins.sorted callKey args keywords) (Builtins.sorted copyKey args keywords) := by
  unfold Builtins.sorted
  refine like.andThen (like.ofWork _) fun given => like.andThen (like.ofWork _) fun _ => ?_
  refine like.andThen (like.ofWork _) fun _ => like.andThen (like.ofWork _) fun items => ?_
  exact like.andThen (alike_sorted like (alike_keyOf like keys given.1) _ items) fun _ => like.ofWork _

theorem alike_sort (ref : Nat) (args : List Value) (keywords : Keywords) :
    Q (ListMethods.sort callKey ref args keywords)
      (ListMethods.sort copyKey ref args keywords) := by
  unfold ListMethods.sort
  refine like.andThen (like.ofWork _) fun given => like.andThen (like.ofWork _) fun _ => ?_
  refine like.andThen (like.ofWork _) fun _ => like.andThen (like.ofWork _) fun items => ?_
  exact like.andThen (alike_sorted like (alike_keyOf like keys given.1) _ items) fun _ => like.ofWork _

theorem alike_listMethod (m : ListMethod) (ref : Nat) (args : List Value) (keywords : Keywords) :
    Q (ListMethods.apply callKey m ref args keywords)
      (ListMethods.apply copyKey m ref args keywords) := by
  unfold ListMethods.apply
  split
  · exact alike_sort like keys ref args keywords
  · exact like.ofWork _

theorem alike_builtin (b : Builtin) (args : List Value) (keywords : Keywords) :
    Q (Builtins.apply callKey b args keywords)
      (Builtins.apply copyKey b args keywords) := by
  unfold Builtins.apply
  cases b with
  | min => exact alike_extreme like keys _ _ args keywords
  | max => exact alike_extreme like keys _ _ args keywords
  | sorted => exact alike_builtin_sorted like keys args keywords
  | divmod =>
    exact like.andThen (like.ofWork _) fun _ => like.andThen (like.ofWork _) fun _ => like.ofWork _
  | clock => exact like.andThen (like.ofWork _) fun _ => like.andThen (like.ofWork _) fun _ => like.done _
  | monotonic => exact like.andThen (like.ofWork _) fun _ => like.andThen (like.ofWork _) fun _ => like.done _
  | _ =>
    first
    | exact like.ofWork _
    | exact like.andThen (like.ofWork _) fun _ => like.ofWork _

omit keys

theorem alike_applyWith {function copy : FunctionCaller}
    (functions : ∀ ref defaults args keywords,
      Q (function ref defaults args keywords) (copy ref defaults args keywords))
    (keys : ∀ f item, Q (callKey f item) (copyKey f item)) (callee : Value) (args : List Value)
    (keywords : Keywords) :
    Q (applyWith function callKey callee args keywords) (applyWith copy copyKey callee args keywords) := by
  cases callee with
  | function id name code defaults => exact functions code defaults args keywords
  | builtin b => exact alike_builtin like keys b args keywords
  | listMethod ref m => exact alike_listMethod like keys m ref args keywords
  | _ =>
    simp only [applyWith]
    exact like.ofWork _

/-- A function is known by where its code is. -/
theorem alike_value {function copy : FunctionCaller}
    (functions : ∀ ref defaults args keywords,
      Q (function ref defaults args keywords) (copy ref defaults args keywords)) :
    Run.Likeness.Calls Q (value function) (value copy) :=
  ⟨like, alike_applyWith like functions fun key item =>
    alike_applyWith like functions (fun _ item => like.done item) key [item] []⟩

end Call

end SnippetKernel
