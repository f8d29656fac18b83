import SnippetKernel.Proofs.Program.Faults
import SnippetKernel.Proofs.Source.Formed

/-! Where a `SyntaxError` can come from while a program runs. -/
namespace SnippetKernel

open Source

namespace Work

theorem ordinary_getAttr (v : Value) (name : String) : Ordinary (getAttr v name) := by
  unfold getAttr
  split
  · split <;> simp
  · simp
  · split
    · simp
    · simp [Value.ordinary_noAttribute]

theorem ordinary_refuseAttribute (v : Value) (name : String) : Ordinary (refuseAttribute v name) := by
  simp [refuseAttribute]

theorem ordinary_bound (v : Value) : Ordinary (Work.bound v) := by
  unfold Work.bound
  split <;> simp

theorem ordinary_unpack (v : Value) (targets : Nat) : Ordinary (unpack v targets) := by
  apply FailsWith.andThen (ordinary_items v)
  simp

end Work

/-! ### Expressions and targets -/

namespace Eval

variable {call : ValueCaller}

section

variable {α : Type} {object index : Expr} {start stop step : Option Expr}

/-- The truth of a value decides how it goes on. -/
theorem ordinary_test (v : Value) {yes no : Run α} (first : Run.Ordinary yes) (second : Run.Ordinary no) :
    Run.Ordinary (do if ← Work.truthy v then yes else no) := by
  apply FailsWith.andThen (Run.ordinary_ofWork (by simp))
  intro truth
  cases truth with
  | false => exact second
  | true => exact first

/-- Work on two values. -/
theorem ordinary_onBoth {next : Value → Value → Work α} (first : Run.Ordinary (expr call object))
    (second : Run.Ordinary (expr call index)) (last : ∀ v i, (next v i).Ordinary) : Run.Ordinary (do
      let object ← expr call object
      let index ← expr call index
      next object index) :=
  .andThen first fun _ => .andThen second fun _ => Run.ordinary_ofWork (last _ _)

/-- The turn of a comprehension. -/
theorem ordinary_turn {target : Target} {cond : Option Expr} {element : Expr} {item : Value}
    (assigns : Run.Ordinary (assign call target item)) (conds : Run.Ordinary (holds call cond))
    (elements : Run.Ordinary (expr call element)) : Run.Ordinary (do
      assign call target item
      if ← holds call cond then return some (← expr call element) else return none) := by
  apply FailsWith.andThen assigns
  intro _
  apply FailsWith.andThen conds
  intro holds
  cases holds with
  | false => exact .done _
  | true => exact .andThen elements fun _ => .done _

/-- Work on a slice. -/
theorem ordinary_onSlice (next : Value → Slice → Work α) (first : Run.Ordinary (expr call object))
    (starts : Run.Ordinary (bound call start)) (stops : Run.Ordinary (bound call stop))
    (steps : Run.Ordinary (bound call step)) (last : ∀ v s, (next v s).Ordinary) : Run.Ordinary (do
      let object ← expr call object
      let start ← bound call start
      let stop ← bound call stop
      let step ← bound call step
      next object ⟨start, stop, step⟩) := by
  apply FailsWith.andThen first
  intro v
  apply FailsWith.andThen starts
  intro start
  apply FailsWith.andThen stops
  intro stop
  apply FailsWith.andThen steps
  intro step
  exact Run.ordinary_ofWork (last v _)

end

section

variable (c : OrdinaryCaller)

mutual

/-- Only a slice by itself would be refused. -/
theorem ordinary_expr (e : Expr) (formed : e.Formed) : Run.Ordinary (expr c.call e) := by
  cases e with
  | literal value =>
    simp only [expr]
    exact .done _
  | name id =>
    simp only [expr]
    exact Run.ordinary_lookup id
  | template parts =>
    cases formed with
    | template parts_formed =>
    simp only [expr]
    exact .andThen (ordinary_template "" parts parts_formed) fun _ => .done _
  | list items =>
    cases formed with
    | list items_formed =>
    simp only [expr]
    exact .andThen (ordinary_all items items_formed) fun _ => Run.ordinary_ofWork (by simp)
  | tuple items =>
    cases formed with
    | tuple items_formed =>
    simp only [expr]
    exact .andThen (ordinary_all items items_formed) fun _ => Run.ordinary_ofWork (by simp)
  | dict pairs =>
    cases formed with
    | dict keys values =>
    simp only [expr]
    exact .andThen (ordinary_entries .empty pairs keys values) fun _ => Run.ordinary_ofWork (by simp)
  | comprehension element target source cond =>
    cases formed with
    | comprehension element_formed target_formed source_formed cond_formed =>
    simp only [expr]
    apply FailsWith.andThen (ordinary_expr source source_formed)
    intro v
    apply FailsWith.andThen (Run.ordinary_ofWork (by simp))
    intro items
    apply FailsWith.andThen _ fun _ => Run.ordinary_ofWork (by simp)
    apply Run.Ordinary.keeping
    apply Run.ordinary_collect
    intro item
    exact ordinary_turn (ordinary_assign target target_formed item) (ordinary_holds cond cond_formed)
      (ordinary_expr element element_formed)
  | unary op operand =>
    cases formed with
    | unary _ operand_formed =>
    simp only [expr]
    exact .andThen (ordinary_expr operand operand_formed) fun _ => Run.ordinary_ofWork (by simp)
  | binary op left right =>
    cases formed with
    | binary _ left_formed right_formed =>
    simp only [expr]
    exact ordinary_onBoth (ordinary_expr left left_formed) (ordinary_expr right right_formed) (by simp)
  | compare first rest =>
    cases formed with
    | compare first_formed rest_formed =>
    simp only [expr]
    exact .andThen (ordinary_expr first first_formed) fun v => ordinary_chain v rest rest_formed
  | and left right =>
    cases formed with
    | and left_formed right_formed =>
    simp only [expr]
    apply FailsWith.andThen (ordinary_expr left left_formed)
    exact fun v => ordinary_test v (ordinary_expr right right_formed) (.done v)
  | or left right =>
    cases formed with
    | or left_formed right_formed =>
    simp only [expr]
    apply FailsWith.andThen (ordinary_expr left left_formed)
    exact fun v => ordinary_test v (.done v) (ordinary_expr right right_formed)
  | ifElse cond yes no =>
    cases formed with
    | ifElse cond_formed yes_formed no_formed =>
    simp only [expr]
    apply FailsWith.andThen (ordinary_expr cond cond_formed)
    exact fun v => ordinary_test v (ordinary_expr yes yes_formed) (ordinary_expr no no_formed)
  | call callee args keywords =>
    cases formed with
    | call callee_formed args_formed keywords_formed =>
    simp only [expr]
    apply FailsWith.andThen (ordinary_expr callee callee_formed)
    intro v
    apply FailsWith.andThen (ordinary_all args args_formed)
    intro vs
    exact .andThen (ordinary_named keywords keywords_formed) fun named => c.ordinary v vs named
  | attr object name =>
    cases formed with
    | attr _ object_formed =>
    simp only [expr]
    apply FailsWith.andThen (ordinary_expr object object_formed)
    exact fun v => Run.ordinary_ofWork (Work.ordinary_getAttr v name)
  | index object index =>
    cases formed with
    | index object_formed subscript =>
    cases index with
    | slice start stop step =>
      obtain ⟨start_formed, stop_formed, step_formed⟩ := subscript.bounds
      simp only [expr]
      exact ordinary_onSlice (fun v s => Work.onHeap (v.slice s)) (ordinary_expr object object_formed)
        (ordinary_bound _ start_formed) (ordinary_bound _ stop_formed) (ordinary_bound _ step_formed) (by simp)
    | _ =>
      have plain := subscript.plain nofun
      rw [expr_item plain.no_slice]
      exact ordinary_onBoth (ordinary_expr object object_formed) (ordinary_expr _ plain) (by simp)
  | slice => cases formed

theorem ordinary_all (es : List Expr) (formed : ∀ e ∈ es, e.Formed) : Run.Ordinary (all c.call es) := by
  cases es with
  | nil =>
    simp only [all]
    exact .done _
  | cons e rest =>
    simp only [all]
    rw [List.forall_mem_cons] at formed
    apply FailsWith.andThen (ordinary_expr e formed.1)
    exact fun _ => .andThen (ordinary_all rest formed.2) fun _ => .done _

theorem ordinary_entries (d : Dict) (pairs : List (Expr × Expr)) (keys : ∀ pair ∈ pairs, pair.1.Formed)
    (values : ∀ pair ∈ pairs, pair.2.Formed) : Run.Ordinary (entries c.call d pairs) := by
  cases pairs with
  | nil =>
    simp only [entries]
    exact .done _
  | cons pair rest =>
    simp only [entries]
    rw [List.forall_mem_cons] at keys values
    apply FailsWith.andThen (ordinary_expr pair.1 keys.1)
    intro key
    apply FailsWith.andThen (ordinary_expr pair.2 values.1)
    intro value
    exact .andThen (Run.ordinary_ofWork (by simp)) fun d => ordinary_entries d rest keys.2 values.2

theorem ordinary_named (keywords : List (String × Expr)) (formed : ∀ keyword ∈ keywords, keyword.2.Formed) :
    Run.Ordinary (named c.call keywords) := by
  cases keywords with
  | nil =>
    simp only [named]
    exact .done _
  | cons keyword rest =>
    simp only [named]
    rw [List.forall_mem_cons] at formed
    apply FailsWith.andThen (ordinary_expr keyword.2 formed.1)
    exact fun _ => .andThen (ordinary_named rest formed.2) fun _ => .done _

theorem ordinary_chain (left : Value) (others : List (CompareOp × Expr))
    (formed : ∀ other ∈ others, other.2.Formed) : Run.Ordinary (chain c.call left others) := by
  cases others with
  | nil =>
    simp only [chain]
    exact .done _
  | cons other rest =>
    simp only [chain]
    rw [List.forall_mem_cons] at formed
    apply FailsWith.andThen (ordinary_expr other.2 formed.1)
    intro right
    apply FailsWith.andThen (Run.ordinary_ofWork (by simp))
    intro holds
    cases holds with
    | false => exact .done _
    | true => exact ordinary_chain right rest formed.2

theorem ordinary_holds (cond : Option Expr) (formed : ∀ e ∈ cond, e.Formed) : Run.Ordinary (holds c.call cond) := by
  cases cond with
  | none =>
    simp only [holds]
    exact .done _
  | some e =>
    simp only [holds]
    exact .andThen (ordinary_expr e (formed e rfl)) fun _ => Run.ordinary_ofWork (by simp)

theorem ordinary_bound (limit : Option Expr) (formed : ∀ e ∈ limit, e.Formed) :
    Run.Ordinary (bound c.call limit) := by
  cases limit with
  | none =>
    simp only [bound]
    exact .done _
  | some e =>
    simp only [bound]
    exact .andThen (ordinary_expr e (formed e rfl)) fun v => Run.ordinary_ofWork (Work.ordinary_bound v)

theorem ordinary_template (text : String) (parts : List TemplatePart) (formed : ∀ part ∈ parts, part.Formed) :
    Run.Ordinary (template c.call text parts) := by
  match parts with
  | [] =>
    simp only [template]
    exact .done _
  | .text piece :: rest =>
    simp only [template]
    exact ordinary_template _ rest (List.forall_mem_cons.1 formed).2
  | .value e quote spec :: rest =>
    rw [List.forall_mem_cons] at formed
    have others (text : String) := ordinary_template text rest formed.2
    have shown (v : Value) : Run.Ordinary (do
        let piece ←
          match spec with
          | some spec => Work.format v spec
          | none => Work.display v
        template c.call (text ++ piece) rest) := by
      cases spec with
      | none => exact .andThen (Run.ordinary_ofWork (by simp)) fun _ => others _
      | some spec => exact .andThen (Run.ordinary_ofWork (by simp)) fun _ => others _
    cases formed.1 with
    | value _ _ e_formed =>
    simp only [template]
    apply FailsWith.andThen (ordinary_expr e e_formed)
    intro v
    cases quote with
    | false => exact shown v
    | true => exact .andThen (FailsWith.map_iff.2 (Run.ordinary_ofWork (by simp))) shown

theorem ordinary_assign (t : Target) (formed : t.Formed) (v : Value) : Run.Ordinary (assign c.call t v) := by
  cases t with
  | name id =>
    simp only [assign]
    exact .change _
  | index object index =>
    cases formed with
    | index object_formed subscript =>
    cases index with
    | slice start stop step =>
      obtain ⟨start_formed, stop_formed, step_formed⟩ := subscript.bounds
      simp only [assign]
      exact ordinary_onSlice (fun object s => Work.onHeap (object.setSlice s v)) (ordinary_expr object object_formed)
        (ordinary_bound _ start_formed) (ordinary_bound _ stop_formed) (ordinary_bound _ step_formed) (by simp)
    | _ =>
      have plain := subscript.plain nofun
      rw [assign_item plain.no_slice]
      exact ordinary_onBoth (ordinary_expr object object_formed) (ordinary_expr _ plain) (by simp)
  | attr object name =>
    cases formed with
    | attr _ object_formed =>
    simp only [assign]
    apply FailsWith.andThen (ordinary_expr object object_formed)
    exact fun v => Run.ordinary_ofWork (Work.ordinary_refuseAttribute v name)
  | unpack targets =>
    cases formed with
    | unpack targets_formed =>
    simp only [assign]
    apply FailsWith.andThen (Run.ordinary_ofWork (Work.ordinary_unpack v _))
    exact fun items => ordinary_assignAll targets items targets_formed

theorem ordinary_assignAll (targets : List Target) (vs : List Value) (formed : ∀ t ∈ targets, t.Formed) :
    Run.Ordinary (assignAll c.call targets vs) := by
  match targets, vs with
  | [], _ =>
    simp only [assignAll]
    exact .done _
  | _ :: _, [] =>
    simp only [assignAll]
    exact .done _
  | t :: rest, v :: vs =>
    simp only [assignAll]
    rw [List.forall_mem_cons] at formed
    exact .andThen (ordinary_assign t formed.1 v) fun _ => ordinary_assignAll rest vs formed.2

end

theorem ordinary_assignEach (v : Value) (targets : List Target) (formed : ∀ t ∈ targets, t.Formed) :
    Run.Ordinary (assignEach c.call v targets) := by
  induction targets with
  | nil => exact .done _
  | cons t rest ih =>
    rw [List.forall_mem_cons] at formed
    exact .andThen (ordinary_assign c t formed.1 v) fun _ => ih formed.2

theorem ordinary_inPlace (op : BinaryOp) (current v : Value) : Run.Ordinary (inPlace op current v) := by
  unfold inPlace
  split
  · apply FailsWith.andThen (Run.ordinary_ofWork (by simp))
    exact fun _ => .andThen (Run.ordinary_ofWork (by simp)) fun _ => .done _
  · exact Run.ordinary_ofWork (by simp)

theorem ordinary_augAssign {t : Target} (op : BinaryOp) {value : Expr} (formed : t.Formed)
    (value_formed : value.Formed) (single : t.isUnpack = false)
    (no_slice : ∀ object start stop step, t ≠ .index object (.slice start stop step)) :
    Run.Ordinary (augAssign c.call op value t) := by
  have evaluated := ordinary_expr c value value_formed
  cases formed with
  | name id =>
    apply FailsWith.andThen (Run.ordinary_lookup id)
    intro current
    apply FailsWith.andThen evaluated
    intro v
    exact .andThen (ordinary_inPlace op current v) fun _ => .change _
  | @index object index object_formed subscript =>
    have plain : index.Formed := by
      apply subscript.plain
      rintro start stop step rfl
      exact no_slice _ _ _ _ rfl
    apply FailsWith.andThen (ordinary_expr c object object_formed)
    intro object
    apply FailsWith.andThen (ordinary_expr c index plain)
    intro index
    apply FailsWith.andThen (Run.ordinary_ofWork (by simp))
    intro current
    apply FailsWith.andThen evaluated
    intro v
    exact .andThen (ordinary_inPlace op current v) fun _ => Run.ordinary_ofWork (by simp)
  | @attr object name object_formed =>
    apply FailsWith.andThen (ordinary_expr c object object_formed)
    exact fun v => Run.ordinary_ofWork (Work.ordinary_refuseAttribute v name)
  | unpack => cases single

mutual

theorem ordinary_delete (t : Target) (formed : t.Formed) : Run.Ordinary (delete c.call t) := by
  cases t with
  | name id =>
    simp only [delete]
    exact Run.ordinary_unbind id
  | index object index =>
    cases formed with
    | index object_formed subscript =>
    have first := ordinary_expr c object object_formed
    cases index with
    | slice start stop step =>
      obtain ⟨start_formed, stop_formed, step_formed⟩ := subscript.bounds
      simp only [delete]
      exact ordinary_onSlice (fun v s => Work.onHeap (v.deleteSlice s)) first (ordinary_bound c _ start_formed)
        (ordinary_bound c _ stop_formed) (ordinary_bound c _ step_formed) (by simp)
    | _ =>
      have plain := subscript.plain nofun
      rw [delete_item plain.no_slice]
      exact ordinary_onBoth first (ordinary_expr c _ plain) (by simp)
  | attr object name =>
    cases formed with
    | attr _ object_formed =>
    simp only [delete]
    apply FailsWith.andThen (ordinary_expr c object object_formed)
    exact fun v => Run.ordinary_ofWork (Work.ordinary_refuseAttribute v name)
  | unpack targets =>
    cases formed with
    | unpack targets_formed =>
    simp only [delete]
    exact ordinary_deleteAll targets targets_formed

theorem ordinary_deleteAll (targets : List Target) (formed : ∀ t ∈ targets, t.Formed) :
    Run.Ordinary (deleteAll c.call targets) := by
  cases targets with
  | nil =>
    simp only [deleteAll]
    exact .done _
  | cons t rest =>
    simp only [deleteAll]
    rw [List.forall_mem_cons] at formed
    exact .andThen (ordinary_delete t formed.1) fun _ => ordinary_deleteAll rest formed.2

end

end

end Eval

/-! ### Statements -/

namespace Exec

section

variable (c : OrdinaryCaller)

theorem ordinary_defaults (params : List Param) (formed : ∀ p ∈ params, ∀ e ∈ p.default, e.Formed) :
    Run.Ordinary (defaults c.call params) := by
  induction params with
  | nil => exact .done _
  | cons param rest ih =>
    rw [List.forall_mem_cons] at formed
    have others := ih formed.2
    simp only [defaults]
    cases default : param.default with
    | none => exact .andThen (.done _) fun _ => .andThen others fun _ => .done _
    | some e =>
      have value := Eval.ordinary_expr c e (formed.1 e default)
      exact .andThen (FailsWith.map_iff.2 value) fun _ => .andThen others fun _ => .done _

theorem ordinary_define (code : Code) (formed : ∀ p ∈ code.params, ∀ e ∈ p.default, e.Formed) :
    Run.Ordinary (define c.call code) := by
  apply FailsWith.andThen (ordinary_defaults c code.params formed)
  intro values
  apply FailsWith.andThen (Run.ordinary_ofWork (by simp))
  intro id
  exact .andThen (.changeGet _) fun ref => .change _

theorem ordinary_assert {cond : Expr} {message : Option Expr} (formed : cond.Formed)
    (message_formed : ∀ e ∈ message, e.Formed) : Run.Ordinary (assert c.call cond message) := by
  apply FailsWith.andThen (Eval.ordinary_expr c cond formed)
  intro v
  apply Eval.ordinary_test v (.done _)
  cases message with
  | none => exact Run.ordinary_ofWork (Work.ordinary_raise.2 nofun)
  | some e =>
    apply FailsWith.andThen (Eval.ordinary_expr c e (message_formed e rfl))
    exact fun v => .andThen (Run.ordinary_ofWork (by simp)) fun _ => Run.ordinary_ofWork (by simp)

end

section

variable (turns room limit : Nat)

/-- What statements need from outside. -/
abbrev outside : Outside := ⟨Call.value (Call.function turns room), limit⟩

theorem ordinary_branch {orelse : Run Flow} (others : Run.Ordinary orelse) (branches : List (Expr × List Stmt))
    (formed : ∀ branch ∈ branches, branch.1.Formed) :
    Run.Ordinary (branch (outside turns room limit) orelse branches) := by
  induction branches with
  | nil =>
    simp only [branch]
    exact others
  | cons first rest ih =>
    simp only [branch]
    rw [List.forall_mem_cons] at formed
    apply FailsWith.andThen (Eval.ordinary_expr (Call.ordinaryCaller turns room) first.1 formed.1)
    exact fun v => Eval.ordinary_test v (ordinary_block turns room limit first.2) (ih formed.2)

theorem ordinary_handle (f : Fault) (caught : Halt.Ordinary (.fault f)) (handlers : List Handler)
    (formed : ∀ h ∈ handlers, ∀ e ∈ h.class?, e.Formed) :
    Run.Ordinary (handle (outside turns room limit) f handlers) := by
  induction handlers with
  | nil =>
    simp only [handle]
    exact .thrown caught
  | cons first rest ih =>
    rw [List.forall_mem_cons] at formed
    obtain ⟨class_, name, body⟩ := first
    have handled := Run.Ordinary.handling f name (ordinary_block turns room limit body)
    cases class_ with
    | none =>
      simp only [handle]
      exact handled
    | some class_ =>
      simp only [handle]
      apply FailsWith.andThen (Eval.ordinary_expr (Call.ordinaryCaller turns room) class_ (formed.1 class_ rfl))
      intro v
      apply FailsWith.andThen (Run.ordinary_isCaughtBy _ v)
      intro caught
      cases caught with
      | false => exact ih formed.2
      | true => exact handled

/-- What a block leaves is passed on by the statements after it. -/
theorem ordinary_proceed {rest : Run Flow} (ordinary : Run.Ordinary rest) (flow : Flow) :
    Run.Ordinary (match flow with
      | .normal => rest
      | flow => return flow : Run Flow) := by
  cases flow with
  | normal => exact ordinary
  | stop | next | ret => exact .done _

theorem ordinary_attempt (body : List Stmt) (handlers : List Handler) (orelse final : List Stmt)
    (formed : ∀ h ∈ handlers, ∀ e ∈ h.class?, e.Formed) :
    Run.Ordinary (statement (outside turns room limit) (.attempt body handlers orelse final)) := by
  have blocks := ordinary_block turns room limit
  have finally_ {last : Run Flow} (lasts : Run.Ordinary last) :=
    FailsWith.andThen (blocks final) (ordinary_proceed lasts)
  have handled (f : Fault) (caught : Halt.Ordinary (.fault f)) :=
    ordinary_handle turns room limit f caught handlers formed
  simp only [statement]
  apply Run.Ordinary.attempt
  · apply Run.Ordinary.attempt (blocks body) _ handled
    intro flow
    cases flow with
    | normal => exact blocks orelse
    | stop | next | ret => exact .done _
  · exact fun flow => finally_ (.done flow)
  · exact fun f caught => finally_ (.thrown caught)

theorem ordinary_statement {kind : StmtKind} (formed : kind.Formed) (no_raise : ∀ value, kind ≠ .raise value)
    (no_slice : ∀ object start stop step op value,
      kind ≠ .augAssign (.index object (.slice start stop step)) op value) :
    Run.Ordinary (statement (outside turns room limit) kind) := by
  let c := Call.ordinaryCaller turns room
  cases kind with
  | expr value =>
    simp only [statement]
    exact .andThen (Eval.ordinary_expr c value formed) fun _ => .done _
  | assign targets value =>
    simp only [statement]
    apply FailsWith.andThen (Eval.ordinary_expr c value formed.2)
    exact fun v => .andThen (Eval.ordinary_assignEach c v targets formed.1) fun _ => .done _
  | augAssign t op value =>
    obtain ⟨t_formed, single, value_formed⟩ := formed
    have plain (object : Expr) (start stop step : Option Expr) : t ≠ .index object (.slice start stop step) := by
      rintro rfl
      exact no_slice _ _ _ _ _ _ rfl
    simp only [statement]
    exact .andThen (Eval.ordinary_augAssign c op t_formed value_formed single plain) fun _ => .done _
  | cond branches orelse =>
    simp only [statement]
    exact ordinary_branch turns room limit (ordinary_block turns room limit orelse) branches formed
  | loop test body =>
    simp only [statement]
    apply Run.Ordinary.whileTrue
    · exact .andThen (Eval.ordinary_expr c test formed) fun _ => Run.ordinary_ofWork (by simp)
    · exact ordinary_block turns room limit body
  | each t source body =>
    simp only [statement]
    apply FailsWith.andThen (Eval.ordinary_expr c source formed.2)
    intro v
    apply Run.ordinary_visit
    intro item
    exact .andThen (Eval.ordinary_assign c t formed.1 item) fun _ => ordinary_block turns room limit body
  | define name params body =>
    simp only [statement]
    exact .andThen (ordinary_define c _ formed) fun _ => .done _
  | ret value =>
    cases value with
    | none =>
      simp only [statement]
      exact .done _
    | some value =>
      simp only [statement]
      exact .andThen (Eval.ordinary_expr c value (formed value rfl)) fun _ => .done _
  | raise value => exact absurd rfl (no_raise value)
  | attempt body handlers orelse final => exact ordinary_attempt turns room limit body handlers orelse final formed
  | assert test message =>
    simp only [statement]
    exact .andThen (ordinary_assert c formed.1 formed.2) fun _ => .done _
  | del targets =>
    simp only [statement]
    exact .andThen (Eval.ordinary_deleteAll c targets formed) fun _ => .done _
  | load modules =>
    simp only [statement]
    exact .andThen (Run.ordinary_load modules) fun _ => .done _
  | global names =>
    simp only [statement]
    exact .andThen (.change _) fun _ => .done _
  | pass | stop | next =>
    simp only [statement]
    exact .done _

end

end Exec

end SnippetKernel
