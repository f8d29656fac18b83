import SnippetKernel.Proofs.Program.ClosedExpressions

/-! Every statement has each closed property that calls have, and every call has those that calls of functions
have. -/
namespace SnippetKernel

open Source

variable {R : Region} {may : Prop} {P : Place → ∀ {α : Type}, (α → Prop) → Run α → Prop}

namespace Exec

variable {call : ValueCaller} (closed : Run.Closed.Calls R may P call)

include closed

theorem closed_defaults (params : List Param) :
    P .call (fun values => ∀ v, some v ∈ values → v.Within R) (defaults call params) := by
  induction params with
  | nil => exact closed.done _ (by simp)
  | cons param rest ih =>
    have more {first : Option Value} (first_within : ∀ v, first = some v → v.Within R) :
        P .call (fun values => ∀ v, some v ∈ values → v.Within R) (do
          return first :: (← defaults call rest)) := by
      apply closed.andThen ih
      intro values values_within
      apply closed.done
      intro v mem
      obtain same | mem := List.mem_cons.1 mem
      · exact first_within v same.symm
      · exact values_within v mem
    simp only [defaults]
    cases param.default with
    | none => exact more (by simp)
    | some e =>
      have given : P .call (fun first => ∀ v, first = some v → v.Within R) (some <$> Eval.expr call e) := by
        apply closed.map (Eval.closed_expr closed .call e)
        rintro v v_within _ ⟨⟩
        exact v_within
      exact closed.andThen given fun first first_within => more first_within

theorem closed_define {code : Code} (allowed : blockHasGlobal code.body → may) :
    P .call (fun _ => True) (define call code) := by
  apply closed.andThen (closed_defaults closed code.params)
  intro values values_within
  apply closed.any (.onHeap HeapM.stays_freshId)
  intro id
  apply closed.andThen (closed.newCode allowed)
  intro ref here
  exact closed.bind trivial ⟨here, Value.defaultsWithin_iff.2 values_within⟩

theorem closed_visit {v : Value} (v_within : v.Within R) {body : Value → Run Flow}
    (bodies : ∀ v, v.Within R → P .call (Flow.Within R) (body v)) : P .call (Flow.Within R) (visit v body) := by
  unfold visit
  split
  · exact closed.forRange bodies _ _ _
  · apply closed.andThen (closed.ofWork _ (.items v_within))
    intro items items_within
    exact closed.forEach bodies items_within

theorem closed_assert (cond : Expr) (message : Option Expr) :
    P .call (fun _ => True) (Exec.assert call cond message) := by
  apply closed.andThen (Eval.closed_expr closed _ cond)
  intro v _
  apply closed.test v (closed.done _ trivial)
  cases message with
  | none => exact closed.ofWork _ (.raise _ _)
  | some e =>
    apply closed.andThen (Eval.closed_expr closed _ e)
    intro v _
    apply closed.any (.display v)
    intro text
    exact closed.ofWork _ (.raise _ _)

mutual

theorem closed_block (turns : Nat) (body : List Stmt) (allowed : blockHasGlobal body → may) :
    P .call (Flow.Within R) (block ⟨call, turns⟩ body) := by
  cases body with
  | nil =>
    simp only [block]
    exact closed.done _ trivial
  | cons stmt rest =>
    obtain ⟨line, kind⟩ := stmt
    simp only [blockHasGlobal, Stmt.hasGlobal, Bool.or_eq_true, or_imp] at allowed
    simp only [block]
    apply closed.andThen (closed.tracing line (closed_statement turns kind allowed.1))
    intro flow here
    cases flow with
    | normal => exact closed_block turns rest allowed.2
    | stop => exact closed.done _ here
    | next => exact closed.done _ here
    | ret v => exact closed.done _ here

theorem closed_statement (turns : Nat) (kind : StmtKind) (allowed : kind.hasGlobal → may) :
    P .call (Flow.Within R) (statement ⟨call, turns⟩ kind) := by
  cases kind with
  | expr value =>
    simp only [statement]
    exact closed.andThen (Eval.closed_expr closed _ value) fun _ _ => closed.done _ trivial
  | assign targets value =>
    simp only [statement]
    apply closed.andThen (Eval.closed_expr closed _ value)
    intro v v_within
    exact closed.andThen (Eval.closed_assignEach closed v_within targets) fun _ _ => closed.done _ trivial
  | augAssign target op value =>
    simp only [statement]
    exact closed.andThen (Eval.closed_augAssign closed op value target) fun _ _ => closed.done _ trivial
  | cond branches orelse =>
    simp only [StmtKind.hasGlobal, Bool.or_eq_true, or_imp] at allowed
    simp only [statement]
    exact closed_branch turns (closed_block turns orelse allowed.2) branches allowed.1
  | loop cond body =>
    simp only [StmtKind.hasGlobal] at allowed
    simp only [statement]
    apply closed.whileTrue _ (closed_block turns body allowed)
    apply closed.andThen (Eval.closed_expr closed _ cond)
    intro v _
    exact closed.ofWork _ (.truthy v)
  | each target source body =>
    simp only [StmtKind.hasGlobal] at allowed
    simp only [statement]
    apply closed.andThen (Eval.closed_expr closed _ source)
    intro v v_within
    apply closed_visit closed v_within
    intro item item_within
    apply closed.andThen (Eval.closed_assign closed .call target (fun _ _ => trivial) item_within)
    intro _ _
    exact closed_block turns body allowed
  | define name params body =>
    simp only [StmtKind.hasGlobal] at allowed
    simp only [statement]
    exact closed.andThen (closed_define closed allowed) fun _ _ => closed.done _ trivial
  | ret value =>
    cases value with
    | none =>
      simp only [statement]
      exact closed.done _ trivial
    | some value =>
      simp only [statement]
      apply closed.andThen (Eval.closed_expr closed _ value)
      intro v v_within
      exact closed.done _ v_within
  | raise value =>
    cases value with
    | none =>
      simp only [statement]
      exact closed.reraise
    | some value =>
      simp only [statement]
      exact closed.andThen (Eval.closed_expr closed _ value) fun v _ => closed.raiseValue v
  | attempt body handlers orelse final =>
    simp only [StmtKind.hasGlobal, Bool.or_eq_true, or_imp] at allowed
    obtain ⟨⟨⟨in_body, in_handlers⟩, in_orelse⟩, in_final⟩ := allowed
    simp only [statement]
    apply closed.andThen (closed.attempt (?_ : P .call (Flow.Within R) _))
    · intro outcome outcome_within
      apply closed.andThen (closed_block turns final in_final)
      intro flow last
      cases flow with
      | normal => exact closed.ofAttempt outcome_within
      | stop => exact closed.done _ last
      | next => exact closed.done _ last
      | ret v => exact closed.done _ last
    · apply closed.andThen (closed.attempt (closed_block turns body in_body))
      intro first first_within
      match first with
      | .error fault => exact closed_handle turns fault handlers in_handlers
      | .ok .normal => exact closed_block turns orelse in_orelse
      | .ok .stop => exact closed.done _ trivial
      | .ok .next => exact closed.done _ trivial
      | .ok (.ret v) => exact closed.done _ (first_within _ rfl)
  | assert cond message =>
    simp only [statement]
    exact closed.andThen (closed_assert closed cond message) fun _ _ => closed.done _ trivial
  | del targets =>
    simp only [statement]
    exact closed.andThen (Eval.closed_deleteAll closed targets) fun _ _ => closed.done _ trivial
  | load modules =>
    simp only [statement]
    exact closed.andThen (closed.load modules) fun _ _ => closed.done _ trivial
  | global names =>
    simp only [statement]
    exact closed.andThen (closed.declareGlobal names (allowed rfl)) fun _ _ => closed.done _ trivial
  | pass =>
    simp only [statement]
    exact closed.done _ trivial
  | stop =>
    simp only [statement]
    exact closed.done _ trivial
  | next =>
    simp only [statement]
    exact closed.done _ trivial

theorem closed_branch (turns : Nat) {orelse : Run Flow} (others : P .call (Flow.Within R) orelse)
    (branches : List (Expr × List Stmt)) (allowed : branchesHaveGlobal branches → may) :
    P .call (Flow.Within R) (branch ⟨call, turns⟩ orelse branches) := by
  cases branches with
  | nil =>
    simp only [branch]
    exact others
  | cons first rest =>
    simp only [branchesHaveGlobal, Bool.or_eq_true, or_imp] at allowed
    simp only [branch]
    apply closed.andThen (Eval.closed_expr closed _ first.1)
    intro v _
    exact closed.test v (closed_block turns first.2 allowed.1) (closed_branch turns others rest allowed.2)

theorem closed_handle (turns : Nat) (fault : Fault) (handlers : List Handler)
    (allowed : handlersHaveGlobal handlers → may) :
    P .call (Flow.Within R) (handle ⟨call, turns⟩ fault handlers) := by
  cases handlers with
  | nil =>
    simp only [handle]
    exact closed.halt _ _
  | cons first rest =>
    obtain ⟨class_, name, body⟩ := first
    simp only [handlersHaveGlobal, Handler.hasGlobal, Bool.or_eq_true, or_imp] at allowed
    cases class_ with
    | none =>
      simp only [handle]
      exact closed.handling fault name (closed_block turns body allowed.1)
    | some class_ =>
      simp only [handle]
      apply closed.andThen (Eval.closed_expr closed _ class_)
      intro v _
      apply closed.andThen (closed.isCaughtBy _ v)
      intro caught _
      cases caught with
      | false => exact closed_handle turns fault rest allowed.2
      | true => exact closed.handling fault name (closed_block turns body allowed.1)

end

end Exec

/-! ### Calls

The functions that are always there can call back only for keys. -/

/-- Calls of functions have the closed property too, wherever they run. -/
structure Run.Closed.Functions (R : Region) (may : Prop) (P : Place → ∀ {α : Type}, (α → Prop) → Run α → Prop)
    (function : Call.FunctionCaller) : Prop extends Run.Closed R may P where
  entered (p : Place) {code : Nat} {defaults : List (Option Value)} {args : List Value} {keywords : Keywords} :
    R.codes code → Value.DefaultsWithin R defaults → (∀ v ∈ args, v.Within R) → KeywordsWithin R keywords →
    P p (Value.Within R) (function code defaults args keywords)

/-- The keys of items are found in a way that has the property. -/
def ClosedKeys (R : Region) (P : Place → ∀ {α : Type}, (α → Prop) → Run α → Prop) (p : Place) (keyOf : KeyOf) :
    Prop := ∀ item, item.Within R → P p (Value.Within R) (keyOf item)

namespace Call

section

variable (closed : Run.Closed R may P) {p : Place} {keyOf : KeyOf} (keys : ClosedKeys R P p keyOf)

include closed keys

theorem closed_keyed {items : List Value} (inside : ∀ v ∈ items, v.Within R) :
    P p (fun keyed => keyed.map (·.item) = items) (Run.keyed keyOf items) := by
  induction items with
  | nil => exact closed.done p rfl
  | cons item rest ih =>
    rw [List.forall_mem_cons] at inside
    apply closed.andThen (keys item inside.1)
    intro key _
    apply closed.andThen (ih inside.2)
    intro keyed same
    exact closed.done p (congrArg (item :: ·) same)

theorem closed_sorted (reverse : Bool) {items : List Value} (inside : ∀ v ∈ items, v.Within R) :
    P p (fun sorted => ∀ v ∈ sorted, v.Within R) (Run.sorted keyOf reverse items) := by
  apply closed.andThen (closed_keyed closed keys inside)
  intro keyed same
  apply closed.ofWork
  apply Work.Stays.readingExcept
  intro cells sorted _ done v mem
  cases placed : Keyed.sort (Keyed.before cells reverse) keyed with
  | error e =>
    rw [placed] at done
    cases done
  | ok ordered =>
    rw [placed] at done
    cases done
    have among := ((Keyed.perm_sort placed).map (·.item)).mem_iff.1 mem
    exact inside v (same ▸ among)

theorem closed_bestOf (want : Ordering) {champion : Keyed} (champion_within : champion.item.Within R)
    {items : List Value} (inside : ∀ v ∈ items, v.Within R) :
    P p (Value.Within R) (Run.bestOf keyOf want champion items) := by
  induction items generalizing champion with
  | nil => exact closed.done p champion_within
  | cons item rest ih =>
    rw [List.forall_mem_cons] at inside
    apply closed.andThen (keys item inside.1)
    intro key _
    apply closed.any (.readingExcept_any _)
    intro order
    apply ih _ inside.2
    split
    · exact inside.1
    · exact champion_within

end

section

variable {callKey : Value → Value → Run Value} (closed : Run.Closed R may P) {p : Place}
  (keys : ∀ f, f.Within R → ClosedKeys R P p (callKey f))

include closed keys

theorem closed_keyOf {key : Option Value} (key_within : ∀ f, key = some f → f.Within R) :
    ClosedKeys R P p (ListMethods.keyOf callKey key) := by
  intro item item_within
  unfold ListMethods.keyOf
  split
  · exact closed.done p item_within
  · exact closed.done p item_within
  · next f _ => exact keys f (key_within f rfl) item item_within

variable {args : List Value} {keywords : Keywords} (inside : ∀ v ∈ args, v.Within R)
  (named : KeywordsWithin R keywords)

include inside named

theorem closed_extreme (name : String) (want : Ordering) :
    P p (Value.Within R) (Builtins.extreme callKey name want args keywords) := by
  obtain ⟨key_within, others⟩ := Arguments.within_take named "key"
  have default_within := (Arguments.within_take others "default").1
  have keyOf := closed_keyOf closed keys key_within
  unfold Builtins.extreme
  apply closed.any (Arguments.stays_noKeywords _ _)
  intro _
  apply closed.any (Arguments.stays_arity _ _ _ _)
  intro _
  apply closed.andThen (closed.ofWork p (Builtins.stays_candidates inside))
  intro items items_within
  split
  · next item rest =>
    rw [List.forall_mem_cons] at items_within
    apply closed.andThen (keyOf item items_within.1)
    intro key _
    exact closed_bestOf closed keyOf want items_within.1 items_within.2
  · next v given => exact closed.done p (default_within v given)
  · exact closed.ofWork p (.raise _ _)

theorem closed_builtin_sorted : P p (Value.Within R) (Builtins.sorted callKey args keywords) := by
  unfold Builtins.sorted
  apply closed.andThen (closed.ofWork p (ListMethods.stays_sortKeywords named))
  intro given given_within
  apply closed.any (Arguments.stays_noKeywords _ _)
  intro _
  apply closed.any (Arguments.stays_exactly _ _ _)
  intro _
  apply closed.andThen (closed.ofWork p (.items (Arguments.within_first inside)))
  intro items items_within
  apply closed.andThen (closed_sorted closed (closed_keyOf closed keys given_within.1) _ items_within)
  intro sorted sorted_within
  exact closed.ofWork p (.onHeap (HeapM.stays_newList sorted_within))

omit inside in
theorem closed_sort {ref : Nat} (here : R.lists ref) :
    P p (Value.Within R) (ListMethods.sort callKey ref args keywords) := by
  unfold ListMethods.sort
  apply closed.andThen (closed.ofWork p (ListMethods.stays_sortKeywords named))
  intro given given_within
  apply closed.any (Arguments.stays_noKeywords _ _)
  intro _
  apply closed.any (Arguments.stays_exactly _ _ _)
  intro _
  apply closed.andThen (closed.ofWork p (ListMethods.stays_items here))
  intro items items_within
  apply closed.andThen (closed_sorted closed (closed_keyOf closed keys given_within.1) _ items_within)
  intro sorted sorted_within
  apply closed.ofWork p
  apply ListMethods.stays_modify here
  simpa using fun _ _ => sorted_within

theorem closed_listMethod (m : ListMethod) {ref : Nat} (here : R.lists ref) :
    P p (Value.Within R) (ListMethods.apply callKey m ref args keywords) := by
  unfold ListMethods.apply
  split
  · exact closed_sort closed keys named here
  · exact closed.ofWork p (ListMethods.stays_withoutKeys m here inside)

theorem closed_builtin (b : Builtin) : P p (Value.Within R) (Builtins.apply callKey b args keywords) := by
  have plain {work : Work Value} (stays : Work.Stays R (Value.Within R) work) {name : String} :
      P p (Value.Within R) (do
        Arguments.noKeywords name keywords
        work : Run Value) :=
    closed.any (Arguments.stays_noKeywords _ _) fun _ => closed.ofWork p stays
  have one {f : Value → Work Value} (inner : ∀ v, v.Within R → Work.Stays R (Value.Within R) (f v)) (name : String) :
      P p (Value.Within R) (Builtins.single name args keywords f : Run Value) :=
    closed.ofWork p (Builtins.stays_single name inside inner)
  unfold Builtins.apply
  cases b with
  | min => exact closed_extreme closed keys inside named _ _
  | max => exact closed_extreme closed keys inside named _ _
  | sorted => exact closed_builtin_sorted closed keys inside named
  | print => exact closed.ofWork p (Builtins.stays_print _ _)
  | len => exact one (fun v _ => Builtins.stays_len v) _
  | repr => exact one (fun v _ => by simp) _
  | typeOf => exact one (fun v _ => by simp) _
  | abs => exact one (fun v _ => Builtins.stays_abs v) _
  | sum => exact closed.ofWork p (Builtins.stays_sum inside named)
  | reversed =>
    apply one
    intro v v_within
    apply (Work.Stays.items v_within).andThen
    intro items items_within
    apply Work.Stays.onHeap
    apply HeapM.stays_newList
    simpa using items_within
  | round => exact plain (Builtins.stays_round _)
  | isinstance => exact plain (Builtins.stays_isinstance _)
  | enumerate => exact closed.ofWork p (Builtins.stays_enumerate inside)
  | zip => exact plain (Builtins.stays_zip inside)
  | any => exact one (fun v _ => by simp) _
  | all => exact one (fun v _ => by simp) _
  | chr => exact one (fun v _ => Builtins.stays_chr v) _
  | ord => exact one (fun v _ => Builtins.stays_ord v) _
  | divmod =>
    apply closed.any (Arguments.stays_noKeywords _ _)
    intro _
    apply closed.any (Arguments.stays_exactly _ _ _)
    intro _
    have left := Arguments.within_first inside
    exact closed.ofWork p (Builtins.stays_divmod left (Arguments.within_second inside))
  | format => exact plain (Builtins.stays_builtin_format _)
  | sqrt =>
    apply closed.ofWork p
    apply Builtins.stays_onNumber
    intro d
    exact .checked (.raise _ _) fun _ => .done trivial
  | floor => exact closed.ofWork p (Builtins.stays_rounding _ _ _)
  | ceil => exact closed.ofWork p (Builtins.stays_rounding _ _ _)
  | log => exact closed.ofWork p (Builtins.stays_log _)
  | exp =>
    apply closed.ofWork p
    apply Builtins.stays_onNumber
    intro d
    exact .checked (.raise _ _) fun _ => .done trivial
  | sin => exact closed.ofWork p (Builtins.stays_onNumber _ _ fun d => .done trivial)
  | cos => exact closed.ofWork p (Builtins.stays_onNumber _ _ fun d => .done trivial)
  | fabs => exact closed.ofWork p (Builtins.stays_onNumber _ _ fun d => .done trivial)
  | sleep => exact closed.ofWork p (Builtins.stays_sleep _)
  | clock | monotonic =>
    apply closed.any (Arguments.stays_exactly _ _ _)
    intro _
    apply closed.any .clock
    intro clock
    exact closed.done p (Value.within_float _)

end

theorem closed_applyWith {function : FunctionCaller} (closed : Run.Closed.Functions R may P function)
    {callKey : Value → Value → Run Value} {p : Place} (keys : ∀ f, f.Within R → ClosedKeys R P p (callKey f))
    {callee : Value} {args : List Value} {keywords : Keywords} (callee_within : callee.Within R)
    (inside : ∀ v ∈ args, v.Within R) (named : KeywordsWithin R keywords) :
    P p (Value.Within R) (applyWith function callKey callee args keywords) := by
  cases callee with
  | function id name code defaults => exact closed.entered p callee_within.1 callee_within.2 inside named
  | builtin b => exact closed_builtin closed.toClosed keys inside named b
  | listMethod ref m =>
    exact closed_listMethod closed.toClosed keys inside named m (by simpa only [Value.Within] using callee_within)
  | tupleMethod id items m => exact closed.ofWork p (TupleMethods.stays_apply m items args keywords)
  | dictMethod ref m =>
    exact closed.ofWork p (DictMethods.stays_apply m (by simpa only [Value.Within] using callee_within) inside named)
  | strMethod text m => exact closed.ofWork p (TextMethods.stays_apply m text args keywords)
  | streamMethod s m => exact closed.ofWork p (stays_streamMethod s m args keywords)
  | type t => exact closed.ofWork p (Construct.stays_apply t inside named)
  | _ => exact closed.ofWork p (.raiseTypeError _)

/-- Calls have each closed property that calls of functions have. -/
theorem closed_value {function : FunctionCaller} (closed : Run.Closed.Functions R may P function) :
    Run.Closed.Calls R may P (value function) := by
  have keys (p : Place) (f : Value) (f_within : f.Within R) : ClosedKeys R P p fun item =>
      applyWith function (fun _ item => return item) f [item] [] := by
    intro item item_within
    have one : ∀ v ∈ [item], v.Within R := by simp [item_within]
    apply closed_applyWith closed _ f_within one (List.forall_mem_nil _)
    exact fun _ _ item item_within => closed.done p item_within
  exact { closed.toClosed with called := fun p => closed_applyWith closed (keys p) }

/-- What a call of a function does once its code is found, if running the body in its frame has the property. -/
theorem closed_entered (closed : Run.Closed R may P) {p : Place} {code : Code} {defaults : List (Option Value)}
    {args : List Value} {keywords : Keywords} (defaults_within : Value.DefaultsWithin R defaults)
    (inside : ∀ v ∈ args, v.Within R) (named : KeywordsWithin R keywords) {body : Run Flow}
    (inner : ∀ locals : Namespace Value, locals.Within R →
      P p (Flow.Within R) (Run.inFrame ⟨code.name, locals, []⟩ body)) :
    P p (Value.Within R) (do
      let locals ← Work.ofExcept (bindArguments code defaults args keywords)
      let flow ← Run.inFrame ⟨code.name, locals, []⟩ body
      match flow with
      | .ret v => return v
      | _ => return .none) := by
  have bound : Work.Stays R (Namespace.Within R)
      (Work.ofExcept (bindArguments code defaults args keywords)) :=
    .ofExcept fun _ => within_bindArguments (Value.defaultsWithin_iff.1 defaults_within) inside named
  apply closed.andThen (closed.ofWork p bound)
  intro locals locals_within
  apply closed.andThen (inner locals locals_within)
  intro flow here
  cases flow with
  | ret v => exact closed.done p here
  | _ => exact closed.done p Value.within_none

end Call

end SnippetKernel
