import SnippetKernel.Proofs.Program.ShiftedStatements

/-! Calls behind what was left on the heap, and at another time. The functions that tell the time or let it pass
would show a difference, so calls of them are barred: then a run either comes to such a call or goes on as it does
elsewhere. -/
namespace SnippetKernel

open Source Arguments

variable {left : Heap} {clock : Clock}

/-! ### Sorting -/

def Keyed.shift (left : Heap) (x : Keyed) : Keyed := ⟨x.key.shift left, x.item.shift left⟩

namespace Keyed

theorem before_shift (h : Cells) (reverse : Bool) (a b : Keyed) :
    before (h.shift left) reverse (a.shift left) (b.shift left) = before h reverse a b := by
  simp only [before, shift, Value.compareValues_shift]

variable {before before' : Keyed → Keyed → Except Exception Bool} {f : Keyed → Keyed}
  (same : ∀ a b, before' (f a) (f b) = before a b)

include same

theorem insertLast_map (x : Keyed) (items : List Keyed) :
    insertLast before' (f x) (items.map f) = (insertLast before x items).map (List.map f) := by
  induction items with
  | nil => rfl
  | cons last rest ih =>
    simp only [List.map_cons, insertLast, same, ih]
    cases before x last with
    | error e => rfl
    | ok first =>
      cases first with
      | false => rfl
      | true => cases insertLast before x rest <;> rfl

theorem sortByInsertion_map (items : List Keyed) :
    sortByInsertion before' (items.map f) = (sortByInsertion before items).map (List.map f) := by
  have all (items start : List Keyed) :
      (items.map f).foldlM (fun sorted x => insertLast before' x sorted) (start.map f)
        = (items.foldlM (fun sorted x => insertLast before x sorted) start).map (List.map f) := by
    induction items generalizing start with
    | nil => rfl
    | cons x rest ih =>
      simp only [List.map_cons, List.foldlM_cons, insertLast_map same]
      cases insertLast before x start with
      | error e => rfl
      | ok next => exact ih next
  have whole := all items []
  rw [List.map_nil] at whole
  simp only [sortByInsertion, whole]
  cases items.foldlM (fun sorted x => insertLast before x sorted) [] with
  | error e => rfl
  | ok reversed => exact congrArg Except.ok List.map_reverse.symm

theorem merge_map (done xs ys : List Keyed) :
    merge before' (done.map f) (xs.map f) (ys.map f) = (merge before done xs ys).map (List.map f) := by
  fun_induction merge before done xs ys with
  | case1 done ys =>
    rw [List.map_nil, merge]
    exact congrArg Except.ok (by simp only [List.reverseAux_eq, List.map_append, List.map_reverse])
  | case2 done xs nonempty =>
    rw [List.map_nil, merge]
    · exact congrArg Except.ok (by simp only [List.reverseAux_eq, List.map_append, List.map_reverse])
    · simpa using nonempty
  | case3 done x xs y ys ih₁ ih₂ =>
    simp only [List.map_cons] at ih₁ ih₂ ⊢
    rw [merge, same]
    cases before y x with
    | error e => rfl
    | ok second =>
      cases second with
      | true => exact ih₁
      | false => exact ih₂

/-- Sorting looks at nothing but the order. -/
theorem sort_map (items : List Keyed) : sort before' (items.map f) = (sort before items).map (List.map f) := by
  fun_induction sort before items with
  | case1 items short =>
    rw [sort, dif_pos (by rwa [List.length_map])]
    exact sortByInsertion_map same items
  | case2 items long half front_ih =>
    rename_i back_ih
    rw [sort, dif_neg (by rwa [List.length_map]), List.length_map]
    change (do
      let front ← sort before' ((items.map f).take half)
      let back ← sort before' ((items.map f).drop half)
      merge before' [] front back) = _
    rw [← List.map_take, ← List.map_drop, front_ih, back_ih]
    cases sort before (items.take half) with
    | error e => rfl
    | ok front =>
      cases sort before (items.drop half) with
      | error e => rfl
      | ok back => exact merge_map same [] front back

end Keyed

namespace Run

/-- The same keys are found. -/
def ShiftKeys (left : Heap) (clock : Clock) (keyOf copy : KeyOf) : Prop :=
  ∀ item, Shifts left clock (Value.shift left) (keyOf item) (copy (item.shift left))

variable {keyOf copy : KeyOf} (keys : ShiftKeys left clock keyOf copy)

include keys

theorem shifts_keyed (items : List Value) :
    Shifts left clock (List.map (Keyed.shift left)) (keyed keyOf items)
      (keyed copy (items.map (Value.shift left))) := by
  induction items with
  | nil => exact .done rfl
  | cons item rest ih => exact (keys item).andThen fun _ => ih.andThen fun _ => .done rfl

theorem shifts_sorted (reverse : Bool) (items : List Value) :
    Shifts left clock (List.map (Value.shift left)) (sorted keyOf reverse items)
      (sorted copy reverse (items.map (Value.shift left))) := by
  apply (shifts_keyed keys items).andThen
  intro decorated
  apply Shifts.ofWork
  apply Work.Shifts.readingExcept
  intro h
  rw [Keyed.sort_map (Keyed.before_shift h reverse)]
  cases Keyed.sort (Keyed.before h reverse) decorated with
  | error e => rfl
  | ok sorted =>
    apply congrArg Except.ok
    simp only [List.map_map]
    rfl

theorem shifts_bestOf (want : Ordering) (champion : Keyed) (items : List Value) :
    Shifts left clock (Value.shift left) (bestOf keyOf want champion items)
      (bestOf copy want (champion.shift left) (items.map (Value.shift left))) := by
  induction items generalizing champion with
  | nil => exact .done rfl
  | cons item rest ih =>
    apply (keys item).andThen
    intro key
    apply (Shifts.ofWork (.readingExcept_id fun h => Value.compareValues_shift key champion.key)).before
    intro order
    have next := ih (if order = want then ⟨key, item⟩ else champion)
    rw [apply_ite (Keyed.shift left)] at next
    exact next

end Run

/-! ### Functions that ask for keys -/

namespace Call

open Run

variable {callKey copyKey : Value → Value → Run Value}
  (keys : ∀ f, ShiftKeys left clock (callKey f) (copyKey (f.shift left)))

include keys

theorem shifts_keyOf (key : Option Value) :
    ShiftKeys left clock (ListMethods.keyOf callKey key)
      (ListMethods.keyOf copyKey (key.map (Value.shift left))) := by
  intro item
  cases key with
  | none => exact .done rfl
  | some f =>
    have asked := keys f item
    cases f with
    | none => exact .done rfl
    | _ => exact asked

theorem shifts_extreme (name : String) (want : Ordering) (args : List Value) (keywords : Keywords) :
    Shifts left clock (Value.shift left) (Builtins.extreme callKey name want args keywords)
      (Builtins.extreme copyKey name want (args.map (Value.shift left)) (keywords.map (shiftKeyword left))) := by
  simp only [Builtins.extreme, take_shift]
  apply (Shifts.ofWork (shifts_noKeywords _ _)).before
  intro _
  apply (Shifts.ofWork (shifts_arity _ _ _ _)).before
  intro _
  apply (Shifts.ofWork (Builtins.shifts_candidates args)).andThen
  intro items
  have keyed := shifts_keyOf keys (take "key" keywords).1
  cases items with
  | nil =>
    cases (take "default" (take "key" keywords).2).1 with
    | none => exact .ofWork (.raise _ _)
    | some v => exact .done rfl
  | cons item rest => exact (keyed item).andThen fun key => shifts_bestOf keyed want ⟨key, item⟩ rest

theorem shifts_builtin_sorted (args : List Value) (keywords : Keywords) :
    Shifts left clock (Value.shift left) (Builtins.sorted callKey args keywords)
      (Builtins.sorted copyKey (args.map (Value.shift left)) (keywords.map (shiftKeyword left))) := by
  simp only [Builtins.sorted, first_shift]
  apply (Shifts.ofWork (ListMethods.shifts_sortKeywords keywords)).andThen
  intro (key, reverse, others)
  apply (Shifts.ofWork (shifts_noKeywords _ others)).before
  intro _
  apply (Shifts.ofWork (shifts_exactly _ args _)).before
  intro _
  apply (Shifts.ofWork (.items (first args))).andThen
  intro items
  apply (shifts_sorted (shifts_keyOf keys key) reverse items).andThen
  intro sorted
  exact .ofWork (.onHeap (HeapM.shifts_newList sorted))

theorem shifts_sort (ref : Nat) (args : List Value) (keywords : Keywords) :
    Shifts left clock (Value.shift left) (ListMethods.sort callKey ref args keywords)
      (ListMethods.sort copyKey (left.lists.size + ref) (args.map (Value.shift left))
        (keywords.map (shiftKeyword left))) := by
  apply (Shifts.ofWork (ListMethods.shifts_sortKeywords keywords)).andThen
  intro (key, reverse, others)
  apply (Shifts.ofWork (shifts_noKeywords _ others)).before
  intro _
  apply (Shifts.ofWork (shifts_exactly _ args _)).before
  intro _
  apply (Shifts.ofWork (ListMethods.shifts_items ref)).andThen
  intro items
  apply (shifts_sorted (shifts_keyOf keys key) reverse items).andThen
  intro sorted
  exact .ofWork (ListMethods.shifts_modify (fun _ => List.map_toArray.symm) ref)

theorem shifts_listMethod (m : ListMethod) (ref : Nat) (args : List Value) (keywords : Keywords) :
    Shifts left clock (Value.shift left) (ListMethods.apply callKey m ref args keywords)
      (ListMethods.apply copyKey m (left.lists.size + ref) (args.map (Value.shift left))
        (keywords.map (shiftKeyword left))) := by
  unfold ListMethods.apply
  split
  · exact shifts_sort keys ref args keywords
  · exact .ofWork (ListMethods.shifts_withoutKeys m ref args keywords)

omit keys

end Call

/-! ### Calls of values -/

/-- The functions that tell the time or let it pass. -/
def Builtin.isTimed : Builtin → Bool
  | .clock | .sleep | .monotonic => true
  | _ => false

namespace Call

open Run

variable {callKey copyKey : Value → Value → Run Value}

theorem shifts_builtin (keys : ∀ f, ShiftKeys left clock (callKey f) (copyKey (f.shift left))) (b : Builtin)
    (untimed : b.isTimed = false) (args : List Value) (keywords : Keywords) :
    Shifts left clock (Value.shift left) (Builtins.apply callKey b args keywords)
      (Builtins.apply copyKey b (args.map (Value.shift left)) (keywords.map (shiftKeyword left))) := by
  have single (name : String) {f : Value → Work Value}
      (same : ∀ v, Work.Shifts left clock (Value.shift left) (f v) (f (v.shift left))) :
      Shifts left clock (Value.shift left) (Run.ofWork (Builtins.single name args keywords f))
        (Run.ofWork (Builtins.single name (args.map (Value.shift left)) (keywords.map (shiftKeyword left)) f)) :=
    .ofWork (Builtins.shifts_single name args keywords same)
  have unnamed (name : String) {work copy : Work Value}
      (rest : Work.Shifts left clock (Value.shift left) work copy) :
      Shifts left clock (Value.shift left) (Run.ofWork (noKeywords name keywords) >>= fun _ => Run.ofWork work)
        (Run.ofWork (noKeywords name (keywords.map (shiftKeyword left))) >>= fun _ => Run.ofWork copy) :=
    (Shifts.ofWork (shifts_noKeywords name keywords)).before fun _ => .ofWork rest
  have domainError {α β : Type} {result : α → β} :
      Work.Shifts left clock result Builtins.domainError Builtins.domainError := .raise _ _
  cases b with
  | print => exact .ofWork (Builtins.shifts_print args keywords)
  | len => exact single _ Builtins.shifts_len
  | repr => exact single _ fun v => (Work.Shifts.repr v).before fun _ => .done_value rfl
  | typeOf => exact single _ fun v => .done_value (by rw [Value.valueType_shift, Value.shift_type])
  | abs => exact single _ Builtins.shifts_abs
  | min => exact shifts_extreme keys _ _ args keywords
  | max => exact shifts_extreme keys _ _ args keywords
  | sum => exact .ofWork (Builtins.shifts_sum args keywords)
  | sorted => exact shifts_builtin_sorted keys args keywords
  | reversed =>
    apply single
    intro v
    apply (Work.Shifts.items v).andThen
    intro items
    rw [← List.map_reverse]
    exact .onHeap (HeapM.shifts_newList _)
  | round => exact unnamed _ (Builtins.shifts_round args)
  | isinstance => exact unnamed _ (Builtins.shifts_isinstance args)
  | enumerate => exact .ofWork (Builtins.shifts_enumerate args keywords)
  | zip => exact unnamed _ (Builtins.shifts_zip args)
  | any | all =>
    apply single
    intro v
    apply (Work.Shifts.items v).andThen
    intro items
    exact (Builtins.shifts_truths items).before fun _ => .done_value rfl
  | chr => exact single _ Builtins.shifts_chr
  | ord => exact single _ Builtins.shifts_ord
  | divmod =>
    simp only [Builtins.apply, first_shift, second_shift]
    apply (Shifts.ofWork (shifts_noKeywords _ keywords)).before
    intro _
    apply (Shifts.ofWork (shifts_exactly _ args _)).before
    intro _
    exact .ofWork (Builtins.shifts_divmod _ _)
  | format => exact unnamed _ (Builtins.shifts_format args)
  | sqrt =>
    apply Shifts.ofWork
    apply Builtins.shifts_onNumber
    intro d
    exact .choose (.raised _ _) (.done _)
  | floor | ceil => exact .ofWork (Builtins.shifts_rounding _ _ args)
  | log => exact .ofWork (Builtins.shifts_log args)
  | exp =>
    apply Shifts.ofWork
    apply Builtins.shifts_onNumber
    intro d
    exact .choose (.raised _ _) (.done _)
  | sin | cos | fabs =>
    apply Shifts.ofWork
    apply Builtins.shifts_onNumber
    intro d
    exact .done _
  | clock | sleep | monotonic => contradiction

/-- The same calls of functions: a function's code is behind the code that was left. -/
def ShiftFunctions (left : Heap) (clock : Clock) (function copy : FunctionCaller) : Prop :=
  ∀ ref defaults args keywords, Shifts left clock (Value.shift left) (function ref defaults args keywords)
    (copy (left.codes.size + ref) (defaults.map (·.map (Value.shift left))) (args.map (Value.shift left))
      (keywords.map (shiftKeyword left)))

/-- A call of any value, but not of a function that tells the time or lets it pass. -/
def barredWith (function : FunctionCaller) (callKey : Value → Value → Run Value) : ValueCaller :=
  fun callee args keywords =>
    match callee with
    | .builtin b => if b.isTimed then throw .timed else Builtins.apply callKey b args keywords
    | callee => applyWith function callKey callee args keywords

/-- `value`, with such calls barred. -/
def barredValue (function : FunctionCaller) : ValueCaller :=
  barredWith function fun key item =>
    barredWith function (fun _ item => return item) key [item] []

/-- `function`, with such calls barred. -/
def barredFunction (turns : Nat) : (room : Nat) → FunctionCaller
  | 0, _, _, _, _ => Work.raise .recursion "maximum recursion depth exceeded"
  | room + 1, ref, defaults, args, keywords => do
    let code := (← get).heap.code ref
    let locals ← Work.ofExcept (bindArguments code defaults args keywords)
    let flow ← Run.inFrame ⟨code.name, locals, []⟩
      (Exec.block ⟨barredValue (barredFunction turns room), turns⟩ code.body)
    match flow with
    | .ret v => return v
    | _ => return .none

theorem shifts_barredWith {function copy : FunctionCaller} (functions : ShiftFunctions left clock function copy)
    (keys : ∀ f, ShiftKeys left clock (callKey f) (copyKey (f.shift left))) :
    ShiftCalls left clock (barredWith function callKey) (applyWith copy copyKey) := by
  intro callee args keywords
  cases callee with
  | function id name code defaults =>
    rw [Value.shift_function]
    exact functions code defaults args keywords
  | builtin b =>
    simp only [barredWith, Value.shift_builtin, applyWith]
    cases untimed : b.isTimed with
    | false => exact shifts_builtin keys b untimed args keywords
    | true => exact fun _ => .inl rfl
  | listMethod ref m => exact shifts_listMethod keys m ref args keywords
  | tupleMethod id items m =>
    rw [Value.shift_tupleMethod]
    exact .ofWork (TupleMethods.shifts_apply m items args keywords)
  | dictMethod ref m => exact .ofWork (DictMethods.shifts_apply m ref args keywords)
  | strMethod text m => exact .ofWork (TextMethods.shifts_apply m text args keywords)
  | streamMethod s m => exact .ofWork (shifts_streamMethod s m args keywords)
  | type t => exact .ofWork (Construct.shifts_apply t args keywords)
  | _ => exact fun _ => .inr rfl

theorem shifts_barredValue {function copy : FunctionCaller} (functions : ShiftFunctions left clock function copy) :
    ShiftCalls left clock (barredValue function) (value copy) :=
  shifts_barredWith functions fun key item =>
    shifts_barredWith functions (fun _ _ => .done rfl) key [item] []

/-! The parameters of a function are bound to the same arguments. -/

theorem fillSlot_shift (code : Code) (slots : Array (Option Value)) (key : String) (v : Value) :
    fillSlot code (slots.map (·.map (Value.shift left))) key (v.shift left)
      = (fillSlot code slots key v).map (·.map (·.map (Value.shift left))) := by
  unfold fillSlot
  cases code.params.findIdx? (·.name == key) with
  | none => rfl
  | some i =>
    simp only [Array.getElem?_map]
    rcases slots[i]? with _ | _ | _
    · rfl
    · exact congrArg Except.ok (by simp [Array.map_setIfInBounds])
    · rfl

theorem fillSlots_shift (code : Code) (slots : Array (Option Value)) (keywords : Keywords) :
    fillSlots code (slots.map (·.map (Value.shift left))) (keywords.map (shiftKeyword left))
      = (fillSlots code slots keywords).map (·.map (·.map (Value.shift left))) := by
  induction keywords generalizing slots with
  | nil => rfl
  | cons keyword rest ih =>
    simp only [List.map_cons, shiftKeyword, fillSlots, fillSlot_shift]
    cases fillSlot code slots keyword.1 keyword.2 with
    | error e => rfl
    | ok slots => exact ih slots

theorem settle_shift (params : List Param) (slots defaults : List (Option Value)) :
    settle params (slots.map (·.map (Value.shift left))) (defaults.map (·.map (Value.shift left)))
      = ((settle params slots defaults).1.shift left, (settle params slots defaults).2) := by
  induction params generalizing slots defaults with
  | nil => rfl
  | cons param params ih =>
    cases slots with
    | nil => rfl
    | cons slot slots =>
      cases defaults with
      | nil => rfl
      | cons default defaults =>
        simp only [List.map_cons, settle, ih, ← Option.map_or]
        cases slot.or default <;> rfl

theorem bindArguments_shift (code : Code) (defaults : List (Option Value)) (args : List Value)
    (keywords : Keywords) :
    bindArguments code (defaults.map (·.map (Value.shift left))) (args.map (Value.shift left))
        (keywords.map (shiftKeyword left))
      = (bindArguments code defaults args keywords).map (Namespace.shift left) := by
  have slots (n : Nat) : ((args.map (Value.shift left)).map some).toArray ++ Array.replicate n none
      = ((args.map some).toArray ++ Array.replicate n none).map (Option.map (Value.shift left)) := by
    simp [Function.comp_def]
  simp only [bindArguments, List.length_map, slots, fillSlots_shift]
  split
  · rfl
  · generalize fillSlots code _ keywords = filled
    cases filled with
    | error e => rfl
    | ok slots =>
      have settled : settle code.params (slots.map (Option.map (Value.shift left))).toList _ = _ :=
        (congrArg (settle code.params · _) Array.toList_map).trans (settle_shift code.params slots.toList defaults)
      simp only [Bind.bind, Except.bind, Except.map, settled]
      rcases settle code.params slots.toList defaults with ⟨locals, _ | ⟨name, more⟩⟩ <;> rfl

theorem shifts_barredFunction (turns room : Nat) :
    ShiftFunctions left clock (barredFunction turns room) (function turns room) := by
  induction room with
  | zero => exact fun _ _ _ _ => .ofWork (.raise _ _)
  | succ room ih =>
    intro ref defaults args keywords
    simp only [barredFunction, function]
    apply Shifts.look
    intro m
    have found : (m.shift left clock).heap.code (left.codes.size + ref) = m.heap.code ref := m.heap.code_behind left ref
    rw [found, bindArguments_shift]
    apply (Shifts.ofWork (.ofExcept rfl)).andThen
    intro locals
    apply (Shifts.inFrame _ (Exec.shifts_block (shifts_barredValue ih) turns _)).andThen
    intro flow
    cases flow <;> exact .done rfl

end Call

/-- `Run.program`, with the calls barred that tell the time or let it pass. -/
def Run.barred (limits : Limits) (body : List Stmt) : Run Unit := do
  let _ ← Exec.block ⟨Call.barredValue (Call.barredFunction limits.turns limits.depth), limits.turns⟩ body

/-- Behind what was left, and at another time, a program does what it does here, unless it comes to a barred call. -/
theorem Run.shifts_program (left : Heap) (clock : Clock) (limits : Limits) (body : List Stmt) :
    Shifts left clock id (Run.barred limits body) (Run.program limits body) :=
  (Exec.shifts_block (Call.shifts_barredValue (Call.shifts_barredFunction _ _)) _ body).andThen fun _ => .done rfl

end SnippetKernel
