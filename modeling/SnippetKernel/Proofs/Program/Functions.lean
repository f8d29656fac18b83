import SnippetKernel.Proofs.Program.Library

/-! Types and functions, called, stay within a region too, and sorting makes no new items. -/
namespace SnippetKernel

open Work Arguments DictMethods

variable {R : Region} {args : List Value} {keywords : Keywords}

/-! ### Sorting -/

namespace Keyed

variable {before : Keyed → Keyed → Except Exception Bool}

theorem perm_insertLast {x : Keyed} {items sorted : List Keyed} (done : insertLast before x items = .ok sorted) :
    sorted.Perm (x :: items) := by
  induction items generalizing sorted with
  | nil =>
    cases done
    exact .refl _
  | cons last rest ih =>
    obtain ⟨first, -, done⟩ := Value.ok_of_bind done
    cases first with
    | false =>
      cases done
      exact .refl _
    | true =>
      obtain ⟨more, inserted, done⟩ := Value.ok_of_bind done
      cases done
      exact ((ih inserted).cons last).trans (.swap x last rest)

theorem perm_sortByInsertion {items sorted : List Keyed} (done : sortByInsertion before items = .ok sorted) :
    sorted.Perm items := by
  have all (items start : List Keyed) (result : List Keyed)
      (folded : items.foldlM (fun sorted x => insertLast before x sorted) start = .ok result) :
      result.Perm (items ++ start) := by
    induction items generalizing start with
    | nil =>
      cases folded
      exact .refl _
    | cons x rest ih =>
      obtain ⟨next, inserted, folded⟩ := Value.ok_of_bind folded
      have placed := (perm_insertLast inserted).append_left rest
      exact (ih next folded).trans (placed.trans List.perm_middle)
  obtain ⟨reversed, folded, done⟩ := Value.ok_of_bind done
  cases done
  exact (List.reverse_perm _).trans (by simpa using all items [] reversed folded)

theorem perm_merge {done xs ys sorted : List Keyed} (merged : merge before done xs ys = .ok sorted) :
    sorted.Perm (done ++ (xs ++ ys)) := by
  fun_induction merge before done xs ys with
  | case1 done ys =>
    cases merged
    rw [List.reverseAux_eq]
    exact (List.reverse_perm done).append_right ys
  | case2 done xs _ =>
    cases merged
    rw [List.reverseAux_eq, List.append_nil]
    exact (List.reverse_perm done).append_right xs
  | case3 done x xs y ys ih₁ ih₂ =>
    obtain ⟨second, -, merged⟩ := Value.ok_of_bind merged
    cases second with
    | true =>
      apply (ih₁ merged).trans
      have moved : (y :: (x :: xs ++ ys)).Perm (x :: xs ++ y :: ys) := List.perm_middle.symm
      exact List.perm_middle.symm.trans (moved.append_left done)
    | false =>
      apply (ih₂ merged).trans
      exact List.perm_middle.symm

/-- Sorting puts the items in another order. -/
theorem perm_sort {items sorted : List Keyed} (done : sort before items = .ok sorted) : sorted.Perm items := by
  fun_induction sort before items generalizing sorted with
  | case1 items short => exact perm_sortByInsertion done
  | case2 items long half front_ih =>
    rename_i back_ih
    obtain ⟨front, sorted_front, done⟩ := Value.ok_of_bind done
    obtain ⟨back, sorted_back, merged⟩ := Value.ok_of_bind done
    have halves := (front_ih sorted_front).append (back_ih sorted_back)
    rw [List.take_append_drop] at halves
    exact (perm_merge merged).trans halves

end Keyed

/-! ### Types -/

namespace Construct

@[simp] theorem stays_toInt (args : List Value) (keywords : Keywords) :
    Stays R (Value.Within R) (toInt args keywords) := by
  unfold toInt
  apply Stays.before (stays_noKeywords _ _)
  intro _
  apply Stays.before (stays_arity _ _ _ _)
  intro _
  extract_lets convert
  have converted (base : Option Int64) : Stays R (Value.Within R) (convert base) := by
    unfold convert
    split
    · simp
    · simp
    · simp
    · simp
    · split <;> simp
  split
  · apply Stays.before (stays_int _ _)
    intro base
    exact converted _
  · exact converted _

@[simp] theorem stays_toFloat (args : List Value) : Stays R (Value.Within R) (toFloat args) := by
  unfold toFloat
  split
  · simp
  · simp
  · split <;> simp

theorem stays_toTuple (inside : ∀ v ∈ args, v.Within R) : Stays R (Value.Within R) (toTuple args) := by
  unfold toTuple
  split
  · exact .onHeap (HeapM.stays_newTuple (List.forall_mem_nil _))
  · exact .done (inside _ List.mem_cons_self)
  · next v rest _ =>
    apply (Stays.items (inside v List.mem_cons_self)).andThen
    intro items items_within
    exact .onHeap (HeapM.stays_newTuple items_within)

theorem stays_insert {d : Dict} (d_within : d.Within R) {key value : Value} (key_within : key.Within R)
    (value_within : value.Within R) : Stays R (Dict.Within R) (Work.ofExcept (d.insert key value)) :=
  .ofExcept fun _ inserted => d_within.insert key_within value_within inserted

theorem stays_insertPairs (i : Nat) {d : Dict} (d_within : d.Within R) {items : List Value}
    (inside : ∀ v ∈ items, v.Within R) : Stays R (Dict.Within R) (insertPairs i d items) := by
  induction items generalizing i d with
  | nil => exact .done d_within
  | cons pair rest ih =>
    rw [List.forall_mem_cons] at inside
    apply (Stays.items inside.1).andThen
    intro both both_within
    split
    · simp only [List.forall_mem_cons] at both_within
      apply (stays_insert d_within both_within.1 both_within.2.1).andThen
      intro d d_within
      exact ih _ d_within inside.2
    · exact .fail _

theorem stays_insertEntries {d : Dict} (d_within : d.Within R) {entries : List (Value × Value)}
    (inside : EntriesWithin R entries) : Stays R (Dict.Within R) (insertEntries d entries) := by
  induction entries generalizing d with
  | nil => exact .done d_within
  | cons entry rest ih =>
    obtain ⟨first, others⟩ := List.forall_mem_cons.1 inside
    apply (stays_insert d_within first.1 first.2).andThen
    intro d d_within
    exact ih d_within others

theorem stays_toDict (inside : ∀ v ∈ args, v.Within R) (named : KeywordsWithin R keywords) :
    Stays R (Value.Within R) (toDict args keywords) := by
  unfold toDict
  apply Stays.before (stays_arity _ _ _ _)
  intro _
  extract_lets complete
  have add {d : Dict} (d_within : d.Within R) : Stays R (Value.Within R) (complete d) := by
    apply (stays_insertEntries d_within (entriesWithin_keywords named)).andThen
    intro d d_within
    exact .onHeap (HeapM.stays_newDict d_within)
  split
  · exact add Dict.within_empty
  · next ref rest =>
    have source : R.dicts ref := by simpa only [Value.Within] using inside _ List.mem_cons_self
    apply (stays_entries source).andThen
    intro entries entries_within
    apply (stays_insertEntries Dict.within_empty entries_within).andThen
    intro d d_within
    exact add d_within
  · next v rest _ =>
    apply (Stays.items (inside v List.mem_cons_self)).andThen
    intro items items_within
    apply (stays_insertPairs 0 Dict.within_empty items_within).andThen
    intro d d_within
    exact add d_within

@[simp] theorem stays_ints (args : List Value) : Stays R (fun _ => True) (ints args) := by
  induction args with
  | nil => simp [ints]
  | cons v rest ih =>
    unfold ints
    split <;> simp [ih]

@[simp] theorem stays_toRange (args : List Value) : Stays R (Value.Within R) (toRange args) := by
  unfold toRange
  apply Stays.before (stays_arity _ _ _ _)
  intro _
  apply Stays.before (stays_ints _)
  intro bounds
  apply Stays.checked (.raise _ _)
  simp

@[simp] theorem stays_exceptionMessage (args : List Value) : Stays R (fun _ => True) (exceptionMessage args) := by
  unfold exceptionMessage
  split <;> simp

theorem stays_apply (t : ValueType) (inside : ∀ v ∈ args, v.Within R) (named : KeywordsWithin R keywords) :
    Stays R (Value.Within R) (Construct.apply t args keywords) := by
  have single {next : Unit → Work Value} (rest : Stays R (Value.Within R) (next ())) :
      Stays R (Value.Within R) ((do noKeywords t.text keywords; arity t.text args 0 (some 1)) >>= next) := by
    apply Stays.before
    · simp
    · intro _
      exact rest
  unfold Construct.apply
  cases t with
  | int => simp
  | float =>
    apply single
    simp
  | str =>
    apply single
    split <;> simp
  | bool =>
    apply single
    split <;> simp
  | list =>
    apply single
    split
    · exact .onHeap (HeapM.stays_newList (List.forall_mem_nil _))
    · next v rest =>
      apply (Stays.items (inside v List.mem_cons_self)).andThen
      intro items items_within
      exact .onHeap (HeapM.stays_newList items_within)
  | tuple =>
    apply single
    exact stays_toTuple inside
  | dict => exact stays_toDict inside named
  | range => simp
  | exception kind =>
    apply Stays.before (stays_noKeywords _ _)
    intro _
    apply Stays.before (stays_exceptionMessage _)
    intro message
    exact .onHeap (HeapM.stays_newException _)
  | _ => simp

end Construct

/-! ### Functions -/

namespace Builtins

@[simp] theorem stays_textKeyword (name key : String) (keywords : Keywords) (default : String) :
    Stays R (fun _ => True) (textKeyword name key keywords default) := by
  unfold textKeyword
  simp only
  split <;> simp

@[simp] theorem stays_displays (args : List Value) : Stays R (fun _ => True) (displays args) := by
  induction args with
  | nil => simp [displays]
  | cons v rest ih => simp [displays, ih]

@[simp] theorem stays_print (args : List Value) (keywords : Keywords) :
    Stays R (Value.Within R) (print args keywords) := by
  have written (separator ending : String) (keywords : Keywords) (stream : Stream) :
      Stays R (Value.Within R) (do
        noKeywords "print" keywords
        let pieces ← displays args
        Work.write stream (String.ofList (Text.join separator.toList pieces) ++ ending)
        return .none : Work Value) := by
    apply Stays.before (stays_noKeywords _ _)
    intro _
    apply Stays.before (stays_displays _)
    simp
  unfold print
  apply Stays.before (stays_textKeyword _ _ _ _)
  intro separator
  apply Stays.before (stays_textKeyword _ _ _ _)
  intro ending
  simp only
  split
  · exact written _ _ _ _
  · exact written _ _ _ _
  · exact written _ _ _ _
  · apply Stays.before (.ofExcept_any _)
    intro stream
    exact written _ _ _ _

@[simp] theorem stays_len (v : Value) : Stays R (Value.Within R) (len v) := by
  unfold len
  cases v <;> simp

@[simp] theorem stays_abs (v : Value) : Stays R (Value.Within R) (abs v) := by
  unfold abs
  split
  · simp
  · split <;> simp
  · simp

theorem stays_candidates (inside : ∀ v ∈ args, v.Within R) :
    Stays R (fun items => ∀ v ∈ items, v.Within R) (candidates args) := by
  unfold candidates
  split
  · next v => exact .items (inside v List.mem_cons_self)
  · exact .done inside

theorem stays_addAll {total : Value} (total_within : total.Within R) (inside : ∀ v ∈ args, v.Within R) :
    Stays R (Value.Within R) (addAll total args) := by
  induction args generalizing total with
  | nil => exact .done total_within
  | cons v rest ih =>
    rw [List.forall_mem_cons] at inside
    apply (Stays.onHeap (Value.stays_binary .add total_within inside.1)).andThen
    intro total total_within
    exact ih total_within inside.2

theorem stays_sum (inside : ∀ v ∈ args, v.Within R) (named : KeywordsWithin R keywords) :
    Stays R (Value.Within R) (sum args keywords) := by
  have start := (within_take named "start").1
  have total : ((args.tail.head?.or (take "start" keywords).1).getD (.int 0)).Within R := by
    match args with
    | _ :: given :: _ => exact inside given (by simp)
    | [] | [_] =>
      simp only [List.tail_nil, List.tail_cons, List.head?_nil, Option.none_or]
      cases found : (take "start" keywords).1 with
      | none => simp
      | some v => exact start v found
  unfold sum
  apply Stays.before (stays_noKeywords _ _)
  intro _
  apply Stays.before (stays_arity _ _ _ _)
  intro _
  simp only
  split
  · exact .raiseTypeError _
  · apply (Stays.items (within_first inside)).andThen
    intro items items_within
    exact stays_addAll total items_within

@[simp] theorem stays_round (args : List Value) : Stays R (Value.Within R) (round args) := by
  unfold round
  apply Stays.before (stays_arity _ _ _ _)
  intro _
  extract_lets round
  have rounded (digits : Option Int64) : Stays R (Value.Within R) (round digits) := by
    unfold round
    split
    · simp
    · simp
    · split <;> simp
  split
  · exact rounded _
  · exact rounded _
  · apply Stays.before (stays_int _ _)
    intro digits
    exact rounded _

@[simp] theorem stays_isAny (actual : ValueType) (classes : List Value) :
    Stays R (fun _ => True) (isAny actual classes) := by
  induction classes with
  | nil => simp [isAny]
  | cons v rest ih => cases v <;> simp [isAny, ih]

@[simp] theorem stays_isinstance (args : List Value) : Stays R (Value.Within R) (isinstance args) := by
  simp [isinstance]

theorem stays_numbered (i : Int) (inside : ∀ v ∈ args, v.Within R) :
    Stays R (EntriesWithin R) (numbered i args) := by
  induction args generalizing i with
  | nil => exact .done (List.forall_mem_nil _)
  | cons v rest ih =>
    rw [List.forall_mem_cons] at inside
    unfold numbered
    split
    · apply (ih _ inside.2).andThen
      intro more more_within
      exact .done (List.forall_mem_cons.2 ⟨⟨Value.within_int _, inside.1⟩, more_within⟩)
    · exact .raise _ _

theorem stays_enumerate (inside : ∀ v ∈ args, v.Within R) :
    Stays R (Value.Within R) (enumerate args keywords) := by
  unfold enumerate
  dsimp -zeta only
  extract_lets pair place
  have paired (start : Int64) : Stays R (Value.Within R) (pair start) := by
    apply (Stays.items (within_first inside)).andThen
    intro items items_within
    apply (stays_numbered _ items_within).andThen
    intro entries entries_within
    apply Stays.onHeap
    apply Confined.andThen (HeapM.stays_newPairs entries_within)
    intro pairs pairs_within
    exact HeapM.stays_newList pairs_within
  have placed (start : Int64) : Stays R (Value.Within R) (place start) := by
    apply Stays.before (stays_noKeywords _ _)
    intro _
    apply Stays.before (stays_arity _ _ _ _)
    intro _
    split
    · apply Stays.before (stays_int _ _)
      intro start
      exact paired start
    · exact paired start
  split
  · apply Stays.before (stays_int _ _)
    intro start
    exact placed start
  · exact placed 0

theorem stays_columns (inside : ∀ v ∈ args, v.Within R) :
    Stays R (fun columns => ∀ column ∈ columns, ∀ v ∈ column, v.Within R) (columns args) := by
  induction args with
  | nil => exact .done (List.forall_mem_nil _)
  | cons v rest ih =>
    rw [List.forall_mem_cons] at inside
    apply (Stays.items inside.1).andThen
    intro column column_within
    apply (ih inside.2).andThen
    intro more more_within
    exact .done (List.forall_mem_cons.2 ⟨column_within, more_within⟩)

theorem within_rows {columns : List (Array Value)} (inside : ∀ column ∈ columns, ∀ v ∈ column, v.Within R) :
    ∀ row ∈ rows columns, ∀ v ∈ row, v.Within R := by
  intro row mem v among
  unfold rows at mem
  split at mem
  · cases mem
  · obtain ⟨i, -, rfl⟩ := List.mem_map.1 mem
    obtain ⟨column, listed, stored⟩ := List.mem_filterMap.1 among
    exact inside column listed v (Array.mem_of_getElem? stored)

theorem stays_newTuples {rows : List (List Value)} (inside : ∀ row ∈ rows, ∀ v ∈ row, v.Within R) :
    HeapM.Stays R (fun items => ∀ v ∈ items, v.Within R) (newTuples rows) := by
  induction rows with
  | nil => exact .done (List.forall_mem_nil _)
  | cons row rest ih =>
    rw [List.forall_mem_cons] at inside
    apply (HeapM.stays_newTuple inside.1).andThen
    intro tuple tuple_within
    apply (ih inside.2).andThen
    intro more more_within
    exact .done (List.forall_mem_cons.2 ⟨tuple_within, more_within⟩)

theorem stays_zip (inside : ∀ v ∈ args, v.Within R) : Stays R (Value.Within R) (zip args) := by
  apply (stays_columns inside).andThen
  intro columns columns_within
  apply Stays.onHeap
  apply Confined.andThen
  · apply stays_newTuples
    apply within_rows
    simpa using columns_within
  · intro tuples tuples_within
    exact HeapM.stays_newList tuples_within

@[simp] theorem stays_truths (items : List Value) : Stays R (fun _ => True) (truths items) := by
  induction items with
  | nil => simp [truths]
  | cons v rest ih => simp [truths, ih]

@[simp] theorem stays_chr (v : Value) : Stays R (Value.Within R) (chr v) := by
  apply Stays.before (stays_int _ _)
  intro code
  split <;> simp [Value.charText]

@[simp] theorem stays_ord (v : Value) : Stays R (Value.Within R) (ord v) := by
  apply Stays.before (stays_text _ _)
  intro s
  split <;> simp

theorem stays_divmod {a b : Value} (left : a.Within R) (right : b.Within R) :
    Stays R (Value.Within R) (divmod a b) := by
  apply (Stays.onHeap (Value.stays_binary _ left right)).andThen
  intro q q_within
  apply (Stays.onHeap (Value.stays_binary _ left right)).andThen
  intro r r_within
  apply Stays.onHeap
  apply HeapM.stays_newTuple
  simp [q_within, r_within]

@[simp] theorem stays_builtin_format (args : List Value) : Stays R (Value.Within R) (Builtins.format args) := by
  unfold Builtins.format
  apply Stays.before (stays_arity _ _ _ _)
  intro _
  split <;> simp

@[simp] theorem stays_onNumber (name : String) (args : List Value) {f : Double → Work Double}
    (computed : ∀ d, Stays R (fun _ => True) (f d)) : Stays R (Value.Within R) (onNumber name args f) := by
  apply Stays.before (stays_exactly _ _ _)
  intro _
  apply Stays.before (stays_number _ _)
  intro d
  simp [computed]

@[simp] theorem stays_rounding (name : String) (round : Double → Double) (args : List Value) :
    Stays R (Value.Within R) (rounding name round args) := by
  apply Stays.before (stays_exactly _ _ _)
  intro _
  split <;> simp

@[simp] theorem stays_log (args : List Value) : Stays R (Value.Within R) (log args) := by
  unfold log
  apply Stays.before (stays_arity _ _ _ _)
  intro _
  apply Stays.before (stays_number _ _)
  intro d
  apply Stays.checked (.raise _ _)
  intro _
  split
  · simp
  · apply Stays.before (stays_number _ _)
    intro base
    apply Stays.checked (.raise _ _)
    simp

@[simp] theorem stays_sleep (args : List Value) : Stays R (Value.Within R) (sleep args) := by
  unfold sleep
  apply Stays.before (stays_exactly _ _ _)
  intro _
  apply Stays.before (stays_number _ _)
  intro seconds
  apply Stays.checked (.raise _ _)
  intro _
  apply Stays.checked (.fail _)
  intro _
  apply Stays.before
  · intro r begins
    exact ⟨trivial, begins⟩
  · simp

theorem stays_single (name : String) (inside : ∀ v ∈ args, v.Within R) {f : Value → Work Value}
    (inner : ∀ v, v.Within R → Stays R (Value.Within R) (f v)) :
    Stays R (Value.Within R) (single name args keywords f) := by
  apply Stays.before (stays_noKeywords _ _)
  intro _
  apply Stays.before (stays_exactly _ _ _)
  intro _
  exact inner _ (within_first inside)

/-- What a name means that the program has not bound is within every region. -/
theorem within_global? {name : String} {v : Value} (found : global? name = some v) : v.Within R := by
  unfold global? at found
  simp only at found
  split at found
  · cases found
    simp
  · split at found
    · cases found
      simp
    · obtain ⟨kind, -, rfl⟩ := Option.map_eq_some_iff.1 found
      simp

theorem within_moduleAttribute? {m : Module} {name : String} {v : Value}
    (found : moduleAttribute? m name = some v) : v.Within R := by
  unfold moduleAttribute? at found
  split at found <;> cases found <;> simp [Value.Within]

/-- A method refers to what its value refers to. -/
theorem within_method? {v method : Value} (here : v.Within R) {name : String}
    (found : method? v name = some method) : method.Within R := by
  unfold method? at found
  split at found
  case h_4 | h_5 =>
    obtain ⟨m, -, rfl⟩ := Option.map_eq_some_iff.1 found
    simp [Value.Within]
  case h_6 => cases found
  all_goals
    obtain ⟨m, -, rfl⟩ := Option.map_eq_some_iff.1 found
    simpa only [Value.Within] using here

end Builtins

/-! ### Calls -/

namespace Call

theorem stays_streamMethod (s : Stream) (m : StreamMethod) (args : List Value) (keywords : Keywords) :
    Stays R (Value.Within R) (streamMethod s m args keywords) := by
  unfold streamMethod
  cases m with
  | flush => simp
  | write =>
    apply Stays.before (stays_noKeywords _ _)
    intro _
    apply Stays.before (stays_exactly _ _ _)
    intro _
    split
    · apply Stays.before (.write _ _)
      simp
    · exact .raiseTypeError _

/-- The values in the slots are within the region. -/
def SlotsWithin (R : Region) (slots : Array (Option Value)) : Prop := ∀ v, some v ∈ slots → v.Within R

theorem within_fillSlot {code : Code} {slots filled : Array (Option Value)} {key : String} {v : Value}
    (slots_within : SlotsWithin R slots) (v_within : v.Within R) (put : fillSlot code slots key v = .ok filled) :
    SlotsWithin R filled := by
  unfold fillSlot at put
  split at put
  · cases put
  · split at put
    · cases put
      intro w mem
      obtain old | same := Array.mem_or_eq_of_mem_setIfInBounds mem
      · exact slots_within w old
      · cases same
        exact v_within
    · cases put

theorem within_fillSlots {code : Code} {slots filled : Array (Option Value)} (slots_within : SlotsWithin R slots)
    (named : KeywordsWithin R keywords) (put : fillSlots code slots keywords = .ok filled) :
    SlotsWithin R filled := by
  induction keywords generalizing slots with
  | nil =>
    cases put
    exact slots_within
  | cons entry rest ih =>
    obtain ⟨first, others⟩ := List.forall_mem_cons.1 named
    obtain ⟨next, one, put⟩ := Value.ok_of_bind put
    exact ih (within_fillSlot slots_within first one) others put

theorem within_settle (params : List Source.Param) {slots defaults : List (Option Value)}
    (slots_within : ∀ v, some v ∈ slots → v.Within R) (defaults_within : ∀ v, some v ∈ defaults → v.Within R) :
    (settle params slots defaults).1.Within R := by
  induction params generalizing slots defaults with
  | nil => exact List.forall_mem_nil _
  | cons param params ih =>
    match slots, defaults with
    | [], _ => exact List.forall_mem_nil _
    | _ :: _, [] => exact List.forall_mem_nil _
    | slot :: slots, default :: defaults =>
      have rest := ih (fun v mem => slots_within v (.tail _ mem)) fun v mem => defaults_within v (.tail _ mem)
      simp only [settle]
      split
      · next v chosen =>
        intro entry mem
        obtain rfl | mem := List.mem_cons.1 mem
        · obtain rfl | ⟨-, rfl⟩ := Option.or_eq_some_iff.1 chosen
          · exact slots_within v List.mem_cons_self
          · exact defaults_within v List.mem_cons_self
        · exact rest entry mem
      · exact rest

/-- The parameters of a function are bound to what the call or the function brings along. -/
theorem within_bindArguments {code : Code} {defaults : List (Option Value)} {locals : Namespace Value}
    (defaults_within : ∀ v, some v ∈ defaults → v.Within R) (inside : ∀ v ∈ args, v.Within R)
    (named : KeywordsWithin R keywords) (bound : bindArguments code defaults args keywords = .ok locals) :
    locals.Within R := by
  have given : SlotsWithin R ((args.map some).toArray ++ Array.replicate (code.params.length - args.length) none) := by
    intro v mem
    obtain mem | mem := Array.mem_append.1 mem
    · exact inside v (by simpa using mem)
    · simp at mem
  unfold bindArguments at bound
  simp only at bound
  split at bound
  · cases bound
  · obtain ⟨slots, filled, bound⟩ := Value.ok_of_bind bound
    have slots_within := within_fillSlots given named filled
    have listed : ∀ v, some v ∈ slots.toList → v.Within R := by simpa [SlotsWithin] using slots_within
    split at bound
    · next result =>
      cases bound
      have settled := within_settle code.params listed defaults_within
      rwa [result] at settled
    · cases bound

end Call

/-! ### Attributes and targets -/

namespace Work

theorem stays_getAttr {v : Value} (here : v.Within R) (name : String) :
    Stays R (Value.Within R) (getAttr v name) := by
  unfold getAttr
  split
  · split
    · next found => exact .done (Builtins.within_moduleAttribute? found)
    · exact .raise _ _
  · apply Stays.onHeap
    apply HeapM.stays_newTuple
    split <;> simp
  · split
    · next found => exact .done (Builtins.within_method? here found)
    · exact .fail _

@[simp] theorem stays_refuseAttribute (v : Value) (name : String) :
    Stays R (fun _ => True) (refuseAttribute v name) := .raise _ _

@[simp] theorem stays_bound (v : Value) : Stays R (fun _ => True) (Work.bound v) := by
  unfold Work.bound
  split <;> simp

theorem stays_unpack {v : Value} (here : v.Within R) (targets : Nat) :
    Stays R (fun items => ∀ w ∈ items, w.Within R) (unpack v targets) := by
  apply (Stays.items here).andThen
  intro items items_within
  apply Stays.choose (.raise _ _)
  exact .choose (.raise _ _) (.done items_within)

end Work

end SnippetKernel
