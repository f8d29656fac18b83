import SnippetKernel.Proofs.Program.ShiftedMethods

/-! The types, called, and the functions that are always there, do the same behind what was left on the heap. The
functions that tell the time, or let it pass, are left out here. -/
namespace SnippetKernel

open Work Arguments

variable {left : Heap} {clock : Clock}

namespace Construct

theorem shifts_toInt (args : List Value) (keywords : Keywords) :
    Shifts left clock (Value.shift left) (toInt args keywords)
      (toInt (args.map (Value.shift left)) (keywords.map (shiftKeyword left))) := by
  simp -zeta only [toInt, take_shift]
  apply unnamed
  apply (shifts_arity _ _ _ _).before
  intro _
  extract_lets convert convert'
  have converted (base : Option Int64) : Shifts left clock (Value.shift left) (convert base) (convert' base) := by
    cases args with
    | nil => exact .done_value rfl
    | cons v rest =>
      cases v with
      | str text => exact (Shifts.ofExcept_id _).before fun _ => .done_value rfl
      | float d =>
        cases base with
        | none => exact (Shifts.ofExcept_id _).before fun _ => .done_value rfl
        | some base => exact .raiseTypeError _
      | bool b =>
        cases base with
        | none => exact .done_value rfl
        | some base => exact .raiseTypeError _
      | int i =>
        cases base with
        | none => exact .done_value rfl
        | some base => exact .raiseTypeError _
      | _ => cases base <;> exact .raiseTypeError _
  have base : ((args.map (Value.shift left)).tail.head?.or ((take "base" keywords).1.map (Value.shift left)))
      = (args.tail.head?.or (take "base" keywords).1).map (Value.shift left) := by
    rw [← List.map_tail, List.head?_map]
    cases args.tail.head? <;> rfl
  rw [base]
  cases args.tail.head?.or (take "base" keywords).1 with
  | none => exact converted none
  | some v => exact (shifts_int _ v).before fun i => converted (some i)

theorem shifts_toFloat (args : List Value) :
    Shifts left clock (Value.shift left) (toFloat args) (toFloat (args.map (Value.shift left))) := by
  cases args with
  | nil => exact .done_value (Value.shift_float _).symm
  | cons v rest =>
    cases v with
    | str text =>
      simp only [List.map_cons, Value.shift_str, toFloat]
      generalize parseFloat text = found
      exact (Shifts.ofExcept_id _).before fun _ => .done_value rfl
    | float | int | bool => exact .done_value (Value.shift_float _).symm
    | _ => exact .raiseTypeError _

theorem shifts_toTuple (args : List Value) :
    Shifts left clock (Value.shift left) (toTuple args) (toTuple (args.map (Value.shift left))) := by
  cases args with
  | nil => exact .onHeap (HeapM.shifts_newTuple [])
  | cons v rest =>
    have others : Shifts left clock (Value.shift left)
        (Work.items v >>= fun items => Work.onHeap (HeapM.newTuple items))
        (Work.items (v.shift left) >>= fun items => Work.onHeap (HeapM.newTuple items)) :=
      (Shifts.items v).andThen fun items => .onHeap (HeapM.shifts_newTuple items)
    cases v with
    | tuple id items => exact .done_value rfl
    | _ => exact others

theorem shifts_insertPairs (i : Nat) (d : Dict) (items : List Value) :
    Shifts left clock (Dict.shift left) (insertPairs i d items)
      (insertPairs i (d.shift left) (items.map (Value.shift left))) := by
  induction items generalizing i d with
  | nil => exact Follows.done rfl
  | cons pair rest ih =>
    apply (Shifts.items pair).andThen
    intro entry
    have refused (n : Nat) : Shifts left clock (Dict.shift left)
        (Work.ofExcept (.error (.valueError ("dictionary update sequence element #" ++ toString i
          ++ " has length " ++ toString n ++ "; 2 is required"))))
        (Work.ofExcept (.error (.valueError ("dictionary update sequence element #" ++ toString i
          ++ " has length " ++ toString n ++ "; 2 is required")))) := .fail _
    match entry with
    | [] => exact refused _
    | [_] => exact refused _
    | [key, value] => exact (Shifts.ofExcept (d.insert_shift key value)).andThen fun d => ih _ d
    | _ :: _ :: _ :: rest =>
      have same := refused (rest.length + 3)
      simpa using same

theorem shifts_insertEntries (d : Dict) (entries : List (Value × Value)) :
    Shifts left clock (Dict.shift left) (insertEntries d entries)
      (insertEntries (d.shift left) (entries.map (shiftEntry left))) := by
  induction entries generalizing d with
  | nil => exact Follows.done rfl
  | cons entry rest ih => exact (Shifts.ofExcept (d.insert_shift entry.1 entry.2)).andThen fun d => ih d

theorem shifts_toDict (args : List Value) (keywords : Keywords) :
    Shifts left clock (Value.shift left) (toDict args keywords)
      (toDict (args.map (Value.shift left)) (keywords.map (shiftKeyword left))) := by
  unfold toDict
  apply (shifts_arity _ _ _ _).before
  intro _
  extract_lets complete complete'
  have named : (keywords.map (shiftKeyword left)).map (fun keyword => (Value.str keyword.1, keyword.2))
      = (keywords.map fun keyword => (Value.str keyword.1, keyword.2)).map (shiftEntry left) := by
    simp only [List.map_map]
    rfl
  have completed (d : Dict) : Shifts left clock (Value.shift left) (complete d) (complete' (d.shift left)) := by
    unfold complete complete'
    rw [named]
    exact (shifts_insertEntries d _).andThen fun d => .onHeap (HeapM.shifts_newDict d)
  cases args with
  | nil =>
    have empty := completed .empty
    rw [Dict.shift_empty] at empty
    exact empty
  | cons v rest =>
    have others : Shifts left clock (Value.shift left)
        (Work.items v >>= fun items => insertPairs 0 .empty items >>= complete)
        (Work.items (v.shift left) >>= fun items => insertPairs 0 .empty items >>= complete') := by
      apply (Shifts.items v).andThen
      intro items
      have pairs : Shifts left clock _ _ _ := shifts_insertPairs 0 .empty items
      rw [Dict.shift_empty] at pairs
      exact pairs.andThen fun d => completed d
    cases v with
    | dict ref =>
      have held : Shifts left clock (List.map (shiftEntry left)) (Work.reading fun h => (h.dict ref).toList)
          (Work.reading fun h => (h.dict (left.dicts.size + ref)).toList) := .reading fun h => by simp
      apply held.andThen
      intro entries
      have copied : Shifts left clock _ _ _ := shifts_insertEntries .empty entries
      rw [Dict.shift_empty] at copied
      exact copied.andThen fun d => completed d
    | _ => exact others

theorem shifts_ints (args : List Value) :
    Shifts left clock id (ints args) (ints (args.map (Value.shift left))) := by
  induction args with
  | nil => exact .done _
  | cons v rest ih =>
    simp only [List.map_cons, ints, Value.int?_shift, Value.typeName_shift]
    cases v.int? with
    | some i => exact ih.before fun _ => .done _
    | none => exact .raiseTypeError _

theorem shifts_toRange (args : List Value) :
    Shifts left clock (Value.shift left) (toRange args) (toRange (args.map (Value.shift left))) := by
  apply (shifts_arity _ _ _ _).before
  intro _
  apply (shifts_ints args).before
  intro bounds
  exact .choose (.raised _ _) (.done_value rfl)

theorem shifts_exceptionMessage (args : List Value) :
    Shifts left clock id (exceptionMessage args) (exceptionMessage (args.map (Value.shift left))) := by
  match args with
  | [] => exact .done _
  | [v] => exact .display v
  | v :: w :: rest =>
    have shown : Shifts left clock id (Work.repr (.tuple 0 (v :: w :: rest)))
        (Work.repr (.tuple 0 ((v :: w :: rest).map (Value.shift left)))) := by
      apply Shifts.reading
      intro h
      -- The number of a tuple is not shown.
      have same : (Value.shift left _).repr (h.shift left) = _ := Value.repr_shift (.tuple 0 (v :: w :: rest))
      rw [Value.shift_tuple] at same
      exact same
    exact shown

theorem shifts_apply (t : ValueType) (args : List Value) (keywords : Keywords) :
    Shifts left clock (Value.shift left) (Construct.apply t args keywords)
      (Construct.apply t (args.map (Value.shift left)) (keywords.map (shiftKeyword left))) := by
  have single (name : String) {next after : Work Value} (rest : Shifts left clock (Value.shift left) next after) :
      Shifts left clock (Value.shift left)
        ((noKeywords name keywords >>= fun _ => arity name args 0 (some 1)) >>= fun _ => next)
        ((noKeywords name (keywords.map (shiftKeyword left)) >>= fun _ =>
          arity name (args.map (Value.shift left)) 0 (some 1)) >>= fun _ => after) :=
    (unnamed _ _ (shifts_arity _ _ _ _)).before fun _ => rest
  cases t with
  | int => exact shifts_toInt args keywords
  | float => exact single _ (shifts_toFloat args)
  | str =>
    apply single
    cases args with
    | nil => exact .done_value rfl
    | cons v rest => exact (Shifts.display v).before fun _ => .done_value rfl
  | bool =>
    apply single
    cases args with
    | nil => exact .done_value rfl
    | cons v rest => exact (Shifts.truthy v).before fun _ => .done_value rfl
  | list =>
    apply single
    cases args with
    | nil => exact .onHeap (HeapM.shifts_newList [])
    | cons v rest => exact (Shifts.items v).andThen fun items => .onHeap (HeapM.shifts_newList items)
  | tuple => exact single _ (shifts_toTuple args)
  | dict => exact shifts_toDict args keywords
  | range => exact unnamed _ _ (shifts_toRange args)
  | exception kind =>
    apply unnamed
    exact (shifts_exceptionMessage args).before fun _ => .onHeap (HeapM.shifts_newException _)
  | _ => exact .raiseTypeError _

end Construct

namespace Builtins

theorem shifts_textKeyword (name key : String) (keywords : Keywords) (default : String) :
    Shifts left clock (fun given => (given.1, given.2.map (shiftKeyword left)))
      (textKeyword name key keywords default)
      (textKeyword name key (keywords.map (shiftKeyword left)) default) := by
  simp only [textKeyword, take_shift]
  cases (take key keywords).1 with
  | none => exact Follows.done rfl
  | some v =>
    have given : Shifts left clock (fun given : String × Keywords => (given.1, given.2.map (shiftKeyword left)))
        (text name v >>= fun text => pure (text, (take key keywords).2))
        (text name (v.shift left) >>= fun text => pure (text, (take key keywords).2.map (shiftKeyword left))) :=
      (shifts_text name v).before fun _ => Follows.done rfl
    cases v with
    | none => exact Follows.done rfl
    | _ => exact given

theorem shifts_displays (args : List Value) :
    Shifts left clock id (displays args) (displays (args.map (Value.shift left))) := by
  induction args with
  | nil => exact .done _
  | cons v rest ih => exact (Shifts.display v).before fun _ => ih.before fun _ => .done _

theorem shifts_print (args : List Value) (keywords : Keywords) :
    Shifts left clock (Value.shift left) (print args keywords)
      (print (args.map (Value.shift left)) (keywords.map (shiftKeyword left))) := by
  apply (shifts_textKeyword _ _ _ _).andThen
  intro (separator, keywords)
  apply (shifts_textKeyword _ _ _ _).andThen
  intro (ending, keywords)
  simp only [take_shift]
  have written (stream : Stream) : Shifts left clock (Value.shift left)
      (noKeywords "print" (take "flush" (take "file" keywords).2).2 >>= fun _ => displays args >>= fun pieces =>
        Work.write stream (String.ofList (Text.join separator.toList pieces) ++ ending) >>= fun _ => pure .none)
      (noKeywords "print" ((take "flush" (take "file" keywords).2).2.map (shiftKeyword left)) >>= fun _ =>
        displays (args.map (Value.shift left)) >>= fun pieces =>
        Work.write stream (String.ofList (Text.join separator.toList pieces) ++ ending) >>= fun _ => pure .none) := by
    apply unnamed
    apply (shifts_displays args).before
    intro pieces
    exact (Shifts.write _ _).before fun _ => .done_value rfl
  cases (take "file" keywords).1 with
  | none => exact written .out
  | some v =>
    cases v with
    | none => exact written .out
    | stream s => exact written s
    | _ => exact fun _ => .inr rfl

theorem shifts_len (v : Value) : Shifts left clock (Value.shift left) (len v) (len (v.shift left)) := by
  cases v with
  | str text => exact .done_value rfl
  | list ref => exact (Shifts.reading fun h => by simp).before fun _ => .done_value rfl
  | tuple id items =>
    simp only [Value.shift_tuple, len, List.length_map]
    exact .done_value rfl
  | dict ref => exact (Shifts.reading fun h => by simp).before fun _ => .done_value rfl
  | range r => exact .done_value rfl
  | _ => exact .raiseTypeError _

theorem shifts_abs (v : Value) : Shifts left clock (Value.shift left) (abs v) (abs (v.shift left)) := by
  cases v with
  | float d => exact .done_value (Value.shift_float _).symm
  | int i =>
    simp only [Value.shift_int, abs, Value.int?]
    cases narrow? i.toInt.natAbs with
    | some n => exact .done_value rfl
    | none => exact .raise _ _
  | bool b => cases b <;> exact .done_value rfl
  | _ => exact .raiseTypeError _

theorem shifts_candidates (args : List Value) :
    Shifts left clock (List.map (Value.shift left)) (candidates args)
      (candidates (args.map (Value.shift left))) := by
  match args with
  | [] => exact Follows.done rfl
  | [v] => exact .items v
  | v :: w :: rest => exact Follows.done rfl

theorem shifts_addAll (total : Value) (items : List Value) :
    Shifts left clock (Value.shift left) (addAll total items)
      (addAll (total.shift left) (items.map (Value.shift left))) := by
  induction items generalizing total with
  | nil => exact .done_value rfl
  | cons v rest ih => exact (Shifts.onHeap (Value.shifts_binary .add total v)).andThen fun total => ih total

theorem shifts_sum (args : List Value) (keywords : Keywords) :
    Shifts left clock (Value.shift left) (sum args keywords)
      (sum (args.map (Value.shift left)) (keywords.map (shiftKeyword left))) := by
  simp only [sum, take_shift, first_shift]
  apply unnamed
  apply (shifts_arity _ _ _ _).before
  intro _
  have start : ((args.map (Value.shift left)).tail.head?.or ((take "start" keywords).1.map (Value.shift left))).getD
        (.int 0) = ((args.tail.head?.or (take "start" keywords).1).getD (.int 0)).shift left := by
    rw [← List.map_tail, List.head?_map]
    cases args.tail.head? with
    | some v => rfl
    | none => cases (take "start" keywords).1 <;> rfl
  rw [start]
  generalize (args.tail.head?.or (take "start" keywords).1).getD (.int 0) = total
  have added : Shifts left clock (Value.shift left) (Work.items (first args) >>= fun items => addAll total items)
      (Work.items ((first args).shift left) >>= fun items => addAll (total.shift left) items) :=
    (Shifts.items _).andThen fun items => shifts_addAll total items
  cases total with
  | str text => exact .raiseTypeError _
  | _ => exact added

theorem shifts_round (args : List Value) :
    Shifts left clock (Value.shift left) (round args) (round (args.map (Value.shift left))) := by
  unfold round
  apply (shifts_arity _ _ _ _).before
  intro _
  simp -zeta only [first_shift, ← List.map_tail, List.head?_map]
  extract_lets round round'
  have rounded (digits : Option Int64) : Shifts left clock (Value.shift left) (round digits) (round' digits) := by
    unfold round round'
    cases first args with
    | float d =>
      cases digits with
      | none =>
        rw [Value.shift_float]
        generalize intOfDouble d.roundTiesEven = found
        exact (Shifts.ofExcept_id _).before fun _ => .done_value rfl
      | some digits => exact .done_value (Value.shift_float _).symm
    | int i => exact .done_value rfl
    | bool b => exact .done_value rfl
    | _ => exact .raiseTypeError _
  cases args.tail.head? with
  | none => exact rounded none
  | some v =>
    have given : Shifts left clock _ _ _ := (shifts_int "round" v).before fun digits => rounded (some digits)
    cases v with
    | none => exact rounded none
    | _ => exact given

theorem shifts_isAny (actual : ValueType) (classes : List Value) :
    Shifts left clock id (isAny actual classes) (isAny actual (classes.map (Value.shift left))) := by
  induction classes with
  | nil => exact .done _
  | cons v rest ih =>
    cases v with
    | type t => exact .choose (.done _) ih
    | _ => exact .raiseTypeError _

theorem shifts_isinstance (args : List Value) :
    Shifts left clock (Value.shift left) (isinstance args) (isinstance (args.map (Value.shift left))) := by
  simp only [isinstance, first_shift, second_shift, Value.valueType_shift]
  apply counted
  apply Shifts.map
  · cases second args with
    | tuple id items =>
      rw [Value.shift_tuple]
      exact shifts_isAny _ items
    | _ => exact shifts_isAny _ [_]
  · exact fun _ => rfl

theorem shifts_numbered (i : Int) (items : List Value) :
    Shifts left clock (List.map (shiftEntry left)) (numbered i items)
      (numbered i (items.map (Value.shift left))) := by
  induction items generalizing i with
  | nil => exact Follows.done rfl
  | cons v rest ih =>
    simp only [List.map_cons, numbered]
    cases narrow? i with
    | some n => exact (ih _).andThen fun _ => Follows.done rfl
    | none => exact .raise _ _

theorem shifts_enumerate (args : List Value) (keywords : Keywords) :
    Shifts left clock (Value.shift left) (enumerate args keywords)
      (enumerate (args.map (Value.shift left)) (keywords.map (shiftKeyword left))) := by
  have counting (start : Int64) : Shifts left clock (Value.shift left)
      (Work.items (first args) >>= fun items => numbered start.toInt items >>= fun entries =>
        Work.onHeap (HeapM.newPairs entries >>= fun pairs => HeapM.newList pairs))
      (Work.items ((first args).shift left) >>= fun items => numbered start.toInt items >>= fun entries =>
        Work.onHeap (HeapM.newPairs entries >>= fun pairs => HeapM.newList pairs)) := by
    apply (Shifts.items _).andThen
    intro items
    apply (shifts_numbered _ _).andThen
    intro entries
    exact .onHeap ((HeapM.shifts_newPairs entries).andThen fun pairs => HeapM.shifts_newList pairs)
  unfold enumerate
  simp only [take_shift, first_shift, ← List.map_tail, List.head?_map]
  cases args.tail.head? with
  | none =>
    cases (take "start" keywords).1 with
    | none => exact unnamed _ _ ((shifts_arity _ _ _ _).before fun _ => counting 0)
    | some v =>
      apply (shifts_int _ v).before
      intro start
      exact unnamed _ _ ((shifts_arity _ _ _ _).before fun _ => counting start)
  | some w =>
    have ends : Shifts left clock _ _ _ := (shifts_int "enumerate" w).before counting
    cases (take "start" keywords).1 with
    | none => exact unnamed _ _ ((shifts_arity _ _ _ _).before fun _ => ends)
    | some v =>
      apply (shifts_int _ v).before
      intro _
      exact unnamed _ _ ((shifts_arity _ _ _ _).before fun _ => ends)

theorem shifts_columns (args : List Value) :
    Shifts left clock (List.map (List.map (Value.shift left))) (columns args)
      (columns (args.map (Value.shift left))) := by
  induction args with
  | nil => exact Follows.done rfl
  | cons v rest ih => exact (Shifts.items v).andThen fun _ => ih.andThen fun _ => Follows.done rfl

theorem shifts_newTuples (rows : List (List Value)) :
    HeapM.Shifts left (List.map (Value.shift left)) (newTuples rows)
      (newTuples (rows.map (List.map (Value.shift left)))) := by
  induction rows with
  | nil => exact .done rfl
  | cons row rest ih => exact (HeapM.shifts_newTuple row).andThen fun _ => ih.andThen fun _ => .done rfl

theorem map_rows (f : Value → Value) (columns : List (Array Value)) :
    rows (columns.map (Array.map f)) = (rows columns).map (List.map f) := by
  have sizes : (columns.map (Array.map f)).map Array.size = columns.map Array.size := by
    simp only [List.map_map, Function.comp_def, Array.size_map]
  unfold rows
  rw [sizes]
  cases (columns.map Array.size).min? with
  | none => rfl
  | some n => simp [List.filterMap_map, List.map_filterMap, Function.comp_def]

theorem shifts_zip (args : List Value) :
    Shifts left clock (Value.shift left) (zip args) (zip (args.map (Value.shift left))) := by
  apply (shifts_columns args).andThen
  intro columns
  have same : (columns.map (List.map (Value.shift left))).map List.toArray
      = (columns.map List.toArray).map (Array.map (Value.shift left)) := by
    simp [Function.comp_def]
  rw [same, map_rows]
  exact .onHeap ((shifts_newTuples _).andThen fun tuples => HeapM.shifts_newList tuples)

theorem shifts_truths (items : List Value) :
    Shifts left clock id (truths items) (truths (items.map (Value.shift left))) := by
  induction items with
  | nil => exact .done _
  | cons v rest ih => exact (Shifts.truthy v).before fun _ => ih.before fun _ => .done _

theorem shifts_chr (v : Value) : Shifts left clock (Value.shift left) (chr v) (chr (v.shift left)) := by
  apply (shifts_int _ _).before
  intro code
  split
  · exact .done_value rfl
  · exact .raise _ _

theorem shifts_ord (v : Value) : Shifts left clock (Value.shift left) (ord v) (ord (v.shift left)) := by
  apply (shifts_text _ _).before
  intro text
  split
  · exact .done_value rfl
  · exact .raiseTypeError _

theorem shifts_divmod (a b : Value) :
    Shifts left clock (Value.shift left) (divmod a b) (divmod (a.shift left) (b.shift left)) := by
  apply (Shifts.onHeap (Value.shifts_binary _ _ _)).andThen
  intro q
  apply (Shifts.onHeap (Value.shifts_binary _ _ _)).andThen
  intro r
  exact .onHeap (HeapM.shifts_newTuple [q, r])

theorem shifts_format (args : List Value) :
    Shifts left clock (Value.shift left) (format args) (format (args.map (Value.shift left))) := by
  apply (shifts_arity _ _ _ _).before
  intro _
  simp only [first_shift, ← List.map_tail, List.head?_map]
  have formatted (spec : String) : Shifts left clock (Value.shift left)
      (Work.format (first args) spec >>= fun text => pure (.str text))
      (Work.format ((first args).shift left) spec >>= fun text => pure (.str text)) :=
    (Shifts.format _ _).before fun _ => .done_value rfl
  cases args.tail.head? with
  | none => exact formatted ""
  | some v => exact (shifts_text _ v).before fun spec => formatted spec

theorem shifts_onNumber (name : String) (args : List Value) {f : Double → Work Double}
    (same : ∀ d, Shifts left clock id (f d) (f d)) :
    Shifts left clock (Value.shift left) (onNumber name args f)
      (onNumber name (args.map (Value.shift left)) f) := by
  simp only [onNumber, first_shift]
  apply counted
  apply (shifts_number _ _).before
  intro d
  exact (same d).before fun _ => .done_value (Value.shift_float _).symm

theorem shifts_rounding (name : String) (round : Double → Double) (args : List Value) :
    Shifts left clock (Value.shift left) (rounding name round args)
      (rounding name round (args.map (Value.shift left))) := by
  simp only [rounding, first_shift, Value.int?_shift]
  apply counted
  cases (first args).int? with
  | some i => exact .done_value rfl
  | none =>
    apply (shifts_number _ _).before
    intro d
    generalize intOfDouble (round d) = found
    exact (Shifts.ofExcept_id _).before fun _ => .done_value rfl

theorem shifts_log (args : List Value) :
    Shifts left clock (Value.shift left) (log args) (log (args.map (Value.shift left))) := by
  apply (shifts_arity _ _ _ _).before
  intro _
  simp only [first_shift, ← List.map_tail, List.head?_map]
  apply (shifts_number _ _).before
  intro d
  apply Shifts.choose (.raised _ _)
  cases args.tail.head? with
  | none => exact .done_value (Value.shift_float _).symm
  | some v =>
    apply (shifts_number _ v).before
    intro base
    exact .choose (.raised _ _) (.done_value (Value.shift_float _).symm)

theorem shifts_single (name : String) (args : List Value) (keywords : Keywords) {f : Value → Work Value}
    (same : ∀ v, Shifts left clock (Value.shift left) (f v) (f (v.shift left))) :
    Shifts left clock (Value.shift left) (single name args keywords f)
      (single name (args.map (Value.shift left)) (keywords.map (shiftKeyword left)) f) := by
  simp only [single, first_shift]
  apply unnamed
  apply counted
  exact same _

end Builtins

/-! ### Attributes and writing -/

theorem Call.shifts_streamMethod (s : Stream) (m : StreamMethod) (args : List Value) (keywords : Keywords) :
    Shifts left clock (Value.shift left) (Call.streamMethod s m args keywords)
      (Call.streamMethod s m (args.map (Value.shift left)) (keywords.map (shiftKeyword left))) := by
  cases m with
  | write =>
    simp only [Call.streamMethod, first_shift]
    apply unnamed
    apply counted
    cases first args with
    | str text => exact (Shifts.write _ _).before fun _ => .done_value rfl
    | _ => exact .raiseTypeError _
  | flush => exact .done_value rfl

namespace Builtins

/-- What a name means that no program has bound does not depend on the heap. -/
theorem global?_shift (name : String) : (global? name).map (Value.shift left) = global? name := by
  simp only [global?]
  split
  · rfl
  · split
    · rfl
    · cases ExceptionKind.ofText? name <;> rfl

theorem moduleAttribute?_shift (left : Heap) (m : Module) (name : String) :
    (moduleAttribute? m name).map (Value.shift left) = moduleAttribute? m name := by
  unfold moduleAttribute?
  split <;> rfl

theorem method?_shift (v : Value) (name : String) :
    method? (v.shift left) name = (method? v name).map (Value.shift left) := by
  cases v with
  | tuple id items =>
    simp only [Value.shift_tuple, method?, Option.map_map]
    congr 1
    funext m
    exact (Value.shift_tupleMethod id items m).symm
  | list ref => simp only [Value.shift_list, method?, Option.map_map]; rfl
  | dict ref => simp only [Value.shift_dict, method?, Option.map_map]; rfl
  | str text => simp only [Value.shift_str, method?, Option.map_map]; rfl
  | stream s => simp only [Value.shift_stream, method?, Option.map_map]; rfl
  | _ => rfl

end Builtins

namespace Work

theorem shifts_method (v : Value) (name : String) : Shifts left clock (Value.shift left)
    (match Builtins.method? v name with
      | some method => return method
      | none => ofExcept (.error (v.noAttribute name)))
    (match Builtins.method? (v.shift left) name with
      | some method => return method
      | none => ofExcept (.error ((v.shift left).noAttribute name))) := by
  have same : (v.shift left).noAttribute name = v.noAttribute name := by
    simp [Value.noAttribute]
  rw [Builtins.method?_shift, same]
  cases Builtins.method? v name with
  | some method => exact .done_value rfl
  | none => exact .fail _

theorem shifts_getAttr (v : Value) (name : String) :
    Shifts left clock (Value.shift left) (getAttr v name) (getAttr (v.shift left) name) := by
  cases v with
  | module m =>
    have found := Builtins.moduleAttribute?_shift left m name
    simp only [Value.shift_module, getAttr]
    cases known : Builtins.moduleAttribute? m name with
    | some w =>
      rw [known] at found
      exact .done_value (Option.some.inj found).symm
    | none => exact .raise _ _
  | exception id e =>
    by_cases args : name = "args"
    · subst args
      simp only [Value.shift_exception, getAttr]
      split
      · exact .onHeap (HeapM.shifts_newTuple [])
      · exact .onHeap (HeapM.shifts_newTuple [.str e.message])
    · have same (id : Nat) : getAttr (.exception id e) name
          = ofExcept (.error ((Value.exception id e).noAttribute name)) := by
        unfold getAttr
        split
        · contradiction
        · exact absurd rfl args
        · rfl
      rw [Value.shift_exception, same, same]
      exact fun _ => .inr rfl
  | list ref => exact shifts_method (.list ref) name
  | tuple id items => exact shifts_method (.tuple id items) name
  | dict ref => exact shifts_method (.dict ref) name
  | str text => exact shifts_method (.str text) name
  | stream s => exact shifts_method (.stream s) name
  | _ => exact fun _ => .inr rfl

theorem shifts_refuseAttribute (v : Value) (name : String) :
    Shifts left clock id (refuseAttribute v name) (refuseAttribute (v.shift left) name) := by
  unfold refuseAttribute
  rw [Value.typeName_shift]
  exact .raise _ _

theorem shifts_bound (v : Value) : Shifts left clock id (bound v) (bound (v.shift left)) := by
  cases v with
  | none => exact .done _
  | int i => exact .done _
  | bool b => exact .done _
  | _ => exact .raiseTypeError _

theorem shifts_unpack (v : Value) (targets : Nat) :
    Shifts left clock (List.map (Value.shift left)) (unpack v targets) (unpack (v.shift left) targets) := by
  apply (Shifts.items v).andThen
  intro items
  simp only [List.length_map]
  exact .choose (.raise _ _) (.choose (.raise _ _) (Follows.done rfl))

end Work

end SnippetKernel
