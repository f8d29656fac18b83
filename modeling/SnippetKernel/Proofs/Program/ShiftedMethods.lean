import SnippetKernel.Program.Call
import SnippetKernel.Proofs.Value.ShiftedChanges

/-! The methods of texts, lists, tuples and dicts do the same behind what was left on the heap, and at any time. -/
namespace SnippetKernel

/-- What work sees, behind what was left and at another time. -/
def Reach.shift (left : Heap) (clock : Clock) (r : Reach) : Reach := ⟨r.cells.shift left, clock, r.writes⟩

def shiftKeyword (left : Heap) (keyword : String × Value) : String × Value := (keyword.1, keyword.2.shift left)

namespace Work

variable {α β γ δ : Type} {left : Heap} {clock : Clock} {result : α → β} {last : γ → δ}

/-- The work does the same behind what was left, whatever time it is there. -/
def Shifts (left : Heap) (clock : Clock) (result : α → β) (work : Work α) (copy : Work β) : Prop :=
  Follows (Reach.shift left clock) id (fun _ => False) result work copy

namespace Shifts

theorem done (a : α) : Shifts left clock id (pure a) (pure a) := Follows.done rfl

theorem done_value {v w : Value} (same : w = v.shift left) :
    Shifts left clock (Value.shift left) (pure v) (pure w) := Follows.done same

theorem fail (e : Refusal) : Shifts left clock result (throw e) (throw e) := Follows.fail rfl

theorem raise (kind : ExceptionKind) (message : String) :
    Shifts left clock result (Work.raise kind message) (Work.raise kind message) := .fail _

theorem raiseTypeError (message : String) :
    Shifts left clock result (Work.raiseTypeError message) (Work.raiseTypeError message) := .fail _

theorem andThen {work : Work α} {copy : Work β} {next : α → Work γ} {after : β → Work δ}
    (first : Shifts left clock result work copy) (second : ∀ a, Shifts left clock last (next a) (after (result a))) :
    Shifts left clock last (work >>= next) (copy >>= after) := Follows.andThen first second

/-- Work whose result stays as it is. -/
theorem before {work copy : Work α} {next : α → Work γ} {after : α → Work δ}
    (first : Shifts left clock id work copy) (second : ∀ a, Shifts left clock last (next a) (after a)) :
    Shifts left clock last (work >>= next) (copy >>= after) := Follows.before first second

/-- Nothing follows an exception. -/
theorem raised (kind : ExceptionKind) (message : String) {next : α → Work γ} {after : α → Work δ} :
    Shifts left clock last (Work.raise kind message >>= next) (Work.raise kind message >>= after) :=
  fun _ => .inr rfl

theorem map {work : Work α} {copy : Work β} {f : α → γ} {g : β → δ}
    (first : Shifts left clock result work copy) (same : ∀ a, g (result a) = last (f a)) :
    Shifts left clock last (f <$> work) (g <$> copy) := Follows.map first same

theorem choose {c : Prop} [Decidable c] {yes no : Work α} {yes' no' : Work β}
    (first : Shifts left clock result yes yes') (second : Shifts left clock result no no') :
    Shifts left clock result (if c then yes else no) (if c then yes' else no') := by
  split
  · exact first
  · exact second

theorem onHeap {work : HeapM α} {copy : HeapM β} (inner : HeapM.Shifts left result work copy) :
    Shifts left clock result (Work.onHeap work) (Work.onHeap copy) := by
  intro r
  obtain ⟨cells, before, writes⟩ := r
  have ends := inner cells
  simp only [Work.onHeap, Reach.shift]
  cases ended : work cells with
  | ok a cells =>
    rw [ended] at ends
    simp only [ends]
  | error e cells =>
    rw [ended] at ends
    exact .inr (by simp only [ends.resolve_left not_false, id])

theorem reading {read : Cells → α} {read' : Cells → β} (same : ∀ h, read' (h.shift left) = result (read h)) :
    Shifts left clock result (Work.reading read) (Work.reading read') :=
  fun r => congrArg (EStateM.Result.ok · _) (same r.cells)

theorem readingExcept {read : Cells → Except Exception α} {read' : Cells → Except Exception β}
    (same : ∀ h, read' (h.shift left) = (read h).map result) :
    Shifts left clock result (Work.readingExcept read) (Work.readingExcept read') := by
  intro r
  simp only [Work.readingExcept, Reach.shift, same]
  cases read r.cells with
  | ok a => rfl
  | error e => exact .inr rfl

/-- What is found does not depend on the heap. -/
theorem readingExcept_id {read read' : Cells → Except Exception α} (same : ∀ h, read' (h.shift left) = read h) :
    Shifts left clock id (Work.readingExcept read) (Work.readingExcept read') := by
  apply readingExcept
  intro h
  rw [same]
  cases read h <;> rfl

theorem ofExcept {found : Except Exception α} {found' : Except Exception β} (same : found' = found.map result) :
    Shifts left clock result (Work.ofExcept found) (Work.ofExcept found') := by
  subst same
  cases found with
  | ok a => exact Follows.done rfl
  | error e => exact .fail _

theorem ofExcept_id (found : Except Exception α) :
    Shifts left clock id (Work.ofExcept found) (Work.ofExcept found) := by
  apply ofExcept
  cases found <;> rfl

theorem write (s : Stream) (text : String) :
    Shifts left clock id (Work.write s text) (Work.write s text) := fun _ => rfl

theorem display (v : Value) : Shifts left clock id (Work.display v) (Work.display (v.shift left)) :=
  reading fun _ => v.display_shift

theorem repr (v : Value) : Shifts left clock id (Work.repr v) (Work.repr (v.shift left)) :=
  reading fun _ => v.repr_shift

theorem truthy (v : Value) : Shifts left clock id (Work.truthy v) (Work.truthy (v.shift left)) :=
  reading fun _ => v.truthy_shift

theorem format (v : Value) (spec : String) :
    Shifts left clock id (Work.format v spec) (Work.format (v.shift left) spec) := by
  intro r
  simp only [Work.format, Reach.shift, Value.format_shift]
  cases v.format r.cells spec with
  | ok text => rfl
  | error failure => cases failure <;> exact .inr rfl

theorem items (v : Value) :
    Shifts left clock (List.map (Value.shift left)) (Work.items v) (Work.items (v.shift left)) :=
  readingExcept fun _ => v.items_shift

end Shifts

end Work

open Work

variable {left : Heap} {clock : Clock}

namespace Arguments

variable {β γ : Type}

@[simp] theorem first_shift (args : List Value) : first (args.map (Value.shift left)) = (first args).shift left := by
  cases args <;> rfl

@[simp] theorem second_shift (args : List Value) :
    second (args.map (Value.shift left)) = (second args).shift left := by
  cases args with
  | nil => rfl
  | cons v rest => exact first_shift rest

theorem lookup_shift (key : String) (keywords : Keywords) :
    (keywords.map (shiftKeyword left)).lookup key = (keywords.lookup key).map (Value.shift left) := by
  induction keywords with
  | nil => rfl
  | cons keyword rest ih =>
    obtain ⟨name, v⟩ := keyword
    simp only [List.map_cons, shiftKeyword, List.lookup_cons, ih]
    split <;> rfl

@[simp] theorem take_shift (key : String) (keywords : Keywords) :
    take key (keywords.map (shiftKeyword left))
      = ((take key keywords).1.map (Value.shift left), (take key keywords).2.map (shiftKeyword left)) := by
  simp only [take, lookup_shift, List.eraseP_map]
  rfl

theorem shifts_arity (name : String) (args : List Value) (least : Nat) (most : Option Nat) :
    Shifts left clock id (arity name args least most) (arity name (args.map (Value.shift left)) least most) := by
  unfold arity
  rw [List.length_map]
  exact .choose (.done _) (.raiseTypeError _)

theorem shifts_exactly (name : String) (args : List Value) (n : Nat) :
    Shifts left clock id (exactly name args n) (exactly name (args.map (Value.shift left)) n) :=
  shifts_arity name args n _

theorem shifts_noKeywords (name : String) (keywords : Keywords) :
    Shifts left clock id (noKeywords name keywords) (noKeywords name (keywords.map (shiftKeyword left))) := by
  cases keywords with
  | nil => exact .done _
  | cons keyword rest => exact .raiseTypeError _

/-- Work after a look at the number of arguments. -/
theorem counted {result : β → γ} {next : Work β} {after : Work γ} (name : String) (args : List Value) (n : Nat)
    (rest : Shifts left clock result next after) :
    Shifts left clock result (exactly name args n >>= fun _ => next)
      (exactly name (args.map (Value.shift left)) n >>= fun _ => after) :=
  (shifts_exactly name args n).before fun _ => rest

/-- Work after a look at the keywords. -/
theorem unnamed {result : β → γ} {next : Work β} {after : Work γ} (name : String) (keywords : Keywords)
    (rest : Shifts left clock result next after) :
    Shifts left clock result (noKeywords name keywords >>= fun _ => next)
      (noKeywords name (keywords.map (shiftKeyword left)) >>= fun _ => after) :=
  (shifts_noKeywords name keywords).before fun _ => rest

theorem shifts_int (name : String) (v : Value) :
    Shifts left clock id (int name v) (int name (v.shift left)) := by
  unfold int
  rw [Value.int?_shift, Value.typeName_shift]
  cases v.int? with
  | some i => exact .done _
  | none => exact .raiseTypeError _

theorem shifts_number (name : String) (v : Value) :
    Shifts left clock id (number name v) (number name (v.shift left)) := by
  unfold number
  rw [Value.number?_shift, Value.typeName_shift]
  cases v.number? with
  | some n => exact .done _
  | none => exact .raiseTypeError _

theorem shifts_text (name : String) (v : Value) :
    Shifts left clock id (text name v) (text name (v.shift left)) := by
  cases v with
  | str text => exact .done _
  | _ => exact .raiseTypeError _

end Arguments

open Arguments

/-! ### Texts -/

namespace TextMethods

theorem fieldValue_shift (f : Field) (args : List Value) (keywords : Keywords) (next : Nat) :
    fieldValue f (args.map (Value.shift left)).toArray (keywords.map (shiftKeyword left)) next
      = (fieldValue f args.toArray keywords next).map (Value.shift left) := by
  simp -zeta only [fieldValue, lookup_shift]
  extract_lets positional positional'
  have same (i : Nat) : positional i = (positional' i).map (Value.shift left) := by
    unfold positional positional'
    simp only [List.getElem?_toArray, List.getElem?_map]
    cases args[i]? <;> rfl
  split
  · exact same _
  · split
    · exact same _
    · cases keywords.lookup f.name <;> rfl

theorem shifts_fill (args : List Value) (keywords : Keywords) (next : Nat) (done : String)
    (parts : List FieldPart) : Shifts left clock id (fill args.toArray keywords next done parts)
      (fill (args.map (Value.shift left)).toArray (keywords.map (shiftKeyword left)) next done parts) := by
  induction parts generalizing next done with
  | nil => exact .done _
  | cons part rest ih =>
    cases part with
    | field f =>
      simp only [fill]
      apply (Shifts.ofExcept (fieldValue_shift f args keywords next)).andThen
      intro v
      have formatted (v : Value) : Shifts left clock id (do
          let text ← Work.format v f.spec
          fill args.toArray keywords (if f.name.isEmpty then next + 1 else next) (done ++ text) rest)
          (do
          let text ← Work.format (v.shift left) f.spec
          fill (args.map (Value.shift left)).toArray (keywords.map (shiftKeyword left))
            (if f.name.isEmpty then next + 1 else next) (done ++ text) rest) :=
        (Shifts.format v f.spec).before fun _ => ih _ _
      cases f.quote with
      | true => exact (Shifts.repr v).before fun text => formatted (.str text)
      | false => exact formatted v
    | text cs => exact ih _ _
    | loneOpen => exact .raise _ _
    | loneClose => exact .raise _ _

theorem shifts_optionalText (name : String) (args : List Value) :
    Shifts left clock id (optionalText name args) (optionalText name (args.map (Value.shift left))) := by
  cases args with
  | nil => exact .done _
  | cons v rest =>
    cases v with
    | none => exact .done _
    | str text => exact .done _
    | _ => exact .raiseTypeError _

theorem shifts_optionalInt (name : String) (v : Option Value) :
    Shifts left clock id (optionalInt name v) (optionalInt name (v.map (Value.shift left))) := by
  cases v with
  | none => exact .done _
  | some v => exact (shifts_int name v).before fun _ => .done _

theorem shifts_ofPieces (pieces : List (List Char)) :
    Shifts left clock (Value.shift left) (ofPieces pieces) (ofPieces pieces) := by
  have same : HeapM.Shifts left _ _ _ := HeapM.shifts_newList (pieces.map fun cs => .str (String.ofList cs))
  rw [List.map_map] at same
  exact .onHeap same

theorem shifts_strip (name : String) (cut : (Char → Bool) → List Char → List Char) (self : String)
    (args : List Value) : Shifts left clock (Value.shift left) (strip name cut self args)
      (strip name cut self (args.map (Value.shift left))) := by
  apply Shifts.before (shifts_arity _ _ _ _)
  intro _
  apply Shifts.before (shifts_optionalText _ _)
  intro set
  cases set <;> exact .done_value rfl

theorem shifts_split (self : String) (args : List Value) :
    Shifts left clock (Value.shift left) (split self args) (split self (args.map (Value.shift left))) := by
  unfold split
  simp only [← List.map_tail, List.head?_map]
  apply Shifts.before (shifts_arity _ _ _ _)
  intro _
  apply Shifts.before (shifts_optionalText _ _)
  intro separator
  apply Shifts.before (shifts_optionalInt _ _)
  intro limit
  cases separator with
  | none => exact shifts_ofPieces _
  | some separator => exact .choose (.raised _ _) (shifts_ofPieces _)

theorem shifts_textItems (i : Nat) (items : List Value) :
    Shifts left clock id (textItems i items) (textItems i (items.map (Value.shift left))) := by
  induction items generalizing i with
  | nil => exact .done _
  | cons v rest ih =>
    have more := ih (i + 1)
    cases v with
    | str text => exact more.before fun _ => .done _
    | _ => exact .raiseTypeError _

theorem shifts_replace (self : String) (args : List Value) :
    Shifts left clock (Value.shift left) (replace self args) (replace self (args.map (Value.shift left))) := by
  simp only [replace, first_shift, second_shift, List.getElem?_map]
  apply Shifts.before (shifts_arity _ _ _ _)
  intro _
  apply Shifts.before (shifts_text _ _)
  intro old
  apply Shifts.before (shifts_text _ _)
  intro new
  exact (shifts_optionalInt _ _).before fun _ => .done_value rfl

theorem shifts_anyText (name : String) (test : List Char → Bool) (items : List Value) :
    Shifts left clock id (anyText name test items) (anyText name test (items.map (Value.shift left))) := by
  induction items with
  | nil => exact .done _
  | cons v rest ih =>
    simp only [List.map_cons, anyText]
    apply Shifts.before (shifts_text _ _)
    intro piece
    exact .choose (.done _) ih

theorem shifts_affix (name : String) (test : List Char → List Char → Bool) (self : String)
    (args : List Value) : Shifts left clock (Value.shift left) (affix name test self args)
      (affix name test self (args.map (Value.shift left))) := by
  unfold affix
  simp only [first_shift]
  apply counted
  apply Shifts.map
  · cases first args with
    | tuple id items =>
      rw [Value.shift_tuple]
      exact shifts_anyText _ _ _
    | _ => exact shifts_anyText name _ [_]
  · exact fun _ => rfl

theorem shifts_apply (m : StrMethod) (self : String) (args : List Value) (keywords : Keywords) :
    Shifts left clock (Value.shift left) (TextMethods.apply m self args keywords)
      (TextMethods.apply m self (args.map (Value.shift left)) (keywords.map (shiftKeyword left))) := by
  cases m with
  | format => exact (shifts_fill args keywords 0 "" _).before fun _ => .done_value rfl
  | strip | lstrip | rstrip => exact unnamed _ _ (shifts_strip _ _ _ _)
  | split => exact unnamed _ _ (shifts_split _ _)
  | join =>
    simp only [TextMethods.apply, reduceCtorEq, if_false, first_shift]
    apply unnamed
    apply counted
    apply (Shifts.items _).andThen
    intro items
    exact (shifts_textItems 0 items).before fun _ => .done_value rfl
  | replace => exact unnamed _ _ (shifts_replace _ _)
  | startswith | endswith => exact unnamed _ _ (shifts_affix _ _ _ _)
  | find =>
    simp only [TextMethods.apply, reduceCtorEq, if_false, first_shift]
    apply unnamed
    apply counted
    apply Shifts.before (shifts_text _ _)
    intro piece
    split <;> exact .done_value rfl
  | count =>
    simp only [TextMethods.apply, reduceCtorEq, if_false, first_shift]
    apply unnamed
    apply counted
    exact (shifts_text _ _).before fun _ => .done_value rfl
  | splitlines => exact unnamed _ _ (shifts_ofPieces _)
  | _ => exact unnamed _ _ (.done_value rfl)

end TextMethods

/-! ### Lists and tuples -/

namespace ListMethods

theorem shifts_items (ref : Nat) :
    Shifts left clock (List.map (Value.shift left)) (items ref) (items (left.lists.size + ref)) :=
  .reading fun h => by simp

theorem shifts_modify {change change' : Array Value → Array Value}
    (same : ∀ items : Array Value, change' (items.map (Value.shift left)) = (change items).map (Value.shift left))
    (ref : Nat) :
    Shifts left clock (Value.shift left) (modify ref change) (modify (left.lists.size + ref) change') :=
  (Shifts.onHeap (HeapM.shifts_modifyList same ref)).before fun _ => .done_value rfl

theorem shifts_index (typeName : String) (items args : List Value) :
    Shifts left clock (Value.shift left) (index typeName items args)
      (index typeName (items.map (Value.shift left)) (args.map (Value.shift left))) := by
  simp only [index, first_shift]
  apply counted
  apply Shifts.before (.readingExcept_id fun h => Value.position?_shift _ _)
  intro place
  cases place with
  | some i => exact .done_value rfl
  | none => exact .raise _ _

theorem shifts_count (items args : List Value) :
    Shifts left clock (Value.shift left) (count items args)
      (count (items.map (Value.shift left)) (args.map (Value.shift left))) := by
  simp only [count, first_shift]
  apply counted
  exact (Shifts.readingExcept_id fun h => Value.countEqual_shift _ _).before fun _ => .done_value rfl

theorem shifts_pop (ref : Nat) (args : List Value) :
    Shifts left clock (Value.shift left) (pop ref args)
      (pop (left.lists.size + ref) (args.map (Value.shift left))) := by
  unfold pop
  apply Shifts.before (shifts_arity _ _ _ _)
  intro _
  apply Shifts.before (.reading fun h => by simp)
  intro length
  apply Shifts.choose (.raised _ _)
  extract_lets take take'
  have taken (index : Int64) : Shifts left clock (Value.shift left) (take index) (take' index) := by
    unfold take take'
    cases Value.place? length index with
    | none => exact .raise _ _
    | some i =>
      have held : Shifts left clock (Value.shift left) (Work.reading fun h => (h.list ref)[i]?.getD .none)
          (Work.reading fun h => (h.list (left.lists.size + ref))[i]?.getD .none) := by
        apply Shifts.reading
        intro h
        rw [Cells.list_shift, Array.getElem?_map]
        cases (h.list ref)[i]? <;> rfl
      apply held.andThen
      intro v
      apply (Shifts.onHeap (HeapM.shifts_modifyList (fun items => Value.map_eraseIdxIfInBounds items i) ref)).before
      intro _
      exact .done_value rfl
  cases args with
  | nil => exact taken (-1)
  | cons v rest => exact (shifts_int _ _).before taken

theorem shifts_remove (ref : Nat) (args : List Value) :
    Shifts left clock (Value.shift left) (remove ref args)
      (remove (left.lists.size + ref) (args.map (Value.shift left))) := by
  simp only [remove, first_shift]
  apply counted
  apply Shifts.before (.readingExcept_id fun h => by simp)
  intro place
  cases place with
  | some i => exact shifts_modify (fun items => Value.map_eraseIdxIfInBounds items i) ref
  | none => exact .raise _ _

/-- The key function, the direction, and the keywords that are left over. -/
theorem shifts_sortKeywords (keywords : Keywords) :
    Shifts left clock (fun given => (given.1.map (Value.shift left), given.2.1, given.2.2.map (shiftKeyword left)))
      (sortKeywords keywords) (sortKeywords (keywords.map (shiftKeyword left))) := by
  simp only [sortKeywords, take_shift]
  cases (take "reverse" (take "key" keywords).2).1 with
  | none => exact Follows.done rfl
  | some v => exact (Shifts.truthy v).before fun _ => Follows.done rfl

theorem map_appendList (f : Value → Value) (items : Array Value) (new : List Value) :
    (items.map f).appendList (new.map f) = (items.appendList new).map f := by
  apply Array.toList_inj.1
  simp

theorem map_insertIdxIfInBounds (f : Value → Value) (items : Array Value) (i : Nat) (v : Value) :
    (items.map f).insertIdxIfInBounds i (f v) = (items.insertIdxIfInBounds i v).map f := by
  simp only [Array.insertIdxIfInBounds, Array.size_map]
  split
  · apply Array.toList_inj.1
    simp [List.map_insertIdx]
  · rfl

theorem shifts_withoutKeys (m : ListMethod) (ref : Nat) (args : List Value) (keywords : Keywords) :
    Shifts left clock (Value.shift left) (withoutKeys m ref args keywords)
      (withoutKeys m (left.lists.size + ref) (args.map (Value.shift left)) (keywords.map (shiftKeyword left))) := by
  unfold withoutKeys
  simp only [first_shift, second_shift]
  apply unnamed
  cases m with
  | sort => exact .done_value rfl
  | append => exact counted _ _ _ (shifts_modify (fun items => by simp) ref)
  | extend =>
    apply counted
    exact (Shifts.items _).andThen fun new => shifts_modify (fun items => map_appendList _ items new) ref
  | insert =>
    apply counted
    apply (shifts_int _ _).before
    intro index
    apply shifts_modify
    intro items
    rw [Array.size_map]
    exact map_insertIdxIfInBounds _ _ _ _
  | pop => exact shifts_pop ref args
  | remove => exact shifts_remove ref args
  | reverse => exact counted _ _ _ (shifts_modify (fun items => by simp) ref)
  | copy => exact counted _ _ _ ((shifts_items ref).andThen fun items => .onHeap (HeapM.shifts_newList items))
  | clear => exact counted _ _ _ (shifts_modify (fun items => Array.map_empty.symm) ref)
  | index => exact (shifts_items ref).andThen fun items => shifts_index _ items args
  | count => exact (shifts_items ref).andThen fun items => shifts_count items args

end ListMethods

theorem TupleMethods.shifts_apply (m : TupleMethod) (items args : List Value) (keywords : Keywords) :
    Shifts left clock (Value.shift left) (TupleMethods.apply m items args keywords)
      (TupleMethods.apply m (items.map (Value.shift left)) (args.map (Value.shift left))
        (keywords.map (shiftKeyword left))) := by
  simp only [TupleMethods.apply]
  apply Shifts.before (shifts_noKeywords _ _)
  intro _
  cases m with
  | index => exact ListMethods.shifts_index _ items args
  | count => exact ListMethods.shifts_count items args

/-! ### Dicts -/

namespace DictMethods

theorem shifts_find? (ref : Nat) (key : Value) :
    Shifts left clock (Option.map (Value.shift left)) (find? ref key)
      (find? (left.dicts.size + ref) (key.shift left)) :=
  .readingExcept fun h => by rw [Cells.dict_shift, Dict.get?_shift]

theorem shifts_put (ref : Nat) (key value : Value) :
    Shifts left clock id (put ref key value)
      (put (left.dicts.size + ref) (key.shift left) (value.shift left)) := by
  simp only [put, Value.key_shift]
  apply (Shifts.ofExcept_id _).before
  intro k
  exact .onHeap (HeapM.shifts_modifyDict (fun d => d.put_shift k key value) ref)

theorem shifts_entries (ref : Nat) :
    Shifts left clock (List.map (shiftEntry left)) (entries ref) (entries (left.dicts.size + ref)) :=
  .reading fun h => by simp

theorem shifts_pop (ref : Nat) (args : List Value) :
    Shifts left clock (Value.shift left) (pop ref args)
      (pop (left.dicts.size + ref) (args.map (Value.shift left))) := by
  simp only [pop, first_shift, ← List.map_tail, Value.key_shift]
  apply (shifts_arity _ _ _ _).before
  intro _
  apply (shifts_find? _ _).andThen
  intro found
  cases found with
  | some v =>
    apply (Shifts.ofExcept_id _).before
    intro k
    apply (Shifts.onHeap (HeapM.shifts_modifyDict (fun d => d.erase_shift k) ref)).before
    intro _
    exact .done_value rfl
  | none =>
    cases args.tail with
    | nil => exact (Shifts.repr _).before fun _ => .raise _ _
    | cons default rest => exact .done_value rfl

theorem shifts_setdefault (ref : Nat) (args : List Value) :
    Shifts left clock (Value.shift left) (setdefault ref args)
      (setdefault (left.dicts.size + ref) (args.map (Value.shift left))) := by
  simp only [setdefault, first_shift, second_shift]
  apply (shifts_arity _ _ _ _).before
  intro _
  apply (shifts_find? _ _).andThen
  intro found
  cases found with
  | some v => exact .done_value rfl
  | none => exact (shifts_put _ _ _).before fun _ => .done_value rfl

theorem shifts_pairs (items : List Value) :
    Shifts left clock (List.map (shiftEntry left)) (pairs items) (pairs (items.map (Value.shift left))) := by
  induction items with
  | nil => exact Follows.done rfl
  | cons pair rest ih =>
    apply (Shifts.items pair).andThen
    intro entry
    match entry with
    | [] => exact .raise _ _
    | [_] => exact .raise _ _
    | [key, value] => exact ih.andThen fun more => Follows.done rfl
    | _ :: _ :: _ :: _ => exact .raise _ _

theorem shifts_putAll (ref : Nat) (new : List (Value × Value)) :
    Shifts left clock id (putAll ref new) (putAll (left.dicts.size + ref) (new.map (shiftEntry left))) := by
  induction new with
  | nil => exact .done _
  | cons entry rest ih => exact (shifts_put ref entry.1 entry.2).before fun _ => ih

theorem shifts_update (ref : Nat) (args : List Value) (keywords : Keywords) :
    Shifts left clock (Value.shift left) (update ref args keywords)
      (update (left.dicts.size + ref) (args.map (Value.shift left)) (keywords.map (shiftKeyword left))) := by
  simp only [update]
  apply (shifts_arity _ _ _ _).before
  intro _
  have added (new : List (Value × Value)) : Shifts left clock (Value.shift left)
      (do
        putAll ref (new ++ keywords.map fun keyword => (.str keyword.1, keyword.2))
        return .none)
      (do
        putAll (left.dicts.size + ref) (new.map (shiftEntry left)
          ++ (keywords.map (shiftKeyword left)).map fun keyword => (Value.str keyword.1, keyword.2))
        return .none) := by
    have named : new.map (shiftEntry left)
          ++ (keywords.map (shiftKeyword left)).map (fun keyword => (Value.str keyword.1, keyword.2))
        = (new ++ keywords.map fun keyword => (Value.str keyword.1, keyword.2)).map (shiftEntry left) := by
      simp only [List.map_append, List.map_map]
      rfl
    rw [named]
    exact (shifts_putAll ref _).before fun _ => .done_value rfl
  cases args with
  | nil => exact added []
  | cons v rest =>
    have others : Shifts left clock (Value.shift left)
        (Work.items v >>= fun items => pairs items >>= fun new => (do
          putAll ref (new ++ keywords.map fun keyword => (.str keyword.1, keyword.2))
          return .none))
        (Work.items (v.shift left) >>= fun items => pairs items >>= fun new => (do
          putAll (left.dicts.size + ref) (new
            ++ (keywords.map (shiftKeyword left)).map fun keyword => (.str keyword.1, keyword.2))
          return .none)) :=
      (Shifts.items v).andThen fun items => (shifts_pairs items).andThen fun new => added new
    cases v with
    | dict other => exact (shifts_entries other).andThen fun new => added new
    | _ => exact others

theorem shifts_apply (m : DictMethod) (ref : Nat) (args : List Value) (keywords : Keywords) :
    Shifts left clock (Value.shift left) (DictMethods.apply m ref args keywords)
      (DictMethods.apply m (left.dicts.size + ref) (args.map (Value.shift left))
        (keywords.map (shiftKeyword left))) := by
  cases m with
  | get =>
    apply unnamed
    simp only [first_shift, second_shift]
    apply (shifts_arity _ _ _ _).before
    intro _
    apply (shifts_find? _ _).andThen
    intro found
    cases found <;> exact .done_value rfl
  | keys =>
    apply unnamed
    apply counted
    apply (shifts_entries ref).andThen
    intro entries
    have keys : HeapM.Shifts left _ _ _ := HeapM.shifts_newList (entries.map (·.1))
    rw [List.map_map] at keys ⊢
    exact .onHeap keys
  | values =>
    apply unnamed
    apply counted
    apply (shifts_entries ref).andThen
    intro entries
    have values : HeapM.Shifts left _ _ _ := HeapM.shifts_newList (entries.map (·.2))
    rw [List.map_map] at values ⊢
    exact .onHeap values
  | items =>
    apply unnamed
    apply counted
    apply (shifts_entries ref).andThen
    intro entries
    exact .onHeap ((HeapM.shifts_newPairs entries).andThen fun pairs => HeapM.shifts_newList pairs)
  | pop => exact unnamed _ _ (shifts_pop ref args)
  | setdefault => exact unnamed _ _ (shifts_setdefault ref args)
  | update => exact shifts_update ref args keywords
  | copy =>
    apply unnamed
    apply counted
    have held : Shifts left clock (Dict.shift left) (Work.reading fun h => h.dict ref)
        (Work.reading fun h => h.dict (left.dicts.size + ref)) := .reading fun h => h.dict_shift ref
    exact held.andThen fun d => .onHeap (HeapM.shifts_newDict d)
  | clear =>
    apply unnamed
    apply counted
    have emptied : HeapM.Shifts left id (HeapM.modifyDict ref fun _ => .empty)
        (HeapM.modifyDict (left.dicts.size + ref) fun _ => .empty) :=
      HeapM.shifts_modifyDict (fun _ => Dict.shift_empty.symm) ref
    exact (Shifts.onHeap emptied).before fun _ => .done_value rfl

end DictMethods

end SnippetKernel
