import SnippetKernel.Program.Call
import SnippetKernel.Proofs.Value.Confined

/-! The functions and methods that are always there stay within a region: they make new cells, and change what
they are given, but find no other way into the heap. -/
namespace SnippetKernel

namespace Work

variable {α β : Type} {R : Region} {good : α → Prop} {best : β → Prop}

/-- Work that stays within the region. -/
def Stays (R : Region) (good : α → Prop) (work : Work α) : Prop := Confined (fun r => r.cells.Within R) good work

namespace Stays

@[simp] theorem done {a : α} (h : good a) : Stays R good (pure a) := Confined.done h

@[simp] theorem fail (e : Refusal) : Stays R good (throw e : Work α) := Confined.fail e

@[simp] theorem raise (kind : ExceptionKind) (message : String) : Stays R good (Work.raise kind message : Work α) :=
  .fail _

@[simp] theorem raiseTypeError (message : String) : Stays R good (Work.raiseTypeError message : Work α) := .fail _

theorem andThen {work : Work α} {next : α → Work β} (first : Stays R good work)
    (second : ∀ a, good a → Stays R best (next a)) : Stays R best (work >>= next) := Confined.andThen first second

/-- Work whose result does not matter for what comes next. -/
@[simp] theorem before {work : Work α} {next : α → Work β} (first : Stays R (fun _ => True) work)
    (second : ∀ a, Stays R best (next a)) : Stays R best (work >>= next) := first.andThen fun a _ => second a

@[simp] theorem choose {c : Prop} [Decidable c] {yes no : Work α} (first : Stays R good yes)
    (second : Stays R good no) : Stays R good (if c then yes else no) := by
  split
  · exact first
  · exact second

/-- Work that is checked first if there is something to check. -/
theorem checked {c : Prop} [Decidable c] {check : Work Unit} {next : Unit → Work α}
    (first : Stays R (fun _ => True) check) (second : ∀ u, Stays R good (next u)) :
    Stays R good (if c then check >>= next else next ()) := .choose (first.before second) (second ())

theorem map {work : Work α} {f : α → β} (first : Stays R good work) (h : ∀ a, good a → best (f a)) :
    Stays R best (f <$> work) := Confined.map first h

@[simp] theorem map_any {work : Work α} {f : α → β} (first : Stays R (fun _ => True) work)
    (h : ∀ a, best (f a)) : Stays R best (f <$> work) := first.map fun a _ => h a

theorem ofExcept {result : Except Exception α} (h : ∀ a, result = .ok a → good a) :
    Stays R good (Work.ofExcept result) := by
  cases result with
  | ok a => exact .done (h a rfl)
  | error e => exact .fail _

@[simp] theorem ofExcept_any (result : Except Exception α) : Stays R (fun _ => True) (Work.ofExcept result) :=
  .ofExcept fun _ _ => trivial

theorem onHeap {work : HeapM α} (inner : HeapM.Stays R good work) : Stays R good (Work.onHeap work) := by
  intro r begins
  obtain ⟨cells, clock, writes⟩ := r
  have ends := inner cells begins
  unfold Work.onHeap
  cases ended : work cells with
  | ok a cells =>
    simp only [ended] at ends ⊢
    exact ends
  | error e cells =>
    simp only [ended] at ends ⊢
    exact ends

theorem reading {read : Cells → α} (h : ∀ cells, cells.Within R → good (read cells)) :
    Stays R good (Work.reading read) := fun r begins => ⟨h r.cells begins, begins⟩

@[simp] theorem reading_any (read : Cells → α) : Stays R (fun _ => True) (Work.reading read) :=
  .reading fun _ _ => trivial

theorem readingExcept {read : Cells → Except Exception α}
    (h : ∀ cells a, cells.Within R → read cells = .ok a → good a) : Stays R good (Work.readingExcept read) := by
  intro r begins
  unfold Work.readingExcept
  cases found : read r.cells with
  | ok a => exact ⟨h _ a begins found, begins⟩
  | error e => exact begins

@[simp] theorem readingExcept_any (read : Cells → Except Exception α) :
    Stays R (fun _ => True) (Work.readingExcept read) := .readingExcept fun _ _ _ _ => trivial

@[simp] theorem write (s : Stream) (text : String) : Stays R (fun _ => True) (Work.write s text) :=
  fun _ begins => ⟨trivial, begins⟩

@[simp] theorem clock : Stays R (fun _ => True) Work.clock := fun _ begins => ⟨trivial, begins⟩

@[simp] theorem display (v : Value) : Stays R (fun _ => True) (Work.display v) := .reading_any _

@[simp] theorem repr (v : Value) : Stays R (fun _ => True) (Work.repr v) := .reading_any _

@[simp] theorem truthy (v : Value) : Stays R (fun _ => True) (Work.truthy v) := .reading_any _

@[simp] theorem format (v : Value) (spec : String) : Stays R (fun _ => True) (Work.format v spec) := by
  intro r begins
  unfold Work.format
  cases v.format r.cells spec with
  | ok text => exact ⟨trivial, begins⟩
  | error failure => cases failure <;> exact begins

@[simp] theorem items_any (v : Value) : Stays R (fun _ => True) (Work.items v) := .readingExcept_any _

theorem items {v : Value} (here : v.Within R) : Stays R (fun items => ∀ w ∈ items, w.Within R) (Work.items v) :=
  .readingExcept fun _ _ begins read => Value.within_items begins here read

end Stays

end Work

open Work

variable {R : Region}

/-- The values of keywords are within the region. -/
def KeywordsWithin (R : Region) (keywords : Keywords) : Prop := ∀ entry ∈ keywords, entry.2.Within R

namespace Arguments

variable {args : List Value} {keywords : Keywords}

@[simp] theorem stays_arity (name : String) (args : List Value) (least : Nat) (most : Option Nat) :
    Stays R (fun _ => True) (arity name args least most) := by
  unfold arity
  simp

@[simp] theorem stays_exactly (name : String) (args : List Value) (n : Nat) :
    Stays R (fun _ => True) (exactly name args n) := stays_arity name args n _

@[simp] theorem stays_noKeywords (name : String) (keywords : Keywords) :
    Stays R (fun _ => True) (noKeywords name keywords) := by
  unfold noKeywords
  split <;> simp

@[simp] theorem stays_int (name : String) (v : Value) : Stays R (fun _ => True) (int name v) := by
  unfold int
  split <;> simp

@[simp] theorem stays_number (name : String) (v : Value) : Stays R (fun _ => True) (number name v) := by
  unfold number
  split <;> simp

@[simp] theorem stays_text (name : String) (v : Value) : Stays R (fun _ => True) (text name v) := by
  unfold text
  split <;> simp

theorem within_first (inside : ∀ v ∈ args, v.Within R) : (first args).Within R := by
  cases args with
  | nil => exact Value.within_none
  | cons v rest => exact inside v List.mem_cons_self

theorem within_second (inside : ∀ v ∈ args, v.Within R) : (second args).Within R := by
  cases args with
  | nil => exact Value.within_none
  | cons v rest => exact within_first fun w mem => inside w (.tail _ mem)

theorem within_take (inside : KeywordsWithin R keywords) (key : String) :
    (∀ v, (take key keywords).1 = some v → v.Within R) ∧ KeywordsWithin R (take key keywords).2 := by
  constructor
  · intro v found
    obtain ⟨before, after, rfl, -⟩ := List.lookup_eq_some_iff.1 found
    exact inside (key, v) (by simp)
  · intro entry mem
    exact inside entry (List.mem_of_mem_eraseP mem)

end Arguments

open Arguments

/-! ### Texts -/

namespace TextMethods

@[simp] theorem stays_fill (args : Array Value) (keywords : Keywords) (next : Nat) (done : String)
    (parts : List FieldPart) : Stays R (fun _ => True) (fill args keywords next done parts) := by
  induction parts generalizing next done with
  | nil => simp [fill]
  | cons part rest ih =>
    cases part with
    | field f =>
      simp only [fill]
      apply Stays.before (.ofExcept_any _)
      intro v
      cases f.quote <;> simp [ih]
    | _ => simp [fill, ih]

@[simp] theorem stays_optionalText (name : String) (args : List Value) :
    Stays R (fun _ => True) (optionalText name args) := by
  unfold optionalText
  split <;> simp

@[simp] theorem stays_optionalInt (name : String) (v : Option Value) :
    Stays R (fun _ => True) (optionalInt name v) := by
  unfold optionalInt
  split <;> simp

@[simp] theorem stays_ofPieces (pieces : List (List Char)) : Stays R (Value.Within R) (ofPieces pieces) := by
  apply Stays.onHeap
  apply HeapM.stays_newList
  simp

@[simp] theorem stays_strip (name : String) (cut : (Char → Bool) → List Char → List Char) (self : String)
    (args : List Value) : Stays R (Value.Within R) (strip name cut self args) := by
  simp [strip]

@[simp] theorem stays_split (self : String) (args : List Value) : Stays R (Value.Within R) (split self args) := by
  unfold split
  apply Stays.before (stays_arity _ _ _ _)
  intro _
  apply Stays.before (stays_optionalText _ _)
  intro separator
  apply Stays.before (stays_optionalInt _ _)
  intro limit
  cases separator <;> simp

@[simp] theorem stays_textItems (i : Nat) (items : List Value) : Stays R (fun _ => True) (textItems i items) := by
  induction items generalizing i with
  | nil => simp [textItems]
  | cons v rest ih => cases v <;> simp [textItems, ih]

@[simp] theorem stays_replace (self : String) (args : List Value) :
    Stays R (Value.Within R) (replace self args) := by
  unfold replace
  apply Stays.before (stays_arity _ _ _ _)
  intro _
  apply Stays.before (stays_text _ _)
  intro old
  simp

@[simp] theorem stays_anyText (name : String) (test : List Char → Bool) (items : List Value) :
    Stays R (fun _ => True) (anyText name test items) := by
  induction items with
  | nil => simp [anyText]
  | cons v rest ih =>
    apply Stays.before (stays_text _ _)
    intro piece
    exact .choose (.done trivial) ih

@[simp] theorem stays_affix (name : String) (test : List Char → List Char → Bool) (self : String)
    (args : List Value) : Stays R (Value.Within R) (affix name test self args) := by
  simp [affix]

theorem stays_apply (m : StrMethod) (self : String) (args : List Value) (keywords : Keywords) :
    Stays R (Value.Within R) (TextMethods.apply m self args keywords) := by
  cases m with
  | find =>
    simp only [TextMethods.apply, reduceCtorEq, if_false]
    apply Stays.before (stays_noKeywords _ _)
    intro _
    apply Stays.before (stays_exactly _ _ _)
    intro _
    apply Stays.before (stays_text _ _)
    intro piece
    split <;> simp
  | join =>
    simp only [TextMethods.apply, reduceCtorEq, if_false]
    apply Stays.before (stays_noKeywords _ _)
    intro _
    apply Stays.before (stays_exactly _ _ _)
    intro _
    simp
  | count =>
    simp only [TextMethods.apply, reduceCtorEq, if_false]
    apply Stays.before (stays_noKeywords _ _)
    intro _
    simp
  | _ => simp [TextMethods.apply]

end TextMethods

/-! ### Lists and tuples -/

namespace ListMethods

variable {args items : List Value} {keywords : Keywords}

theorem stays_items {ref : Nat} (here : R.lists ref) :
    Stays R (fun items => ∀ v ∈ items, v.Within R) (ListMethods.items ref) := by
  apply Stays.reading
  intro cells begins v mem
  exact begins.list ref here v (by simpa using mem)

theorem stays_modify {ref : Nat} (here : R.lists ref) {change : Array Value → Array Value}
    (inside : ∀ items : Array Value, (∀ v ∈ items, v.Within R) → ∀ v ∈ change items, v.Within R) :
    Stays R (Value.Within R) (ListMethods.modify ref change) := by
  apply Stays.before (.onHeap (HeapM.stays_modifyList inside here))
  simp

@[simp] theorem stays_index (typeName : String) (items args : List Value) :
    Stays R (Value.Within R) (ListMethods.index typeName items args) := by
  unfold ListMethods.index
  apply Stays.before (stays_exactly _ _ _)
  intro _
  apply Stays.before (.readingExcept_any _)
  intro found
  cases found <;> simp

@[simp] theorem stays_count (items args : List Value) : Stays R (Value.Within R) (ListMethods.count items args) := by
  simp [ListMethods.count]

theorem stays_pop {ref : Nat} (here : R.lists ref) : Stays R (Value.Within R) (ListMethods.pop ref args) := by
  unfold ListMethods.pop
  apply Stays.before (stays_arity _ _ _ _)
  intro _
  apply Stays.before (.reading_any _)
  intro length
  apply Stays.checked (.raise _ _)
  intro _
  extract_lets take
  have taken (index : Int64) : Stays R (Value.Within R) (take index) := by
    unfold take
    split
    · simp
    · next i _ =>
      have removed : Stays R (Value.Within R) (Work.reading fun h => (h.list ref)[i]?.getD .none) := by
        apply Stays.reading
        intro cells begins
        cases found : (cells.list ref)[i]? with
        | none => simp
        | some v => exact begins.list ref here v (Array.mem_of_getElem? found)
      apply removed.andThen
      intro v v_within
      apply Stays.before
      · apply Stays.onHeap
        apply HeapM.stays_modifyList _ here
        intro items inside w mem
        exact inside w (Value.mem_eraseIdx mem)
      · intro _
        exact .done v_within
  cases args with
  | nil => exact taken _
  | cons v rest =>
    apply Stays.before (stays_int _ _)
    intro index
    exact taken _

theorem stays_remove {ref : Nat} (here : R.lists ref) : Stays R (Value.Within R) (ListMethods.remove ref args) := by
  unfold ListMethods.remove
  apply Stays.before (stays_exactly _ _ _)
  intro _
  apply Stays.before (.readingExcept_any _)
  intro found
  cases found with
  | none => simp
  | some i =>
    apply stays_modify here
    intro items inside w mem
    exact inside w (Value.mem_eraseIdx mem)

theorem stays_sortKeywords (inside : KeywordsWithin R keywords) :
    Stays R (fun given => (∀ v, given.1 = some v → v.Within R) ∧ KeywordsWithin R given.2.2)
      (sortKeywords keywords) := by
  obtain ⟨key, rest⟩ := within_take inside "key"
  have others := (within_take rest "reverse").2
  unfold sortKeywords
  simp only
  split
  · apply (Stays.truthy _).andThen
    intro reverse _
    exact .done ⟨key, others⟩
  · exact .done ⟨key, others⟩

theorem mem_appendList {items : Array Value} {new : List Value} {good : Value → Prop} (old : ∀ v ∈ items, good v)
    (more : ∀ v ∈ new, good v) : ∀ v ∈ items.appendList new, good v := by
  intro v mem
  rw [Array.appendList_eq_append, ← Array.mem_toList_iff, Array.toList_appendList, List.mem_append] at mem
  exact mem.elim (fun mem => old v (Array.mem_toList_iff.1 mem)) (more v)

theorem stays_withoutKeys (m : ListMethod) {ref : Nat} (here : R.lists ref) (inside : ∀ v ∈ args, v.Within R) :
    Stays R (Value.Within R) (withoutKeys m ref args keywords) := by
  have one := within_first inside
  have two := within_second inside
  unfold withoutKeys
  apply Stays.before (stays_noKeywords _ _)
  intro _
  cases m with
  | sort => simp
  | append =>
    apply Stays.before (stays_exactly _ _ _)
    intro _
    apply stays_modify here
    intro items old v mem
    obtain mem | rfl := Array.mem_push.1 mem
    · exact old v mem
    · exact one
  | extend =>
    apply Stays.before (stays_exactly _ _ _)
    intro _
    apply (Stays.items one).andThen
    intro new new_within
    apply stays_modify here
    exact fun items old => mem_appendList old new_within
  | insert =>
    apply Stays.before (stays_exactly _ _ _)
    intro _
    apply Stays.before (stays_int _ _)
    intro index
    apply stays_modify here
    intro items old v mem
    unfold Array.insertIdxIfInBounds at mem
    split at mem
    · obtain rfl | mem := Array.mem_insertIdx.1 mem
      · exact two
      · exact old v mem
    · exact old v mem
  | pop => exact stays_pop here
  | remove => exact stays_remove here
  | reverse =>
    apply Stays.before (stays_exactly _ _ _)
    intro _
    apply stays_modify here
    intro items old v mem
    exact old v (by simpa using mem)
  | copy =>
    apply Stays.before (stays_exactly _ _ _)
    intro _
    apply (stays_items here).andThen
    intro items items_within
    exact .onHeap (HeapM.stays_newList items_within)
  | clear =>
    apply Stays.before (stays_exactly _ _ _)
    intro _
    apply stays_modify here
    simp
  | index => exact (stays_items here).andThen fun _ _ => stays_index _ _ _
  | count => exact (stays_items here).andThen fun _ _ => stays_count _ _

end ListMethods

theorem TupleMethods.stays_apply (m : TupleMethod) (items args : List Value) (keywords : Keywords) :
    Stays R (Value.Within R) (TupleMethods.apply m items args keywords) := by
  cases m <;> simp [TupleMethods.apply]

/-! ### Dicts -/

namespace DictMethods

variable {args : List Value} {keywords : Keywords} {ref : Nat}

/-- Both parts of every entry are within the region. -/
def EntriesWithin (R : Region) (entries : List (Value × Value)) : Prop :=
  ∀ entry ∈ entries, entry.1.Within R ∧ entry.2.Within R

/-- Keywords are entries whose keys are texts. -/
theorem entriesWithin_keywords (inside : KeywordsWithin R keywords) :
    EntriesWithin R (keywords.map fun (key, value) => (.str key, value)) := by
  intro entry mem
  obtain ⟨keyword, among, rfl⟩ := List.mem_map.1 mem
  exact ⟨Value.within_str _, inside keyword among⟩

theorem stays_find? (here : R.dicts ref) (key : Value) :
    Stays R (fun found => ∀ v, found = some v → v.Within R) (find? ref key) := by
  apply Stays.readingExcept
  intro cells found begins read v stored
  obtain ⟨k, -, got⟩ := Value.ok_of_bind read
  exact (begins.dict ref here).find? ((Except.ok.inj got).trans stored)

theorem stays_put (here : R.dicts ref) {key value : Value} (key_within : key.Within R)
    (value_within : value.Within R) : Stays R (fun _ => True) (put ref key value) := by
  apply Stays.before (.ofExcept_any _)
  intro k
  apply Stays.onHeap
  apply HeapM.stays_modifyDict _ here
  intro d inside
  exact inside.put k key_within value_within

theorem stays_entries (here : R.dicts ref) : Stays R (EntriesWithin R) (entries ref) := by
  apply Stays.reading
  intro cells begins
  exact (begins.dict ref here).toList

theorem stays_pop (here : R.dicts ref) (inside : ∀ v ∈ args, v.Within R) :
    Stays R (Value.Within R) (DictMethods.pop ref args) := by
  unfold DictMethods.pop
  apply Stays.before (stays_arity _ _ _ _)
  intro _
  apply (stays_find? here _).andThen
  intro found found_within
  split
  · next v =>
    apply Stays.before (.ofExcept_any _)
    intro k
    apply Stays.before
    · apply Stays.onHeap
      apply HeapM.stays_modifyDict _ here
      intro d old
      exact old.erase k
    · intro _
      exact .done (found_within v rfl)
  · next default rest others =>
    exact .done (inside default (List.mem_of_mem_tail (others ▸ List.mem_cons_self)))
  · simp

theorem stays_setdefault (here : R.dicts ref) (inside : ∀ v ∈ args, v.Within R) :
    Stays R (Value.Within R) (setdefault ref args) := by
  unfold setdefault
  apply Stays.before (stays_arity _ _ _ _)
  intro _
  apply (stays_find? here _).andThen
  intro found found_within
  cases found with
  | some v => exact .done (found_within v rfl)
  | none =>
    apply Stays.before (stays_put here (within_first inside) (within_second inside))
    intro _
    exact .done (within_second inside)

theorem stays_pairs {items : List Value} (inside : ∀ v ∈ items, v.Within R) :
    Stays R (EntriesWithin R) (pairs items) := by
  induction items with
  | nil => exact .done (List.forall_mem_nil _)
  | cons pair rest ih =>
    rw [List.forall_mem_cons] at inside
    apply (Stays.items inside.1).andThen
    intro both both_within
    split
    · apply (ih inside.2).andThen
      intro more more_within
      simp only [List.forall_mem_cons] at both_within
      exact .done (List.forall_mem_cons.2 ⟨⟨both_within.1, both_within.2.1⟩, more_within⟩)
    · exact .raise _ _

theorem stays_putAll (here : R.dicts ref) {entries : List (Value × Value)} (inside : EntriesWithin R entries) :
    Stays R (fun _ => True) (putAll ref entries) := by
  induction entries with
  | nil => exact .done trivial
  | cons entry rest ih =>
    obtain ⟨first, others⟩ := List.forall_mem_cons.1 inside
    apply Stays.before (stays_put here first.1 first.2)
    intro _
    exact ih others

theorem stays_update (here : R.dicts ref) (inside : ∀ v ∈ args, v.Within R)
    (named : KeywordsWithin R keywords) : Stays R (Value.Within R) (update ref args keywords) := by
  have add {new : List (Value × Value)} (new_within : EntriesWithin R new) :
      Stays R (Value.Within R) (do
        putAll ref (new ++ keywords.map fun (key, value) => (.str key, value))
        return .none : Work Value) := by
    apply Stays.before
    · apply stays_putAll here
      intro entry mem
      exact (List.mem_append.1 mem).elim (new_within entry) (entriesWithin_keywords named entry)
    · intro _
      exact .done Value.within_none
  unfold update
  apply Stays.before (stays_arity _ _ _ _)
  intro _
  split
  · exact add (List.forall_mem_nil _)
  · next other rest =>
    have source : R.dicts other := by simpa only [Value.Within] using inside _ List.mem_cons_self
    apply (stays_entries source).andThen
    intro new new_within
    exact add new_within
  · next v rest _ =>
    apply (Stays.items (inside v List.mem_cons_self)).andThen
    intro items items_within
    apply (stays_pairs items_within).andThen
    intro new new_within
    exact add new_within

theorem stays_apply (m : DictMethod) (here : R.dicts ref) (inside : ∀ v ∈ args, v.Within R)
    (named : KeywordsWithin R keywords) : Stays R (Value.Within R) (DictMethods.apply m ref args keywords) := by
  unfold DictMethods.apply
  apply Stays.checked (stays_noKeywords _ _)
  intro _
  cases m with
  | update => exact stays_update here inside named
  | get =>
    apply Stays.before (stays_arity _ _ _ _)
    intro _
    apply (stays_find? here _).map
    intro found found_within
    cases found with
    | some v => exact found_within v rfl
    | none => exact within_second inside
  | keys =>
    apply Stays.before (stays_exactly _ _ _)
    intro _
    apply (stays_entries here).andThen
    intro entries entries_within
    apply Stays.onHeap
    apply HeapM.stays_newList
    intro key mem
    obtain ⟨entry, among, rfl⟩ := List.mem_map.1 mem
    exact (entries_within entry among).1
  | values =>
    apply Stays.before (stays_exactly _ _ _)
    intro _
    apply (stays_entries here).andThen
    intro entries entries_within
    apply Stays.onHeap
    apply HeapM.stays_newList
    intro value mem
    obtain ⟨entry, among, rfl⟩ := List.mem_map.1 mem
    exact (entries_within entry among).2
  | items =>
    apply Stays.before (stays_exactly _ _ _)
    intro _
    apply (stays_entries here).andThen
    intro entries entries_within
    apply Stays.onHeap
    apply Confined.andThen (HeapM.stays_newPairs entries_within)
    intro items items_within
    exact HeapM.stays_newList items_within
  | pop => exact stays_pop here inside
  | setdefault => exact stays_setdefault here inside
  | copy =>
    apply Stays.before (stays_exactly _ _ _)
    intro _
    have whole : Stays R (Dict.Within R) (Work.reading fun h => h.dict ref) :=
      .reading fun cells begins => begins.dict ref here
    apply whole.andThen
    intro d d_within
    exact .onHeap (HeapM.stays_newDict d_within)
  | clear =>
    apply Stays.before (stays_exactly _ _ _)
    intro _
    apply Stays.before
    · apply Stays.onHeap
      apply HeapM.stays_modifyDict _ here
      intro d _
      exact Dict.within_empty
    · intro _
      exact .done Value.within_none

end DictMethods

end SnippetKernel
