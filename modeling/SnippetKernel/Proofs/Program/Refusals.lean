import SnippetKernel.Program.Call
import SnippetKernel.Proofs.Value.Ordinary

/-! What the functions and methods that are always there raise. They say what is wrong with their arguments, and that
is never a `SyntaxError`. -/
namespace SnippetKernel

def Refusal.Ordinary : Refusal → Prop
  | exception e => e.Ordinary
  | crash _ => True

namespace Work

variable {α β : Type}

instance : Inhabited Reach := ⟨⟨default, ⟨default, default⟩, #[]⟩⟩

/-- Work that raises no `SyntaxError`. -/
abbrev Ordinary (work : Work α) : Prop := FailsWith Refusal.Ordinary work

@[simp] theorem ordinary_raise {kind : ExceptionKind} {message : String} :
    Ordinary (Work.raise kind message : Work α) ↔ kind ≠ .syntaxError := FailsWith.throw_iff

@[simp] theorem ordinary_raiseTypeError (message : String) : Ordinary (Work.raiseTypeError message : Work α) :=
  ordinary_raise.2 nofun

@[simp] theorem ordinary_ofExcept {result : Except Exception α} :
    Ordinary (Work.ofExcept result) ↔ OrdinaryResult result := by
  cases result with
  | ok a => simp [Work.ofExcept]
  | error e => simp [Work.ofExcept, Refusal.Ordinary]

@[simp] theorem ordinary_onHeap {work : HeapM α} : Ordinary (Work.onHeap work) ↔ HeapM.Ordinary work := by
  constructor
  · intro fails cells e cells' ended
    apply fails ⟨cells, (default : Reach).clock, #[]⟩ (.exception e) ⟨cells', (default : Reach).clock, #[]⟩
    simp only [Work.onHeap, ended]
  · rintro inner ⟨cells, clock, writes⟩ refusal r failed
    unfold Work.onHeap at failed
    cases ended : work cells with
    | ok a cells =>
      simp only [ended] at failed
      cases failed
    | error e cells' =>
      simp only [ended] at failed
      cases failed
      exact inner cells e cells' ended

@[simp] theorem ordinary_reading (read : Cells → α) : Ordinary (Work.reading read) := nofun

@[simp] theorem ordinary_readingExcept {read : Cells → Except Exception α} :
    Ordinary (Work.readingExcept read) ↔ ∀ h, OrdinaryResult (read h) := by
  constructor
  · intro fails h e found
    apply fails ⟨h, (default : Reach).clock, #[]⟩ (.exception e) ⟨h, (default : Reach).clock, #[]⟩
    simp only [Work.readingExcept, found]
  · intro errs r refusal s failed
    unfold Work.readingExcept at failed
    split at failed
    · cases failed
    · next e found =>
      cases failed
      exact errs r.cells e found

@[simp] theorem ordinary_write (s : Stream) (text : String) : Ordinary (Work.write s text) := nofun

@[simp] theorem ordinary_clock : Ordinary Work.clock := nofun

@[simp] theorem ordinary_display (v : Value) : Ordinary (Work.display v) := nofun

@[simp] theorem ordinary_repr (v : Value) : Ordinary (Work.repr v) := nofun

@[simp] theorem ordinary_truthy (v : Value) : Ordinary (Work.truthy v) := nofun

@[simp] theorem ordinary_items (v : Value) : Ordinary (Work.items v) := ordinary_readingExcept.2 fun _ => v.ordinary_items

@[simp] theorem ordinary_format (v : Value) (spec : String) : Ordinary (Work.format v spec) := by
  intro r refusal s failed
  unfold Work.format at failed
  split at failed
  · cases failed
  · next e made =>
    cases failed
    exact Value.formats_format r.cells v spec _ made
  · cases failed
    trivial

/-- Work that is checked first if there is something to check. -/
theorem Ordinary.checked {c : Prop} [Decidable c] {check : Work Unit} {next : Unit → Work α} (first : Ordinary check)
    (second : ∀ u, Ordinary (next u)) : Ordinary (if c then check >>= next else next ()) :=
  FailsWith.choose (first.andThen second) (second ())

end Work

open Work

namespace Arguments

@[simp] theorem ordinary_arity (name : String) (args : List Value) (least : Nat) (most : Option Nat) :
    Ordinary (arity name args least most) := by
  simp [arity]

@[simp] theorem ordinary_exactly (name : String) (args : List Value) (n : Nat) : Ordinary (exactly name args n) :=
  ordinary_arity name args n _

@[simp] theorem ordinary_noKeywords (name : String) (keywords : Keywords) : Ordinary (noKeywords name keywords) := by
  cases keywords <;> simp [noKeywords]

@[simp] theorem ordinary_int (name : String) (v : Value) : Ordinary (int name v) := by
  unfold int
  split <;> simp

@[simp] theorem ordinary_number (name : String) (v : Value) : Ordinary (number name v) := by
  unfold number
  split <;> simp

@[simp] theorem ordinary_text (name : String) (v : Value) : Ordinary (text name v) := by
  cases v <;> simp [text]

end Arguments

open Arguments

/-! ### Texts -/

namespace TextMethods

@[simp] theorem ordinary_fieldValue (f : Field) (args : Array Value) (keywords : Keywords) (next : Nat) :
    OrdinaryResult (fieldValue f args keywords next) := by
  unfold fieldValue
  extract_lets positional
  have ordinary (i : Nat) : OrdinaryResult (positional i) := by
    unfold positional
    split <;> simp [noArgument]
  split
  · exact ordinary next
  · split
    · exact ordinary _
    · split <;> simp

@[simp] theorem ordinary_fill (args : Array Value) (keywords : Keywords) (next : Nat) (done : String)
    (parts : List FieldPart) : Ordinary (fill args keywords next done parts) := by
  induction parts generalizing next done with
  | nil => simp [fill]
  | cons part rest ih =>
    cases part with
    | field f =>
      simp only [fill]
      apply FailsWith.andThen
      · simp
      · intro v
        cases f.quote <;> simp [ih]
    | _ => simp [fill, ih]

@[simp] theorem ordinary_optionalText (name : String) (args : List Value) : Ordinary (optionalText name args) := by
  unfold optionalText
  split <;> simp

@[simp] theorem ordinary_optionalInt (name : String) (v : Option Value) : Ordinary (optionalInt name v) := by
  cases v <;> simp [optionalInt]

@[simp] theorem ordinary_ofPieces (pieces : List (List Char)) : Ordinary (ofPieces pieces) := by simp [ofPieces]

@[simp] theorem ordinary_strip (name : String) (cut : (Char → Bool) → List Char → List Char) (self : String)
    (args : List Value) : Ordinary (strip name cut self args) := by
  simp [strip]

@[simp] theorem ordinary_split (self : String) (args : List Value) : Ordinary (split self args) := by
  unfold split
  apply FailsWith.andThen (ordinary_arity _ _ _ _)
  intro _
  apply FailsWith.andThen (ordinary_optionalText _ _)
  intro separator
  cases separator <;> simp

@[simp] theorem ordinary_textItems (i : Nat) (items : List Value) : Ordinary (textItems i items) := by
  induction items generalizing i with
  | nil => simp [textItems]
  | cons v rest ih => cases v <;> simp [textItems, ih]

@[simp] theorem ordinary_replace (self : String) (args : List Value) : Ordinary (replace self args) := by
  unfold replace
  apply FailsWith.andThen (ordinary_arity _ _ _ _)
  intro _
  apply FailsWith.andThen (ordinary_text _ _)
  simp

@[simp] theorem ordinary_anyText (name : String) (test : List Char → Bool) (items : List Value) :
    Ordinary (anyText name test items) := by
  induction items with
  | nil => simp [anyText]
  | cons v rest ih => simp [anyText, ih]

@[simp] theorem ordinary_affix (name : String) (test : List Char → List Char → Bool) (self : String)
    (args : List Value) : Ordinary (affix name test self args) := by
  simp [affix]

theorem ordinary_apply (m : StrMethod) (self : String) (args : List Value) (keywords : Keywords) :
    Ordinary (TextMethods.apply m self args keywords) := by
  cases m with
  | find =>
    simp only [TextMethods.apply, reduceCtorEq, if_false]
    apply FailsWith.andThen (ordinary_noKeywords _ _)
    intro _
    apply FailsWith.andThen (ordinary_exactly _ _ _)
    intro _
    apply FailsWith.andThen (ordinary_text _ _)
    intro piece
    split <;> simp
  | join =>
    simp only [TextMethods.apply, reduceCtorEq, if_false]
    apply FailsWith.andThen (ordinary_noKeywords _ _)
    simp
  | count =>
    simp only [TextMethods.apply, reduceCtorEq, if_false]
    apply FailsWith.andThen (ordinary_noKeywords _ _)
    simp
  | _ => simp [TextMethods.apply]

end TextMethods

/-! ### Lists, tuples and dicts -/

namespace ListMethods

@[simp] theorem ordinary_items (ref : Nat) : Ordinary (ListMethods.items ref) := nofun

@[simp] theorem ordinary_modify (ref : Nat) (change : Array Value → Array Value) :
    Ordinary (ListMethods.modify ref change) := by
  simp [ListMethods.modify]

@[simp] theorem ordinary_index (typeName : String) (items args : List Value) :
    Ordinary (ListMethods.index typeName items args) := by
  unfold ListMethods.index
  apply FailsWith.andThen (ordinary_exactly _ _ _)
  intro _
  apply FailsWith.andThen
  · simp
  · intro found
    cases found <;> simp

@[simp] theorem ordinary_count (items args : List Value) : Ordinary (ListMethods.count items args) := by
  simp [ListMethods.count]

@[simp] theorem ordinary_pop (ref : Nat) (args : List Value) : Ordinary (ListMethods.pop ref args) := by
  unfold ListMethods.pop
  apply FailsWith.andThen (ordinary_arity _ _ _ _)
  intro _
  apply FailsWith.andThen (ordinary_reading _)
  intro length
  apply Ordinary.checked
  · simp
  · intro _
    extract_lets take
    have taken (index : Int64) : Ordinary (take index) := by
      unfold take
      split <;> simp
    cases args with
    | nil => exact taken _
    | cons v rest =>
      apply FailsWith.andThen (ordinary_int _ _)
      intro index
      exact taken _

@[simp] theorem ordinary_remove (ref : Nat) (args : List Value) : Ordinary (ListMethods.remove ref args) := by
  unfold ListMethods.remove
  apply FailsWith.andThen (ordinary_exactly _ _ _)
  intro _
  apply FailsWith.andThen
  · simp
  · intro found
    cases found <;> simp

@[simp] theorem ordinary_sortKeywords (keywords : Keywords) : Ordinary (sortKeywords keywords) := by
  unfold sortKeywords
  simp only
  split <;> simp

@[simp] theorem ordinary_withoutKeys (m : ListMethod) (ref : Nat) (args : List Value) (keywords : Keywords) :
    Ordinary (withoutKeys m ref args keywords) := by
  apply FailsWith.andThen (ordinary_noKeywords _ _)
  intro _
  cases m with
  | extend =>
    apply FailsWith.andThen (ordinary_exactly _ _ _)
    simp
  | insert =>
    apply FailsWith.andThen (ordinary_exactly _ _ _)
    simp
  | copy =>
    apply FailsWith.andThen (ordinary_exactly _ _ _)
    simp
  | _ => simp

end ListMethods

@[simp] theorem TupleMethods.ordinary_apply (m : TupleMethod) (items args : List Value) (keywords : Keywords) :
    Ordinary (TupleMethods.apply m items args keywords) := by
  cases m <;> simp [TupleMethods.apply]

namespace DictMethods

@[simp] theorem ordinary_find? (ref : Nat) (key : Value) : Ordinary (find? ref key) := by simp [find?]

@[simp] theorem ordinary_put (ref : Nat) (key value : Value) : Ordinary (put ref key value) := by simp [put]

@[simp] theorem ordinary_entries (ref : Nat) : Ordinary (entries ref) := nofun

@[simp] theorem ordinary_pop (ref : Nat) (args : List Value) : Ordinary (DictMethods.pop ref args) := by
  unfold DictMethods.pop
  apply FailsWith.andThen (ordinary_arity _ _ _ _)
  intro _
  apply FailsWith.andThen (ordinary_find? _ _)
  intro found
  split <;> simp

@[simp] theorem ordinary_setdefault (ref : Nat) (args : List Value) : Ordinary (setdefault ref args) := by
  unfold setdefault
  apply FailsWith.andThen (ordinary_arity _ _ _ _)
  intro _
  apply FailsWith.andThen (ordinary_find? _ _)
  intro found
  cases found <;> simp

@[simp] theorem ordinary_pairs (items : List Value) : Ordinary (pairs items) := by
  induction items with
  | nil => simp [pairs]
  | cons pair rest ih =>
    apply FailsWith.andThen (ordinary_items _)
    intro both
    split <;> simp [ih]

@[simp] theorem ordinary_putAll (ref : Nat) (entries : List (Value × Value)) : Ordinary (putAll ref entries) := by
  induction entries with
  | nil => simp [putAll]
  | cons entry rest ih => simp [putAll, ih]

@[simp] theorem ordinary_update (ref : Nat) (args : List Value) (keywords : Keywords) :
    Ordinary (update ref args keywords) := by
  unfold update
  apply FailsWith.andThen (ordinary_arity _ _ _ _)
  intro _
  split <;> simp

@[simp] theorem ordinary_apply (m : DictMethod) (ref : Nat) (args : List Value) (keywords : Keywords) :
    Ordinary (DictMethods.apply m ref args keywords) := by
  unfold DictMethods.apply
  apply Ordinary.checked (ordinary_noKeywords _ _)
  intro _
  cases m with
  | items =>
    apply FailsWith.andThen (ordinary_exactly _ _ _)
    simp
  | _ => simp

end DictMethods

/-! ### Types -/

@[simp] theorem ordinary_intOfDouble (d : Double) : OrdinaryResult (intOfDouble d) := by
  simp only [intOfDouble, ErrsWith.ite_iff]
  constructor
  · simp
  · intro _
    constructor
    · simp
    · intro _
      split <;> simp

@[simp] theorem IntText.ordinary_parse (base : Int64) (text : String) : OrdinaryResult (IntText.parse base text) := by
  simp only [IntText.parse, ErrsWith.ite_iff]
  constructor
  · simp
  · intro _
    split
    · simp
    · split <;> simp

@[simp] theorem ordinary_parseFloat (text : String) : OrdinaryResult (parseFloat text) := by
  simp only [parseFloat]
  split <;> simp

namespace Construct

@[simp] theorem ordinary_toInt (args : List Value) (keywords : Keywords) : Ordinary (toInt args keywords) := by
  unfold toInt
  apply FailsWith.andThen (ordinary_noKeywords _ _)
  intro _
  apply FailsWith.andThen (ordinary_arity _ _ _ _)
  intro _
  extract_lets convert
  have converted (base : Option Int64) : Ordinary (convert base) := by
    unfold convert
    split
    · simp
    · simp
    · simp
    · simp
    · split <;> simp
  split
  · apply FailsWith.andThen (ordinary_int _ _)
    intro base
    exact converted _
  · exact converted _

@[simp] theorem ordinary_toFloat (args : List Value) : Ordinary (toFloat args) := by
  unfold toFloat
  split
  · simp
  · simp
  · split <;> simp

@[simp] theorem ordinary_toTuple (args : List Value) : Ordinary (toTuple args) := by
  unfold toTuple
  split <;> simp

@[simp] theorem ordinary_insertPairs (i : Nat) (d : Dict) (items : List Value) : Ordinary (insertPairs i d items) := by
  induction items generalizing i d with
  | nil => simp [insertPairs]
  | cons pair rest ih =>
    apply FailsWith.andThen (ordinary_items _)
    intro both
    split <;> simp [ih]

@[simp] theorem ordinary_insertEntries (d : Dict) (entries : List (Value × Value)) :
    Ordinary (insertEntries d entries) := by
  induction entries generalizing d with
  | nil => simp [insertEntries]
  | cons entry rest ih => simp [insertEntries, ih]

@[simp] theorem ordinary_toDict (args : List Value) (keywords : Keywords) : Ordinary (toDict args keywords) := by
  unfold toDict
  apply FailsWith.andThen (ordinary_arity _ _ _ _)
  intro _
  split
  · simp
  · apply FailsWith.andThen (ordinary_reading _)
    simp
  · apply FailsWith.andThen (ordinary_items _)
    simp

@[simp] theorem ordinary_ints (items : List Value) : Ordinary (ints items) := by
  induction items with
  | nil => simp [ints]
  | cons v rest ih =>
    unfold ints
    split <;> simp [ih]

@[simp] theorem ordinary_toRange (args : List Value) : Ordinary (toRange args) := by
  unfold toRange
  apply FailsWith.andThen (ordinary_arity _ _ _ _)
  intro _
  apply FailsWith.andThen (ordinary_ints _)
  simp

@[simp] theorem ordinary_exceptionMessage (args : List Value) : Ordinary (exceptionMessage args) := by
  unfold exceptionMessage
  split <;> simp

/-- Calling the class `SyntaxError` makes an exception, and raises none. -/
@[simp] theorem ordinary_apply (t : ValueType) (args : List Value) (keywords : Keywords) :
    Ordinary (Construct.apply t args keywords) := by
  have single {next : Unit → Work Value} (then_ : ∀ u, Ordinary (next u)) :
      Ordinary ((do noKeywords t.text keywords; arity t.text args 0 (some 1)) >>= next) := by
    apply FailsWith.andThen _ then_
    simp
  cases t with
  | int | dict | range | exception => simp [Construct.apply]
  | float | tuple => exact single (by simp)
  | str =>
    apply single
    intro _
    cases args <;> simp
  | bool =>
    apply single
    intro _
    cases args <;> simp
  | list =>
    apply single
    intro _
    cases args <;> simp
  | _ => simp [Construct.apply]

end Construct

/-! ### Functions that call nothing -/

namespace Builtins

@[simp] theorem ordinary_textKeyword (name key : String) (keywords : Keywords) (default : String) :
    Ordinary (textKeyword name key keywords default) := by
  simp only [textKeyword]
  split <;> simp

@[simp] theorem ordinary_displays (args : List Value) : Ordinary (displays args) := by
  induction args with
  | nil => simp [displays]
  | cons v rest ih => simp [displays, ih]

@[simp] theorem ordinary_print (args : List Value) (keywords : Keywords) : Ordinary (print args keywords) := by
  have written (stream : Stream) (separator ending : String) (keywords : Keywords) : Ordinary (do
      noKeywords "print" keywords
      let pieces ← displays args
      Work.write stream (String.ofList (Text.join separator.toList pieces) ++ ending)
      return .none : Work Value) := by
    apply FailsWith.andThen (ordinary_noKeywords _ _)
    simp
  unfold print
  apply FailsWith.andThen (ordinary_textKeyword _ _ _ _)
  intro separator
  apply FailsWith.andThen (ordinary_textKeyword _ _ _ _)
  intro ending
  dsimp only
  split
  · exact written _ _ _ _
  · exact written _ _ _ _
  · exact written _ _ _ _
  · apply FailsWith.andThen
    · simp [Value.ordinary_noAttribute]
    · exact fun _ => written _ _ _ _

@[simp] theorem ordinary_len (v : Value) : Ordinary (len v) := by
  cases v <;> simp [len]

@[simp] theorem ordinary_abs (v : Value) : Ordinary (Builtins.abs v) := by
  unfold Builtins.abs
  split
  · simp
  · split <;> simp
  · simp

@[simp] theorem ordinary_candidates (args : List Value) : Ordinary (candidates args) := by
  unfold candidates
  split <;> simp

@[simp] theorem ordinary_addAll (total : Value) (items : List Value) : Ordinary (addAll total items) := by
  induction items generalizing total with
  | nil => simp [addAll]
  | cons v rest ih => simp [addAll, ih]

@[simp] theorem ordinary_sum (args : List Value) (keywords : Keywords) : Ordinary (Builtins.sum args keywords) := by
  unfold Builtins.sum
  apply FailsWith.andThen (ordinary_noKeywords _ _)
  intro _
  apply FailsWith.andThen (ordinary_arity _ _ _ _)
  intro _
  dsimp only
  split <;> simp

@[simp] theorem ordinary_round (args : List Value) : Ordinary (Builtins.round args) := by
  unfold Builtins.round
  apply FailsWith.andThen (ordinary_arity _ _ _ _)
  intro _
  extract_lets round
  have rounded (digits : Option Int64) : Ordinary (round digits) := by
    unfold round
    split
    · simp
    · simp
    · split <;> simp
  split
  · exact rounded _
  · exact rounded _
  · apply FailsWith.andThen (ordinary_int _ _)
    intro digits
    exact rounded _

@[simp] theorem ordinary_isAny (actual : ValueType) (classes : List Value) : Ordinary (isAny actual classes) := by
  induction classes with
  | nil => simp [isAny]
  | cons v rest ih => cases v <;> simp [isAny, ih]

@[simp] theorem ordinary_isinstance (args : List Value) : Ordinary (isinstance args) := by
  simp [isinstance]

@[simp] theorem ordinary_numbered (i : Int) (items : List Value) : Ordinary (numbered i items) := by
  induction items generalizing i with
  | nil => simp [numbered]
  | cons v rest ih =>
    unfold numbered
    split <;> simp [ih]

@[simp] theorem ordinary_enumerate (args : List Value) (keywords : Keywords) :
    Ordinary (enumerate args keywords) := by
  unfold enumerate
  dsimp -zeta only
  extract_lets pair count
  have paired (start : Int64) : Ordinary (pair start) := by
    apply FailsWith.andThen (ordinary_items _)
    simp
  have counted (start : Int64) : Ordinary (count start) := by
    apply FailsWith.andThen (ordinary_noKeywords _ _)
    intro _
    apply FailsWith.andThen (ordinary_arity _ _ _ _)
    intro _
    split
    · exact FailsWith.andThen (ordinary_int _ _) fun _ => paired _
    · exact paired _
  split
  · exact FailsWith.andThen (ordinary_int _ _) fun _ => counted _
  · exact counted _

@[simp] theorem ordinary_columns (items : List Value) : Ordinary (columns items) := by
  induction items with
  | nil => simp [columns]
  | cons v rest ih => simp [columns, ih]

@[simp] theorem ordinary_newTuples (rows : List (List Value)) : HeapM.Ordinary (newTuples rows) := by
  induction rows with
  | nil => simp [newTuples]
  | cons row rest ih => simp [newTuples, ih]

@[simp] theorem ordinary_zip (args : List Value) : Ordinary (Builtins.zip args) := by simp [Builtins.zip]

@[simp] theorem ordinary_truths (items : List Value) : Ordinary (truths items) := by
  induction items with
  | nil => simp [truths]
  | cons v rest ih => simp [truths, ih]

@[simp] theorem ordinary_chr (v : Value) : Ordinary (Builtins.chr v) := by
  apply FailsWith.andThen (ordinary_int _ _)
  intro code
  split <;> simp

@[simp] theorem ordinary_ord (v : Value) : Ordinary (Builtins.ord v) := by
  apply FailsWith.andThen (ordinary_text _ _)
  intro s
  split <;> simp

@[simp] theorem ordinary_divmod (a b : Value) : Ordinary (divmod a b) := by
  apply FailsWith.andThen
  · simp
  · simp

@[simp] theorem ordinary_formatted (args : List Value) : Ordinary (Builtins.format args) := by
  unfold Builtins.format
  apply FailsWith.andThen (ordinary_arity _ _ _ _)
  intro _
  split <;> simp

@[simp] theorem ordinary_domainError {α : Type} : Ordinary (domainError : Work α) := ordinary_raise.2 nofun

theorem ordinary_onNumber (name : String) (args : List Value) {f : Double → Work Double}
    (inner : ∀ d, Ordinary (f d)) : Ordinary (onNumber name args f) := by
  apply FailsWith.andThen (ordinary_exactly _ _ _)
  simp [inner]

@[simp] theorem ordinary_rounding (name : String) (round : Double → Double) (args : List Value) :
    Ordinary (rounding name round args) := by
  apply FailsWith.andThen (ordinary_exactly _ _ _)
  intro _
  split <;> simp

@[simp] theorem ordinary_log (args : List Value) : Ordinary (Builtins.log args) := by
  unfold Builtins.log
  apply FailsWith.andThen (ordinary_arity _ _ _ _)
  intro _
  apply FailsWith.andThen (ordinary_number _ _)
  intro d
  apply Ordinary.checked ordinary_domainError
  intro _
  split <;> simp

@[simp] theorem ordinary_sleep (args : List Value) : Ordinary (sleep args) := by
  unfold sleep
  apply FailsWith.andThen (ordinary_exactly _ _ _)
  intro _
  apply FailsWith.andThen (ordinary_number _ _)
  intro seconds
  apply Ordinary.checked
  · simp
  · simp [Refusal.Ordinary]

theorem ordinary_single (name : String) (args : List Value) (keywords : Keywords) {f : Value → Work Value}
    (inner : ∀ v, Ordinary (f v)) : Ordinary (single name args keywords f) := by
  simp [single, inner]

end Builtins

namespace Call

@[simp] theorem ordinary_fillSlot (code : Code) (slots : Array (Option Value)) (key : String) (v : Value) :
    OrdinaryResult (fillSlot code slots key v) := by
  unfold fillSlot
  split
  · simp
  · split <;> simp

@[simp] theorem ordinary_fillSlots (code : Code) (slots : Array (Option Value)) (keywords : Keywords) :
    OrdinaryResult (fillSlots code slots keywords) := by
  induction keywords generalizing slots with
  | nil => simp [fillSlots]
  | cons keyword rest ih => simp [fillSlots, ih]

@[simp] theorem ordinary_bindArguments (code : Code) (defaults : List (Option Value)) (args : List Value)
    (keywords : Keywords) : OrdinaryResult (bindArguments code defaults args keywords) := by
  simp only [bindArguments, ErrsWith.ite_iff]
  constructor
  · intro _
    simp
  · intro _
    rw [ErrsWith.bind_iff]
    refine ⟨by simp, fun slots _ => ?_⟩
    split <;> simp

@[simp] theorem ordinary_streamMethod (s : Stream) (m : StreamMethod) (args : List Value) (keywords : Keywords) :
    Ordinary (streamMethod s m args keywords) := by
  cases m with
  | flush => simp [streamMethod]
  | write =>
    apply FailsWith.andThen (ordinary_noKeywords _ _)
    intro _
    apply FailsWith.andThen (ordinary_exactly _ _ _)
    intro _
    split <;> simp

end Call

end SnippetKernel
