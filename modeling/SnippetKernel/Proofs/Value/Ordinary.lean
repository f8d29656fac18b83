import SnippetKernel.Value.FormatSpec
import SnippetKernel.Value.Items

/-! What operations on values raise. An operation that fails says so with an exception of its own, and that is never
a `SyntaxError`: only a text can be wrong in that way, and no operation reads one. -/
namespace SnippetKernel

section

variable {ε σ α β : Type} {allowed : ε → Prop}

/-- Whatever error the result is, it is allowed. -/
def ErrsWith (allowed : ε → Prop) (result : Except ε α) : Prop := ∀ e, result = .error e → allowed e

/-- Whatever cuts the work short is allowed. -/
def FailsWith (allowed : ε → Prop) (work : EStateM ε σ α) : Prop := ∀ s e t, work s = .error e t → allowed e

namespace ErrsWith

variable {result : Except ε α} {next : α → Except ε β} {e : ε}

@[simp] theorem ok (a : α) : ErrsWith allowed (.ok a : Except ε α) := nofun

@[simp] theorem done (a : α) : ErrsWith allowed (pure a : Except ε α) := nofun

@[simp] theorem error_iff : ErrsWith allowed (.error e : Except ε α) ↔ allowed e := by
  constructor
  · intro errs
    exact errs e rfl
  · rintro here _ ⟨⟩
    exact here

@[simp] theorem throw_iff : ErrsWith allowed (throw e : Except ε α) ↔ allowed e := error_iff

@[simp] theorem bind_iff :
    ErrsWith allowed (result >>= next) ↔ ErrsWith allowed result ∧ ∀ a, result = .ok a → ErrsWith allowed (next a) := by
  cases result with
  | error e =>
    change ErrsWith allowed (.error e) ↔ _
    simp
  | ok a =>
    change ErrsWith allowed (next a) ↔ _
    simp

@[simp] theorem map_iff {f : α → β} : ErrsWith allowed (f <$> result) ↔ ErrsWith allowed result := by
  cases result with
  | error e =>
    change ErrsWith allowed (.error e) ↔ _
    simp
  | ok a =>
    change ErrsWith allowed (.ok _) ↔ _
    simp

@[simp] theorem exceptMap_iff {f : α → β} : ErrsWith allowed (result.map f) ↔ ErrsWith allowed result := map_iff

@[simp] theorem ite_iff {c : Prop} [Decidable c] {yes no : Except ε α} :
    ErrsWith allowed (if c then yes else no) ↔ (c → ErrsWith allowed yes) ∧ (¬c → ErrsWith allowed no) := by
  split <;> simp_all

end ErrsWith

namespace FailsWith

variable {work : EStateM ε σ α} {next : α → EStateM ε σ β}

@[simp] theorem done (a : α) : FailsWith allowed (pure a : EStateM ε σ α) := nofun

theorem thrown {e : ε} (here : allowed e) : FailsWith allowed (throw e : EStateM ε σ α) := by
  rintro s _ t ⟨⟩
  exact here

@[simp] theorem throw_iff [Inhabited σ] {e : ε} : FailsWith allowed (throw e : EStateM ε σ α) ↔ allowed e := by
  constructor
  · intro fails
    exact fails default e default rfl
  · exact thrown

theorem mono {more : ε → Prop} (fails : FailsWith allowed work) (weaker : ∀ e, allowed e → more e) :
    FailsWith more work :=
  fun s e t failed => weaker e (fails s e t failed)

@[simp] theorem andThen (first : FailsWith allowed work) (second : ∀ a, FailsWith allowed (next a)) :
    FailsWith allowed (work >>= next) := by
  intro s e t failed
  change EStateM.bind work next s = .error e t at failed
  unfold EStateM.bind at failed
  cases ended : work s with
  | ok a s' =>
    rw [ended] at failed
    exact second a s' e t failed
  | error e' s' =>
    rw [ended] at failed
    cases failed
    exact first s e t ended

@[simp] theorem map_iff {f : α → β} : FailsWith allowed (f <$> work) ↔ FailsWith allowed work := by
  constructor
  · intro fails s e t failed
    apply fails s e t
    change EStateM.map f work s = .error e t
    rw [EStateM.map, failed]
  · intro fails
    rw [map_eq_pure_bind]
    exact fails.andThen fun a => done (f a)

theorem choose {c : Prop} [Decidable c] {yes no : EStateM ε σ α} (first : FailsWith allowed yes)
    (second : FailsWith allowed no) : FailsWith allowed (if c then yes else no) := by
  split
  · exact first
  · exact second

@[simp] theorem ite_iff {c : Prop} [Decidable c] {yes no : EStateM ε σ α} :
    FailsWith allowed (if c then yes else no) ↔ (c → FailsWith allowed yes) ∧ (¬c → FailsWith allowed no) := by
  split <;> simp_all

/-- Work that looks at the state first. -/
theorem look {next : σ → EStateM ε σ β} (second : ∀ s, FailsWith allowed (next s)) :
    FailsWith allowed (get >>= next) := fun s => second s s

@[simp] theorem change (f : σ → σ) : FailsWith allowed (modify f : EStateM ε σ Unit) := nofun

@[simp] theorem changeGet (f : σ → α × σ) : FailsWith allowed (modifyGet f : EStateM ε σ α) := nofun

end FailsWith

end

/-- The exception is no `SyntaxError`. -/
def Exception.Ordinary (e : Exception) : Prop := e.kind ≠ .syntaxError

namespace Exception

@[simp] theorem ordinary_mk {kind : ExceptionKind} {message : String} :
    Exception.Ordinary ⟨kind, message⟩ ↔ kind ≠ .syntaxError := Iff.rfl

@[simp] theorem ordinary_typeError (message : String) : (typeError message).Ordinary := nofun

@[simp] theorem ordinary_valueError (message : String) : (valueError message).Ordinary := nofun

end Exception

/-- A result that is no `SyntaxError`. -/
abbrev OrdinaryResult {α : Type} (result : Except Exception α) : Prop := ErrsWith Exception.Ordinary result

/-! ### Keys -/

namespace Value

mutual

/-- Only the type of a value can keep it from being a key. -/
theorem errs_key (v : Value) : ErrsWith (fun e => e.kind = .type) v.key := by
  cases v with
  | tuple _ items =>
    have parts := errs_keys items
    unfold key
    cases found : keys items with
    | ok _ => simp
    | error e => simpa [found] using parts
  | _ => simp [key, unhashable, Exception.typeError]

theorem errs_keys (items : List Value) : ErrsWith (fun e => e.kind = .type) (keys items) := by
  cases items with
  | nil => simp [keys]
  | cons v rest =>
    have first := errs_key v
    have others := errs_keys rest
    unfold keys
    cases found : v.key with
    | error e => simpa [found] using first
    | ok parts =>
      cases more : keys rest with
      | ok _ => simp
      | error e => simpa [more] using others

end

@[simp] theorem ordinary_key (v : Value) : OrdinaryResult v.key := by
  intro e raised syntactic
  cases (errs_key v e raised).symm.trans syntactic

end Value

namespace Dict

@[simp] theorem ordinary_get? (d : Dict) (key : Value) : OrdinaryResult (d.get? key) := by simp [get?]

@[simp] theorem ordinary_contains (d : Dict) (key : Value) : OrdinaryResult (d.contains key) := by simp [Dict.contains]

@[simp] theorem ordinary_insert (d : Dict) (key value : Value) : OrdinaryResult (d.insert key value) := by
  simp [Dict.insert]

end Dict

namespace Value

variable {h : Cells} {eq : Value → Value → Except Exception Bool} {cmp : Value → Value → Except Exception Ordering}

/-! ### Equality and order -/

@[simp] theorem ordinary_allEqual (eqs : ∀ a b, OrdinaryResult (eq a b)) (as bs : List Value) :
    OrdinaryResult (allEqual eq as bs) := by
  induction as generalizing bs with
  | nil => simp [allEqual]
  | cons a as ih => cases bs <;> simp [allEqual, eqs, ih]

@[simp] theorem ordinary_allIn (eqs : ∀ a b, OrdinaryResult (eq a b)) (d : Dict) (entries : List (Value × Value)) :
    OrdinaryResult (allIn eq d entries) := by
  induction entries with
  | nil => simp [allIn]
  | cons entry rest ih =>
    simp only [allIn, ErrsWith.bind_iff]
    constructor
    · simp
    · intro found _
      cases found <;> simp [eqs, ih]

@[simp] theorem ordinary_tooDeep : tooDeep.Ordinary := by simp [tooDeep]

@[simp] theorem ordinary_equalWithin (depth : Nat) (a b : Value) : OrdinaryResult (equalWithin h depth a b) := by
  induction depth generalizing a b with
  | zero =>
    unfold equalWithin
    split
    · simp
    · split <;> simp_all
  | succ depth ih =>
    unfold equalWithin
    split
    · simp
    · split <;> simp_all

@[simp] theorem ordinary_equal (a b : Value) : OrdinaryResult (equal h a b) := ordinary_equalWithin maxDepth a b

@[simp] theorem ordinary_compareItems (eqs : ∀ a b, OrdinaryResult (eq a b)) (cmps : ∀ a b, OrdinaryResult (cmp a b))
    (as bs : List Value) : OrdinaryResult (compareItems eq cmp as bs) := by
  induction as generalizing bs with
  | nil => cases bs <;> simp [compareItems]
  | cons a as ih => cases bs <;> simp [compareItems, eqs, cmps, ih]

@[simp] theorem ordinary_compareWithin (depth : Nat) (a b : Value) : OrdinaryResult (compareWithin h depth a b) := by
  induction depth generalizing a b with
  | zero =>
    unfold compareWithin
    split
    · split <;> simp
    · split <;> simp_all
  | succ depth ih =>
    unfold compareWithin
    split
    · split <;> simp
    · split <;> simp_all

@[simp] theorem ordinary_compareValues (a b : Value) : OrdinaryResult (compareValues h a b) :=
  ordinary_compareWithin maxDepth a b

@[simp] theorem ordinary_position? (v : Value) (items : List Value) : OrdinaryResult (position? h v items) := by
  have from_ (i : Nat) : OrdinaryResult (position?.go h v i items) := by
    induction items generalizing i with
    | nil => simp [position?.go]
    | cons item rest ih => simp [position?.go, ih]
  exact from_ 0

@[simp] theorem ordinary_countEqual (v : Value) (items : List Value) : OrdinaryResult (countEqual h v items) := by
  have from_ (n : Nat) : OrdinaryResult (countEqual.go h v n items) := by
    induction items generalizing n with
    | nil => simp [countEqual.go]
    | cons item rest ih => simp [countEqual.go, ih]
  exact from_ 0

@[simp] theorem ordinary_ordered (op : Source.CompareOp) (accept : Ordering → Bool) (a b : Value) :
    OrdinaryResult (ordered h op accept a b) := by
  unfold ordered
  cases compared : compareValues h a b with
  | ok order => simp
  | error e =>
    have here : e.Ordinary := ordinary_compareValues a b e compared
    simp [here]

@[simp] theorem ordinary_contains (container item : Value) : OrdinaryResult (contains h container item) := by
  unfold contains
  split
  · split <;> simp
  · simp
  · simp
  · simp
  · split <;> simp
  · simp

@[simp] theorem ordinary_compareBy (op : Source.CompareOp) (a b : Value) : OrdinaryResult (compareBy h op a b) := by
  cases op <;> simp [compareBy]

/-! ### Items and slices -/

@[simp] theorem ordinary_items (v : Value) : OrdinaryResult (v.items h) := by cases v <;> simp [items]

@[simp] theorem ordinary_outOfRange (what : String) : (outOfRange what).Ordinary := by simp [outOfRange]

@[simp] theorem ordinary_placeOf (index : Value) (length : Nat) (what : String) :
    OrdinaryResult (placeOf index length what) := by
  unfold placeOf
  split
  · simp
  · split <;> simp

@[simp] theorem ordinary_item (v index : Value) : OrdinaryResult (v.item h index) := by
  unfold item
  split
  · simp only [ErrsWith.bind_iff, ordinary_placeOf, true_and]
    intro i _
    split <;> simp
  · simp only [ErrsWith.bind_iff, ordinary_placeOf, true_and]
    intro i _
    split <;> simp
  · simp only [ErrsWith.bind_iff, ordinary_placeOf, true_and]
    intro i _
    split <;> simp
  · simp only [ErrsWith.bind_iff, ordinary_placeOf, true_and]
    intro i _
    split <;> simp
  · simp only [ErrsWith.bind_iff, Dict.ordinary_get?, true_and]
    intro found _
    cases found <;> simp
  · unfold notSubscriptable
    split <;> simp

@[simp] theorem ordinary_selected (s : Slice) (length : Nat) : OrdinaryResult (selected s length) := by
  unfold selected
  split <;> simp [zeroStep]

/-! ### Arithmetic -/

@[simp] theorem ordinary_fit (i : Int) : OrdinaryResult (fit i) := by
  unfold fit
  split <;> simp [intOverflow]

@[simp] theorem ordinary_intOp (op : Source.BinaryOp) (a b : Int64) : OrdinaryResult (intOp op a b) := by
  cases op <;> simp [intOp, intPower, zeroDivision, intOverflow]

@[simp] theorem ordinary_floatOp (op : Source.BinaryOp) (a b : Double) : OrdinaryResult (floatOp op a b) := by
  cases op <;> simp [floatOp, floatPower, zeroDivision]

@[simp] theorem ordinary_numberOp (op : Source.BinaryOp) (a b : Number) : OrdinaryResult (numberOp op a b) := by
  unfold numberOp
  split <;> simp

@[simp] theorem ordinary_unary (op : Source.UnaryOp) (v : Value) : OrdinaryResult (v.unary h op) := by
  unfold unary
  split <;> simp

@[simp] theorem ordinary_repeatCount (unit : Nat) (times : Int64) : OrdinaryResult (repeatCount unit times) := by
  simp [repeatCount]

end Value

/-! ### Changes -/

namespace HeapM

variable {α : Type}

/-- Work on the cells that raises no `SyntaxError`. -/
abbrev Ordinary (work : HeapM α) : Prop := FailsWith Exception.Ordinary work

@[simp] theorem ordinary_raise {kind : ExceptionKind} {message : String} :
    Ordinary (raise kind message : HeapM α) ↔ kind ≠ .syntaxError := FailsWith.throw_iff

@[simp] theorem ordinary_ofExcept {result : Except Exception α} :
    Ordinary (ofExcept result) ↔ OrdinaryResult result := by
  cases result <;> simp [ofExcept]

@[simp] theorem ordinary_newListOf (items : Array Value) : Ordinary (newListOf items) := .changeGet _

@[simp] theorem ordinary_newList (items : List Value) : Ordinary (newList items) := .changeGet _

@[simp] theorem ordinary_newDict (d : Dict) : Ordinary (newDict d) := .changeGet _

@[simp] theorem ordinary_freshId : Ordinary freshId := .changeGet _

@[simp] theorem ordinary_newTuple (items : List Value) : Ordinary (newTuple items) := by simp [newTuple]

@[simp] theorem ordinary_newException (e : Exception) : Ordinary (newException e) := by simp [newException]

@[simp] theorem ordinary_modifyList (ref : Nat) (change : Array Value → Array Value) :
    Ordinary (modifyList ref change) := .change _

@[simp] theorem ordinary_modifyDict (ref : Nat) (change : Dict → Dict) : Ordinary (modifyDict ref change) := .change _

@[simp] theorem ordinary_newPairs (pairs : List (Value × Value)) : Ordinary (newPairs pairs) := by
  induction pairs with
  | nil => simp [newPairs]
  | cons pair rest ih => simp [newPairs, ih]

end HeapM

namespace Value

@[simp] theorem ordinary_binary (op : Source.BinaryOp) (a b : Value) : HeapM.Ordinary (binary op a b) := by
  have repeated {h : Cells} {a b : Value} {make : HeapM Value} (found : repeated? h a b = some make) :
      HeapM.Ordinary make := by
    unfold repeated? at found
    split at found <;> cases found <;> simp
  unfold binary
  split
  · simp
  · split
    · simp
    · exact .look fun h => HeapM.ordinary_newListOf _
    · simp
    · apply FailsWith.look
      intro h
      split
      · next found => exact repeated found
      · next found _ => exact repeated found
      · simp [unsupported]
    · simp
    · simp [unsupported]

@[simp] theorem ordinary_slice (v : Value) (s : Slice) : HeapM.Ordinary (v.slice s) := by
  apply FailsWith.look
  intro h
  cases v with
  | range r =>
    dsimp only
    split
    · simp [zeroStep]
    · split <;> simp
  | _ => simp

@[simp] theorem ordinary_setItem (v index x : Value) : HeapM.Ordinary (v.setItem index x) := by
  apply FailsWith.look
  intro h
  cases v <;> simp [noAssignment]

@[simp] theorem ordinary_setSlice (v : Value) (s : Slice) (new : Value) : HeapM.Ordinary (v.setSlice s new) := by
  apply FailsWith.look
  intro h
  cases v with
  | list ref =>
    apply FailsWith.andThen
    · simp
    · simp
  | _ => simp [noAssignment]

@[simp] theorem ordinary_deleteItem (v index : Value) : HeapM.Ordinary (v.deleteItem index) := by
  apply FailsWith.look
  intro h
  cases v <;> simp [noDeletion]

@[simp] theorem ordinary_deleteSlice (v : Value) (s : Slice) : HeapM.Ordinary (v.deleteSlice s) := by
  apply FailsWith.look
  intro h
  cases v <;> simp [noDeletion]

theorem ordinary_noAttribute (v : Value) (name : String) : (v.noAttribute name).Ordinary := by simp [noAttribute]

end Value

/-! ### Formatting -/

def FormatFailure.Ordinary : FormatFailure → Prop
  | exception e => e.Ordinary
  | tooWide | tooPrecise => True

namespace FormatSpec

@[simp] theorem ordinary_readNumber (text : String) (cs : List Char) : OrdinaryResult (readNumber text cs) := by
  unfold readNumber
  split
  · simp
  · split <;> simp [invalid]

@[simp] theorem ordinary_readPrecision (text : String) (cs : List Char) : OrdinaryResult (readPrecision text cs) := by
  unfold readPrecision
  split
  · simp
  · split
    · simp
    · simp

@[simp] theorem ordinary_parse (text : String) : OrdinaryResult (parse text) := by
  simp only [parse, ErrsWith.bind_iff, ordinary_readNumber, ordinary_readPrecision, true_and]
  intro width _ precision _
  split <;> simp [invalid]

abbrev Formats {α : Type} (result : Except FormatFailure α) : Prop := ErrsWith FormatFailure.Ordinary result

@[simp] theorem formats_checkPlaces (places : Nat) : Formats (checkPlaces places) := by
  simp [checkPlaces, FormatFailure.Ordinary]

@[simp] theorem formats_fixed (d : Double) (places : Nat) (grouping : Option Char) :
    Formats (fixed d places grouping) := by
  simp [fixed]

@[simp] theorem formats_scientificParts (d : Double) (places : Nat) : Formats (scientificParts d places) := by
  simp [scientificParts]

@[simp] theorem formats_scientific (d : Double) (places : Nat) : Formats (scientific d places) := by
  simp [scientific]

@[simp] theorem formats_general (d : Double) (precision : Nat) : Formats (general d precision) := by
  simp [general]

@[simp] theorem formats_filling (fill : Char) (n : Nat) : Formats (filling fill n) := by
  simp [filling, FormatFailure.Ordinary]

@[simp] theorem formats_pad (spec : FormatSpec) (numeric : Bool) (body : List Char) :
    Formats (pad spec numeric body) := by
  simp only [pad, ErrsWith.ite_iff]
  constructor
  · simp
  · intro _
    split <;> simp

@[simp] theorem ordinary_unknownCode (code : Char) (v : Value) : (unknownCode code v).Ordinary := by
  simp [unknownCode, FormatFailure.Ordinary]

@[simp] theorem formats_integerText (spec : FormatSpec) (v : Value) (i : Int64) : Formats (integerText spec v i) := by
  unfold integerText
  split
  any_goals simp
  split <;> simp [FormatFailure.Ordinary]

@[simp] theorem formats_floatParts (spec : FormatSpec) (v : Value) (d : Double) : Formats (floatParts spec v d) := by
  unfold floatParts
  split
  any_goals simp
  split <;> simp

@[simp] theorem formats_numberText (spec : FormatSpec) (v : Value) : Formats (numberText spec v) := by
  cases v <;> simp [numberText]

@[simp] theorem formats_apply (h : Cells) (spec : FormatSpec) (v : Value) : Formats (spec.apply h v) := by
  unfold apply
  split <;> simp

end FormatSpec

@[simp] theorem Value.formats_format (h : Cells) (v : Value) (spec : String) :
    FormatSpec.Formats (v.format h spec) := by
  unfold Value.format
  split
  · simp
  · split
    · simp
    · next e read => exact ErrsWith.error_iff.2 (FormatSpec.ordinary_parse spec e read)

end SnippetKernel
