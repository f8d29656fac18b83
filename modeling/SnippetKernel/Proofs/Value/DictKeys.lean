import SnippetKernel.Proofs.Value.Rendering
import SnippetKernel.Proofs.Value.Structure

/-! Which values are keys, and which keys mean the same entry of a dict. A value is refused if something that is no key
by itself is in it. Keys are looked up by their parts, and for keys without floating point numbers these are the same
exactly if the keys are equal. -/
namespace SnippetKernel

namespace Listing

variable {l : Listing} {k k' : Key} {key value : Value}

theorem find?_put : (l.put k key value).find? k' = if k = k' then some value else l.find? k' := by
  induction l with
  | nil => by_cases same : k = k' <;> simp [put, find?, same]
  | cons e rest ih =>
    rw [put]
    by_cases here : e.parts = k
    · by_cases same : k = k' <;> simp [find?, here, same]
    · rw [if_neg here]
      by_cases first : e.parts = k'
      · have other : k ≠ k' := fun same => here (first.trans same.symm)
        simp [find?, first, other]
      · simpa [find?, first] using ih

theorem any_put : (l.put k key value).any (·.parts = k') = (decide (k = k') || l.any (·.parts = k')) := by
  induction l with
  | nil => simp [put]
  | cons e rest ih =>
    rw [put]
    split
    · next here => simp [here]
    · simp [ih, Bool.or_left_comm]

end Listing

namespace Dict

variable {d : Dict} {l : Listing} {k k' : Key} {key value : Value}

theorem Shows.find?_put (shows : d.Shows l) (hashed : key.key = .ok k) (value : Value) :
    (d.put k key value).find? k' = if k = k' then some value else d.find? k' := by
  rw [(shows.put hashed value).find?_eq, shows.find?_eq, Listing.find?_put]

theorem Shows.contains_put (shows : d.Shows l) (hashed : key.key = .ok k) (value : Value) :
    (d.put k key value).index.contains k' = (decide (k = k') || d.index.contains k') := by
  rw [(shows.put hashed value).contains_eq, shows.contains_eq, Listing.any_put]

end Dict

namespace Value

/-! ### Values that can be keys -/

/-- Of these types are keys; a tuple is one if all its items are. -/
def keyTypes : List ValueType := [.noneType, .bool, .int, .float, .str, .tuple]

variable {h h' : Cells} {a b v : Value} {e : Exception}

theorem mem_pieces_tuple {id : Nat} {items : List Value} {part : Value} :
    part ∈ (tuple id items).pieces ↔ part = tuple id items ∨ ∃ item ∈ items, part ∈ item.pieces := by
  rw [pieces, List.mem_cons, mem_piecesOf]

theorem key_of_other_type (other : v.valueType ∉ keyTypes) : v.key = .error v.unhashable := by
  cases v with
  | none | bool _ | int _ | float _ | str _ | tuple _ _ => exact absurd (by simp [valueType, keyTypes]) other
  | _ => rfl

mutual

/-- A value that is refused has a piece that can be no key, and the refusal names the type of that piece. -/
theorem refused_piece {e : Exception} (v : Value) (refused : v.key = .error e) :
    ∃ part ∈ v.pieces, part.valueType ∉ keyTypes ∧ e = part.unhashable := by
  by_cases other : v.valueType ∉ keyTypes
  · refine ⟨v, self_mem_pieces v, other, ?_⟩
    simpa [key_of_other_type other] using refused.symm
  · match v with
    | none | bool _ | int _ | float _ | str _ => cases refused
    | tuple id items =>
      have inner : keys items = .error e := by
        rw [key] at refused
        cases found : keys items with
        | ok parts => simp [found] at refused
        | error e' => simpa [found] using refused
      obtain ⟨part, within, unfit⟩ := refused_pieceOf items inner
      exact ⟨part, List.mem_cons_of_mem _ within, unfit⟩
    | list _ | dict _ | range _ | function .. | builtin _ | module _ | type _ | stream _ | exception .. =>
      simp [valueType, keyTypes] at other
    | listMethod .. | tupleMethod .. | dictMethod .. | strMethod .. | streamMethod .. =>
      simp [valueType, keyTypes] at other

theorem refused_pieceOf {e : Exception} (items : List Value) (refused : keys items = .error e) :
    ∃ part ∈ piecesOf items, part.valueType ∉ keyTypes ∧ e = part.unhashable := by
  match items with
  | [] => cases refused
  | v :: rest =>
    rw [keys] at refused
    cases first : v.key with
    | error e' =>
      simp only [first, Except.error.injEq] at refused
      subst refused
      obtain ⟨part, within, unfit⟩ := refused_piece v first
      exact ⟨part, List.mem_append_left _ within, unfit⟩
    | ok front =>
      cases others : keys rest with
      | ok more => simp [first, others] at refused
      | error e' =>
        simp only [first, others, Except.error.injEq] at refused
        subst refused
        obtain ⟨part, within, unfit⟩ := refused_pieceOf rest others
        exact ⟨part, List.mem_append_right _ within, unfit⟩

end

mutual

theorem keyTypes_of_key (v : Value) {k : Key} (hashed : v.key = .ok k) :
    ∀ part ∈ v.pieces, part.valueType ∈ keyTypes := by
  match v with
  | none | bool _ | int _ | float _ | str _ => simp [pieces, valueType, keyTypes]
  | tuple id items =>
    obtain ⟨parts, inner, -⟩ := key_tuple hashed
    exact List.forall_mem_cons.mpr ⟨by simp [valueType, keyTypes], keyTypes_of_keys items inner⟩
  | list _ | dict _ | range _ | function .. | builtin _ | module _ | type _ | stream _ => cases hashed
  | listMethod .. | tupleMethod .. | dictMethod .. | strMethod .. | streamMethod .. => cases hashed
  | exception .. => cases hashed

theorem keyTypes_of_keys (items : List Value) {k : Key} (hashed : keys items = .ok k) :
    ∀ part ∈ piecesOf items, part.valueType ∈ keyTypes := by
  match items with
  | [] => exact List.forall_mem_nil _
  | v :: rest =>
    obtain ⟨first, more, head, tail, -⟩ := keys_cons hashed
    exact List.forall_mem_append.mpr ⟨keyTypes_of_key v head, keyTypes_of_keys rest tail⟩

end

theorem key_of_keyTypes (fit : ∀ part ∈ v.pieces, part.valueType ∈ keyTypes) : ∃ k, v.key = .ok k := by
  cases hashed : v.key with
  | ok k => exact ⟨k, rfl⟩
  | error e =>
    obtain ⟨part, within, unfit, -⟩ := refused_piece v hashed
    exact absurd (fit part within) unfit

theorem key_of_unfit (unfit : ∃ part ∈ v.pieces, part.valueType ∉ keyTypes) :
    ∃ part ∈ v.pieces, part.valueType ∉ keyTypes ∧ v.key = .error part.unhashable := by
  cases hashed : v.key with
  | ok k =>
    obtain ⟨part, within, other⟩ := unfit
    exact absurd (keyTypes_of_key v hashed part within) other
  | error e =>
    obtain ⟨part, within, other, rfl⟩ := refused_piece v hashed
    exact ⟨part, within, other, rfl⟩

/-! ### Keys without floating point numbers -/

/-- Nothing, a truth value, an integer, a text, or a tuple of such values; at most `depth` tuples are inside one
another. -/
inductive WholeKey : Nat → Value → Prop
  | none (depth : Nat) : WholeKey depth none
  | bool (depth : Nat) (b : Bool) : WholeKey depth (bool b)
  | int (depth : Nat) (i : Int64) : WholeKey depth (int i)
  | str (depth : Nat) (text : String) : WholeKey depth (str text)
  | tuple {depth : Nat} (id : Nat) {items : List Value} (items_whole : ∀ item ∈ items, WholeKey depth item) :
    WholeKey (depth + 1) (tuple id items)

theorem writeItems_congr {write write' : String → Value → String} {items : List Value}
    (each : ∀ item ∈ items, ∀ text, write text item = write' text item) (limit : Option Nat) (first : Bool)
    (text : String) : writeItems write limit first text items = writeItems write' limit first text items := by
  induction items generalizing first text with
  | nil => rfl
  | cons item rest ih =>
    rw [List.forall_mem_cons] at each
    simp only [writeItems, each.1, ih each.2]

namespace WholeKey

variable {depth : Nat}

theorem key (whole : WholeKey depth v) : ∃ k, v.key = .ok k := by
  refine key_of_keyTypes ?_
  induction whole with
  | tuple id _ ih =>
    intro part within
    obtain rfl | ⟨item, mem, within⟩ := mem_pieces_tuple.mp within
    · simp [valueType, keyTypes]
    · exact ih item mem part within
  | _ => simp [pieces, valueType, keyTypes]

theorem shallow (whole : WholeKey depth v) (h : Cells) : Shallow h depth v := by
  induction whole with
  | tuple id _ ih => exact ih
  | _ depth => cases depth <;> simp [Shallow]

theorem tame (whole : WholeKey depth v) (h : Cells) : Tame h v := by
  induction whole with
  | tuple id _ ih => exact tame_of_parts nofun nofun ih
  | _ => exact tame_of_parts nofun nofun (by simp)

/-- The heap does not matter for what is written of such a value. -/
theorem write_eq (whole : WholeKey depth v) (h h' : Cells) (limit : Option Nat) (room : Nat)
    (around : List Container) (text : String) :
    v.write h limit room around text = v.write h' limit room around text := by
  induction whole generalizing room text with
  | tuple id _ ih =>
    cases room with
    | zero => simp only [write]
    | succ room => simp only [write, writeItems_congr fun item mem => ih item mem room]
  | _ => cases room <;> simp only [write]

theorem repr_eq (whole : WholeKey depth v) (h h' : Cells) : v.repr h = v.repr h' := whole.write_eq h h' _ _ _ _

end WholeKey

variable {listed : Nat → Listing}

/-- Such keys are compared, and they are equal exactly if they have the same parts. -/
theorem equal_iff_key_eq (shows : ∀ ref, (h.dict ref).Shows (listed ref)) (first : WholeKey maxDepth a)
    (second : WholeKey maxDepth b) {k k' : Key} (hashed : a.key = .ok k) (hashed' : b.key = .ok k') :
    equal h a b = .ok (decide (k = k')) := by
  obtain ⟨p, compared⟩ : ∃ p, equal h a b = .ok p :=
    (answered shows maxDepth a b).resolve_right fun deep => deep.2.1 (first.shallow h)
  rw [compared, Except.ok.injEq]
  cases p with
  | true =>
    have alike := alike_of_equal shows (first.tame h) (second.tame h) compared
    exact (decide_eq_true (parts_of_alike alike hashed hashed')).symm
  | false =>
    refine (decide_eq_false fun same => ?_).symm
    have alike := alike_of_key (first.tame h).whole (second.tame h).whole hashed (same ▸ hashed')
    exact equal_of_alike shows alike compared

/-! ### Entries -/

section

variable {ref : Nat} {k : Key}

theorem setItem_of_key (hashed : a.key = .ok k) (inside : ref < h.dicts.size) (v : Value) :
    ∃ h', (dict ref).setItem a v h = .ok () h' ∧ h'.dict ref = (h.dict ref).put k a v := by
  have steps : (dict ref).setItem a v h =
      (HeapM.ofExcept a.key >>= fun k => HeapM.modifyDict ref (·.put k a v)) h := rfl
  rw [steps, hashed]
  refine ⟨_, rfl, ?_⟩
  simp [Cells.dict, inside, Array.getElem_modify]

theorem setItem_of_refused (refused : a.key = .error e) (v : Value) : (dict ref).setItem a v h = .error e h := by
  have steps : (dict ref).setItem a v h =
      (HeapM.ofExcept a.key >>= fun k => HeapM.modifyDict ref (·.put k a v)) h := rfl
  rw [steps, refused]
  rfl

theorem deleteItem_of_refused (refused : a.key = .error e) : (dict ref).deleteItem a h = .error e h := by
  have steps : (dict ref).deleteItem a h = (HeapM.ofExcept a.key >>= fun k =>
      if (h.dict ref).index.contains k then HeapM.modifyDict ref (·.erase k)
      else HeapM.raise .key (a.repr h)) h := rfl
  rw [steps, refused]
  rfl

theorem contains_of_key (hashed : a.key = .ok k) :
    contains h (dict ref) a = .ok ((h.dict ref).index.contains k) := by
  simp only [contains, Dict.contains, hashed]
  rfl

theorem contains_of_refused (refused : a.key = .error e) : contains h (dict ref) a = .error e := by
  simp only [contains, Dict.contains, refused]
  rfl

theorem item_of_key (hashed : a.key = .ok k) :
    item h (dict ref) a = ((h.dict ref).find? k).elim (.error ⟨.key, a.repr h⟩) .ok := by
  simp only [item, Dict.get?, hashed, bind, Except.bind, pure, Except.pure]
  cases (h.dict ref).find? k <;> rfl

theorem item_of_refused (refused : a.key = .error e) : item h (dict ref) a = .error e := by
  simp only [item, Dict.get?, refused]
  rfl

end

/-- Keys without floating point numbers mean the same entry of a dict exactly if they are equal: once something is
stored under one of them, it is found under the others that are equal to it, and for those that are not nothing has
changed. A value can be a key unless something is in it, or in a tuple in it, that is neither a tuple nor of another
type of keys; such a value is refused by name and leaves the dict as it is. -/
theorem same_entry_iff_equal (made : h.Made) {ref : Nat} (inside : ref < h.dicts.size) :
    (∀ a b v, WholeKey maxDepth a → WholeKey maxDepth b → ∃ p h', compareBy h .eq a b = .ok p ∧
      (dict ref).setItem a v h = .ok () h' ∧
      contains h' (dict ref) b = (if p then .ok true else contains h (dict ref) b) ∧
      item h' (dict ref) b = if p then .ok v else item h (dict ref) b) ∧
    (∀ a v, (∃ h', (dict ref).setItem a v h = .ok () h') ↔ ∀ part ∈ a.pieces, part.valueType ∈ keyTypes) ∧
    ∀ a, (∃ part ∈ a.pieces, part.valueType ∉ keyTypes) → ∃ part ∈ a.pieces, part.valueType ∉ keyTypes ∧
      (∀ v, (dict ref).setItem a v h = .error part.unhashable h) ∧
      (dict ref).deleteItem a h = .error part.unhashable h ∧
      contains h (dict ref) a = .error part.unhashable ∧ item h (dict ref) a = .error part.unhashable := by
  choose listed shows using made.shows
  refine ⟨fun a b v first second => ?_, fun a v => ⟨?_, fun fit => ?_⟩, fun a unfit => ?_⟩
  · obtain ⟨k, hashed⟩ := first.key
    obtain ⟨k', hashed'⟩ := second.key
    obtain ⟨h', stored, changed⟩ := setItem_of_key hashed inside v
    refine ⟨decide (k = k'), h', equal_iff_key_eq shows first second hashed hashed', stored, ?_, ?_⟩
    · rw [contains_of_key hashed', contains_of_key hashed', changed, (shows ref).contains_put hashed]
      by_cases same : k = k' <;> simp [same]
    · rw [item_of_key hashed', item_of_key hashed', changed, (shows ref).find?_put hashed, second.repr_eq h' h]
      by_cases same : k = k' <;> simp [same]
  · rintro ⟨h', stored⟩
    cases hashed : a.key with
    | ok k => exact keyTypes_of_key a hashed
    | error e => simp [setItem_of_refused hashed] at stored
  · obtain ⟨k, hashed⟩ := key_of_keyTypes fit
    obtain ⟨h', stored, -⟩ := setItem_of_key hashed inside v
    exact ⟨h', stored⟩
  · obtain ⟨part, within, other, refused⟩ := key_of_unfit unfit
    exact ⟨part, within, other, setItem_of_refused refused, deleteItem_of_refused refused, contains_of_refused refused,
      item_of_refused refused⟩

/-- A truth value in a tuple means the same key as the integer, and a list in a tuple is refused. -/
theorem same_entry_iff_equal_of_tuples :
    let h : Cells := ⟨#[], #[.empty], 0⟩
    let a := tuple 0 [bool true, tuple 1 [], str "k"]
    let b := tuple 2 [int 1, tuple 3 [], str "k"]
    let c := tuple 4 [int 1, list 0]
    h.Made ∧ 0 < h.dicts.size ∧ WholeKey maxDepth a ∧ WholeKey maxDepth b ∧
      (∃ h', (dict 0).setItem a (str "v") h = .ok () h' ∧ item h' (dict 0) b = .ok (str "v")) ∧
      (∃ part ∈ c.pieces, part.valueType ∉ keyTypes) ∧
      (dict 0).setItem c (str "v") h = .error ⟨.type, "unhashable type: 'list'"⟩ h := by
  intro h a b c
  have made : h.Made := by simpa [h, Cells.Made] using ⟨[], rfl⟩
  have first : WholeKey maxDepth a := .tuple 0 (by simp [WholeKey.bool, WholeKey.str, WholeKey.tuple])
  have second : WholeKey maxDepth b := .tuple 2 (by simp [WholeKey.int, WholeKey.str, WholeKey.tuple])
  have unfit : ∃ part ∈ c.pieces, part.valueType ∉ keyTypes := ⟨list 0, by simp [c, pieces, piecesOf], by decide⟩
  have inside : 0 < h.dicts.size := by decide
  obtain ⟨entries, -, refusals⟩ := same_entry_iff_equal made inside
  obtain ⟨p, h', compared, stored, -, found⟩ := entries a b (str "v") first second
  obtain rfl : true = p := Except.ok.inj compared
  obtain ⟨part, within, other, refused, -⟩ := refusals c unfit
  obtain rfl : part = list 0 := by
    simp only [c, pieces, piecesOf, List.append_nil, List.singleton_append, List.mem_cons, List.not_mem_nil,
      or_false] at within
    rcases within with rfl | rfl | rfl
    · exact absurd (by decide) other
    · exact absurd (by decide) other
    · rfl
  exact ⟨made, inside, first, second, ⟨h', stored, found⟩, unfit, refused (str "v")⟩

end Value

end SnippetKernel
