import Mathlib.Data.List.InsertIdx
import SnippetKernel.Proofs.Value.Shift

/-! Comparing values, looking into them and formatting them gives the same behind what was left on the heap, and so does
the work that changes them. -/
namespace SnippetKernel

namespace Value

variable {left : Heap} {h : Cells}

/-! ### Equality and order -/

theorem allEqual_map {eq eq' : Value → Value → Except Exception Bool}
    (same : ∀ a b, eq' (a.shift left) (b.shift left) = eq a b) (as bs : List Value) :
    allEqual eq' (as.map (shift left)) (bs.map (shift left)) = allEqual eq as bs := by
  induction as generalizing bs with
  | nil => rfl
  | cons a as ih =>
    cases bs with
    | nil => rfl
    | cons b bs => simp only [List.map_cons, allEqual, same, ih]

theorem allIn_map {eq eq' : Value → Value → Except Exception Bool}
    (same : ∀ a b, eq' (a.shift left) (b.shift left) = eq a b) (d : Dict) (entries : List (Value × Value)) :
    allIn eq' (d.shift left) (entries.map (shiftEntry left)) = allIn eq d entries := by
  induction entries with
  | nil => rfl
  | cons entry rest ih =>
    simp only [List.map_cons, allIn, shiftEntry, Dict.get?_shift]
    cases d.get? entry.1 with
    | error e => rfl
    | ok found =>
      cases found with
      | none => rfl
      | some other =>
        change (do
          let equal ← eq' (other.shift left) (entry.2.shift left)
          if equal then allIn eq' (d.shift left) (rest.map (shiftEntry left)) else return false) = _
        rw [same, ih]
        rfl

theorem equalWithin_shift (depth : Nat) (a b : Value) :
    equalWithin (h.shift left) depth (a.shift left) (b.shift left) = equalWithin h depth a b := by
  have other (a b : Value) :
      (pure ((a.shift left).same (b.shift left)) : Except Exception Bool) = pure (a.same b) :=
    congrArg pure (same_shift a b)
  induction depth generalizing a b with
  | zero =>
    unfold equalWithin
    rw [number?_shift, number?_shift]
    split
    · rfl
    · cases a with
      | list r => cases b <;> simp [same]
      | tuple id xs => cases b <;> simp [same]
      | dict r => cases b <;> simp [same]
      | range r => cases b <;> simp [same]
      | _ => exact other _ b
  | succ depth ih =>
    have items (as bs : List Value) : allEqual (equalWithin (h.shift left) depth) (as.map (shift left))
        (bs.map (shift left)) = allEqual (equalWithin h depth) as bs := allEqual_map ih as bs
    have entries (d : Dict) (entries : List (Value × Value)) : allIn (equalWithin (h.shift left) depth) (d.shift left)
        (entries.map (shiftEntry left)) = allIn (equalWithin h depth) d entries := allIn_map ih d entries
    unfold equalWithin
    rw [number?_shift, number?_shift]
    split
    · rfl
    · cases a with
      | list r => cases b <;> simp [same, items]
      | tuple id xs => cases b <;> simp [same, items]
      | dict r => cases b <;> simp [same, entries]
      | range r => cases b <;> simp [same]
      | _ => exact other _ b

theorem equal_shift (a b : Value) : equal (h.shift left) (a.shift left) (b.shift left) = equal h a b :=
  equalWithin_shift maxDepth a b

theorem compareItems_map {eq eq' : Value → Value → Except Exception Bool}
    {cmp cmp' : Value → Value → Except Exception Ordering}
    (sameEq : ∀ a b, eq' (a.shift left) (b.shift left) = eq a b)
    (sameCmp : ∀ a b, cmp' (a.shift left) (b.shift left) = cmp a b) (as bs : List Value) :
    compareItems eq' cmp' (as.map (shift left)) (bs.map (shift left)) = compareItems eq cmp as bs := by
  induction as generalizing bs with
  | nil => cases bs <;> rfl
  | cons a as ih =>
    cases bs with
    | nil => rfl
    | cons b bs => simp only [List.map_cons, compareItems, sameEq, sameCmp, ih]

theorem compareWithin_shift (depth : Nat) (a b : Value) :
    compareWithin (h.shift left) depth (a.shift left) (b.shift left) = compareWithin h depth a b := by
  have other (a b : Value) :
      (throw (.typeError ("'<' not supported between instances of '" ++ (a.shift left).typeName ++ "' and '"
        ++ (b.shift left).typeName ++ "'")) : Except Exception Ordering)
      = throw (.typeError ("'<' not supported between instances of '" ++ a.typeName ++ "' and '"
        ++ b.typeName ++ "'")) := by
    rw [typeName_shift, typeName_shift]
  induction depth generalizing a b with
  | zero =>
    unfold compareWithin
    rw [number?_shift, number?_shift]
    split
    · rfl
    · cases a with
      | str text => cases b <;> rfl
      | list r => cases b <;> rfl
      | tuple id xs => cases b <;> rfl
      | _ => exact other _ b
  | succ depth ih =>
    have items (as bs : List Value) :
        compareItems (equalWithin (h.shift left) depth) (compareWithin (h.shift left) depth) (as.map (shift left))
          (bs.map (shift left)) = compareItems (equalWithin h depth) (compareWithin h depth) as bs :=
      compareItems_map (equalWithin_shift depth) ih as bs
    unfold compareWithin
    rw [number?_shift, number?_shift]
    split
    · rfl
    · cases a with
      | str text => cases b <;> rfl
      | list r => cases b <;> first | rfl | simp [items]
      | tuple id xs => cases b <;> first | rfl | simp [items]
      | _ => exact other _ b

@[simp] theorem compareValues_shift (a b : Value) :
    compareValues (h.shift left) (a.shift left) (b.shift left) = compareValues h a b :=
  compareWithin_shift maxDepth a b

@[simp] theorem position?_shift (v : Value) (items : List Value) :
    position? (h.shift left) (v.shift left) (items.map (shift left)) = position? h v items := by
  have from_ (i : Nat) : position?.go (h.shift left) (v.shift left) i (items.map (shift left))
      = position?.go h v i items := by
    induction items generalizing i with
    | nil => rfl
    | cons item rest ih => simp only [List.map_cons, position?.go, equal_shift, ih]
  exact from_ 0

@[simp] theorem countEqual_shift (v : Value) (items : List Value) :
    countEqual (h.shift left) (v.shift left) (items.map (shift left)) = countEqual h v items := by
  have from_ (n : Nat) : countEqual.go (h.shift left) (v.shift left) n (items.map (shift left))
      = countEqual.go h v n items := by
    induction items generalizing n with
    | nil => rfl
    | cons item rest ih => simp only [List.map_cons, countEqual.go, equal_shift, ih]
  exact from_ 0

@[simp] theorem ordered_shift (op : Source.CompareOp) (accept : Ordering → Bool) (a b : Value) :
    ordered (h.shift left) op accept (a.shift left) (b.shift left) = ordered h op accept a b := by
  simp [ordered]

@[simp] theorem contains_shift (container item : Value) :
    contains (h.shift left) (container.shift left) (item.shift left) = contains h container item := by
  cases container with
  | str text => cases item <;> rfl
  | list ref => simp [contains]
  | tuple id items => simp [contains]
  | dict ref => simp [contains, Dict.contains_shift]
  | range r => simp [contains]
  | _ => rfl

@[simp] theorem compareBy_shift (op : Source.CompareOp) (a b : Value) :
    compareBy (h.shift left) op (a.shift left) (b.shift left) = compareBy h op a b := by
  cases op <;> simp [compareBy, equal_shift, same_shift]

/-! ### Looking into values -/

@[simp] theorem placeOf_shift (index : Value) (length : Nat) (what : String) :
    placeOf (index.shift left) length what = placeOf index length what := by
  simp [placeOf]

theorem found_map (e : Exception) (found : Option Value) :
    (match found.map (shift left) with
      | some x => pure x
      | Option.none => throw e : Except Exception Value)
    = (match found with
      | some x => pure x
      | Option.none => throw e : Except Exception Value).map (shift left) := by
  cases found <;> rfl

theorem item_shift (v index : Value) :
    (v.shift left).item (h.shift left) (index.shift left) = (v.item h index).map (shift left) := by
  cases v with
  | list ref =>
    simp only [shift_list, item, Cells.list_shift, Array.size_map, placeOf_shift]
    cases placeOf index (h.list ref).size "list" with
    | error e => rfl
    | ok i =>
      change (match ((h.list ref).map (shift left))[i]? with
        | some x => pure x
        | Option.none => throw (outOfRange "list") : Except Exception Value) = _
      rw [Array.getElem?_map]
      exact found_map _ _
  | tuple id items =>
    simp only [shift_tuple, item, List.length_map, placeOf_shift]
    cases placeOf index items.length "tuple" with
    | error e => rfl
    | ok i =>
      change (match (items.map (shift left))[i]? with
        | some x => pure x
        | Option.none => throw (outOfRange "tuple") : Except Exception Value) = _
      rw [List.getElem?_map]
      exact found_map _ _
  | str text =>
    simp only [shift_str, item, placeOf_shift]
    cases placeOf index text.toList.length "string" with
    | error e => rfl
    | ok i =>
      simp only [bind, Except.bind]
      cases text.toList[i]? <;> rfl
  | range r =>
    simp only [shift_range, item, placeOf_shift]
    cases placeOf index r.size "range object" with
    | error e => rfl
    | ok i =>
      simp only [bind, Except.bind]
      cases r.get? i <;> rfl
  | dict ref =>
    simp only [shift_dict, item, Cells.dict_shift, Dict.get?_shift, repr_shift]
    cases (h.dict ref).get? index with
    | error e => rfl
    | ok found => cases found <;> rfl
  | _ => rfl

/-! ### Formatting -/

theorem apply_shift (spec : FormatSpec) (v : Value) : spec.apply (h.shift left) (v.shift left) = spec.apply h v := by
  have plain (v : Value) : String.ofList <$> spec.pad false (FormatSpec.truncated spec.precision
        ((v.shift left).display (h.shift left)))
      = String.ofList <$> spec.pad false (FormatSpec.truncated spec.precision (v.display h)) := by
    rw [display_shift]
  unfold FormatSpec.apply
  rcases type : spec.type with _ | c
  · cases v with
    | str text => rfl
    | float d => rfl
    | int i => rfl
    | bool b => rfl
    | _ => exact plain _
  · by_cases letter : c = 's'
    · subst letter
      cases v <;> rfl
    · cases v <;> simp [letter, FormatSpec.unknownCode, typeName, valueType]

theorem format_shift (v : Value) (spec : String) : (v.shift left).format (h.shift left) spec = v.format h spec := by
  simp only [format, display_shift, apply_shift]

end Value

/-! ### Work -/

section

variable {ε σ α β γ δ : Type}

/-- From the changed state, `copy` does what `work` does, unless that stops: its result, its error and the state it
ends in are the changed ones. -/
def Follows (state : σ → σ) (error : ε → ε) (stops : ε → Prop) (result : α → β) (work : EStateM ε σ α)
    (copy : EStateM ε σ β) : Prop :=
  ∀ s, match work s with
    | .ok a t => copy (state s) = .ok (result a) (state t)
    | .error e t => stops e ∨ copy (state s) = .error (error e) (state t)

namespace Follows

variable {state : σ → σ} {error : ε → ε} {stops : ε → Prop} {result : α → β} {last : γ → δ}
  {work : EStateM ε σ α} {copy : EStateM ε σ β} {next : α → EStateM ε σ γ} {after : β → EStateM ε σ δ}

theorem done {a : α} {b : β} (same : b = result a) : Follows state error stops result (pure a) (pure b) := by
  subst same
  exact fun _ => rfl

theorem fail {e e' : ε} (same : e' = error e) : Follows state error stops result (throw e) (throw e') := by
  subst same
  exact fun _ => .inr rfl

theorem andThen (first : Follows state error stops result work copy)
    (second : ∀ a, Follows state error stops last (next a) (after (result a))) :
    Follows state error stops last (work >>= next) (copy >>= after) := by
  intro s
  have begins := first s
  change match EStateM.bind work next s with
    | .ok c t => EStateM.bind copy after (state s) = .ok (last c) (state t)
    | .error e t => stops e ∨ EStateM.bind copy after (state s) = .error (error e) (state t)
  unfold EStateM.bind
  cases ended : work s with
  | ok a t =>
    rw [ended] at begins
    simp only [begins]
    exact second a t
  | error e t =>
    rw [ended] at begins
    obtain stop | begins := begins
    · exact .inl stop
    · exact .inr (by rw [begins])

/-- Work whose result stays as it is. -/
theorem before {work copy : EStateM ε σ α} {next : α → EStateM ε σ γ} {after : α → EStateM ε σ δ}
    (first : Follows state error stops id work copy)
    (second : ∀ a, Follows state error stops last (next a) (after a)) :
    Follows state error stops last (work >>= next) (copy >>= after) := first.andThen second

theorem map {f : α → γ} {g : β → δ} (first : Follows state error stops result work copy)
    (same : ∀ a, g (result a) = last (f a)) : Follows state error stops last (f <$> work) (g <$> copy) := by
  rw [map_eq_pure_bind, map_eq_pure_bind]
  exact first.andThen fun a => done (same a)

/-- Work that looks at the state first. -/
theorem look {next : σ → EStateM ε σ γ} {after : σ → EStateM ε σ δ}
    (second : ∀ s, Follows state error stops last (next s) (after (state s))) :
    Follows state error stops last (get >>= next) (get >>= after) := fun s => second s s

theorem change {f g : σ → σ} (same : ∀ s, g (state s) = state (f s)) :
    Follows state error stops id (modify f) (modify g) := fun s => congrArg (EStateM.Result.ok ()) (same s)

end Follows

end

/-! ### Work on the cells -/

namespace HeapM

variable {α β : Type} {left : Heap} {result : α → β}

/-- The work does the same behind what was left. -/
def Shifts (left : Heap) (result : α → β) (work : HeapM α) (copy : HeapM β) : Prop :=
  Follows (Cells.shift left) id (fun _ => False) result work copy

theorem shifts_ofExcept {found : Except Exception α} {found' : Except Exception β}
    (same : found' = found.map result) : Shifts left result (ofExcept found) (ofExcept found') := by
  subst same
  cases found with
  | ok a => exact .done rfl
  | error e => exact .fail rfl

/-- What is found does not depend on the heap. -/
theorem shifts_ofExcept_id (found : Except Exception α) : Shifts left id (ofExcept found) (ofExcept found) := by
  apply shifts_ofExcept
  cases found <;> rfl

theorem shifts_newListOf (items : Array Value) :
    Shifts left (Value.shift left) (newListOf items) (newListOf (items.map (Value.shift left))) := by
  intro h
  change EStateM.Result.ok _ _ = EStateM.Result.ok _ _
  simp [Cells.shift]

theorem shifts_newList (items : List Value) :
    Shifts left (Value.shift left) (newList items) (newList (items.map (Value.shift left))) := by
  unfold newList
  rw [← List.map_toArray]
  exact shifts_newListOf _

theorem shifts_newDict (d : Dict) : Shifts left (Value.shift left) (newDict d) (newDict (d.shift left)) := by
  intro h
  change EStateM.Result.ok _ _ = EStateM.Result.ok _ _
  simp [Cells.shift]

theorem shifts_freshId : Shifts left (left.fresh + ·) freshId freshId := fun _ => rfl

theorem shifts_newTuple (items : List Value) :
    Shifts left (Value.shift left) (newTuple items) (newTuple (items.map (Value.shift left))) :=
  shifts_freshId.andThen fun _ => .done (Value.shift_tuple _ _).symm

theorem shifts_newException (e : Exception) :
    Shifts left (Value.shift left) (newException e) (newException e) :=
  shifts_freshId.andThen fun _ => .done rfl

/-- A change behind what was left. -/
theorem modify_behind {α : Type} {before behind : Array α} {f change change' : α → α}
    (same : ∀ a, change' (f a) = f (change a)) (ref : Nat) :
    (before ++ behind.map f).modify (before.size + ref) change' = before ++ (behind.modify ref change).map f := by
  apply Array.ext_getElem?
  intro i
  simp only [Array.getElem?_modify, Array.getElem?_append, Array.getElem?_map]
  by_cases inside : i < before.size
  · simp only [inside, if_true]
    rw [if_neg (by omega)]
  · simp only [inside, if_false]
    by_cases here : ref = i - before.size
    · rw [if_pos (by omega), if_pos here]
      cases behind[i - before.size]? with
      | none => rfl
      | some a => exact congrArg some (same a)
    · rw [if_neg (by omega), if_neg here]

theorem shifts_modifyList {change change' : Array Value → Array Value}
    (same : ∀ items : Array Value, change' (items.map (Value.shift left)) = (change items).map (Value.shift left))
    (ref : Nat) : Shifts left id (modifyList ref change) (modifyList (left.lists.size + ref) change') :=
  Follows.change fun h => by simp only [Cells.shift, modify_behind same]

theorem shifts_modifyDict {change change' : Dict → Dict}
    (same : ∀ d : Dict, change' (d.shift left) = (change d).shift left) (ref : Nat) :
    Shifts left id (modifyDict ref change) (modifyDict (left.dicts.size + ref) change') :=
  Follows.change fun h => by simp only [Cells.shift, modify_behind same]

theorem shifts_newPairs (pairs : List (Value × Value)) :
    Shifts left (List.map (Value.shift left)) (newPairs pairs) (newPairs (pairs.map (shiftEntry left))) := by
  induction pairs with
  | nil => exact .done rfl
  | cons pair rest ih =>
    apply (shifts_newTuple [pair.1, pair.2]).andThen
    intro first
    exact ih.andThen fun more => .done rfl

end HeapM

/-! ### Operations on values -/

namespace Value

open HeapM

variable {left : Heap} {h : Cells}

theorem map_fit (i : Int) : (fit i).map (shift left) = fit i := by
  unfold fit
  split <;> rfl

theorem map_intOp (op : Source.BinaryOp) (a b : Int64) : (intOp op a b).map (shift left) = intOp op a b := by
  cases op <;> simp only [intOp, intPower]
  all_goals repeat' split
  all_goals first
    | exact map_fit _
    | rfl

theorem map_floatOp (op : Source.BinaryOp) (a b : Double) : (floatOp op a b).map (shift left) = floatOp op a b := by
  cases op <;> simp only [floatOp, floatPower]
  all_goals repeat' split
  all_goals rfl

theorem map_numberOp (op : Source.BinaryOp) (a b : Number) : (numberOp op a b).map (shift left) = numberOp op a b := by
  unfold numberOp
  split
  · exact map_intOp _ _ _
  · exact map_floatOp _ _ _

theorem unary_shift (op : Source.UnaryOp) (v : Value) :
    (v.shift left).unary (h.shift left) op = (v.unary h op).map (shift left) := by
  cases op with
  | not => simp [unary, Except.map]
  | neg =>
    simp only [unary, number?_shift, typeName_shift]
    split
    all_goals first
      | exact (map_fit _).symm
      | rfl
      | contradiction
  | pos =>
    simp only [unary, number?_shift, typeName_shift]
    split
    all_goals first
      | rfl
      | contradiction

theorem map_repeatItems (f : Value → Value) (items : Array Value) (n : Nat) :
    repeatItems (items.map f) n = (repeatItems items n).map f := by
  have all (n : Nat) (done : Array Value) :
      repeatItems.go (items.map f) n (done.map f) = (repeatItems.go items n done).map f := by
    induction n generalizing done with
    | zero => rfl
    | succ n ih => rw [repeatItems.go, ← Array.map_append, ih, repeatItems.go]
  simpa [repeatItems] using all n #[]

theorem shifts_repeated? (left : Heap) (h : Cells) (sequence times : Value) :
    Option.Rel (Shifts left (shift left)) (repeated? h sequence times)
      (repeated? (h.shift left) (sequence.shift left) (times.shift left)) := by
  cases sequence with
  | str text =>
    simp only [shift_str, repeated?, int?_shift]
    cases times.int? with
    | none => exact .none
    | some n =>
      apply Option.Rel.some
      exact (shifts_ofExcept_id _).before fun _ => .done rfl
  | list ref =>
    simp only [shift_list, repeated?, int?_shift]
    cases times.int? with
    | none => exact .none
    | some n =>
      simp only [Cells.list_shift, Array.size_map]
      apply Option.Rel.some
      apply (shifts_ofExcept_id _).before
      intro n
      rw [map_repeatItems]
      exact shifts_newListOf _
  | tuple id items =>
    simp only [shift_tuple, repeated?, int?_shift]
    cases times.int? with
    | none => exact .none
    | some n =>
      simp only [List.length_map]
      apply Option.Rel.some
      apply (shifts_ofExcept_id _).before
      intro n
      rw [← List.map_toArray, map_repeatItems, Array.toList_map]
      exact shifts_newTuple _
  | _ => exact .none

theorem shifts_binary (op : Source.BinaryOp) (a b : Value) :
    Shifts left (shift left) (binary op a b) (binary op (a.shift left) (b.shift left)) := by
  have refused (op : Source.BinaryOp) (a b : Value) : Shifts left (shift left) (throw (unsupported op a b))
      (throw (unsupported op (a.shift left) (b.shift left))) :=
    .fail (by simp [unsupported])
  unfold binary
  rw [number?_shift, number?_shift]
  split
  · exact shifts_ofExcept (map_numberOp _ _ _).symm
  · cases op with
    | add =>
      cases a with
      | str x =>
        cases b with
        | str y => exact .done rfl
        | _ => exact refused .add (.str x) _
      | list r =>
        cases b with
        | list s =>
          apply Follows.look
          intro h
          simp only [Cells.list_shift, ← Array.map_append]
          exact shifts_newListOf _
        | _ => exact refused .add (.list r) _
      | tuple id xs =>
        cases b with
        | tuple id' ys =>
          simp only [shift_tuple, ← List.map_append]
          exact shifts_newTuple _
        | _ => exact refused .add (.tuple id xs) _
      | _ => exact refused .add _ b
    | mul =>
      apply Follows.look
      intro h
      have first := shifts_repeated? left h a b
      have second := shifts_repeated? left h b a
      generalize repeated? h a b = make, repeated? (h.shift left) (a.shift left) (b.shift left) = copy at first ⊢
      generalize repeated? h b a = make', repeated? (h.shift left) (b.shift left) (a.shift left) = copy' at second ⊢
      cases first with
      | some makes => exact makes
      | none =>
        cases second with
        | some makes => exact makes
        | none => exact refused .mul a b
    | mod =>
      cases a with
      | str text => exact .fail rfl
      | _ => exact refused .mod _ b
    | _ => exact refused _ a b

/-! ### Slices -/

theorem map_selection {items : Array Value} (places : List Nat) :
    places.filterMap ((items.map (shift left))[·]?) = (places.filterMap (items[·]?)).map (shift left) := by
  simp only [List.map_filterMap, Array.getElem?_map]

theorem shifts_slice (v : Value) (s : Slice) : Shifts left (shift left) (v.slice s) ((v.shift left).slice s) := by
  apply Follows.look
  intro h
  cases v with
  | list ref =>
    simp only [shift_list, Cells.list_shift, Array.size_map]
    apply (shifts_ofExcept_id _).before
    intro places
    simp only [map_selection]
    exact shifts_newList _
  | tuple id items =>
    simp only [shift_tuple, ← List.map_toArray, Array.size_map]
    apply (shifts_ofExcept_id _).before
    intro places
    simp only [map_selection]
    exact shifts_newTuple _
  | str text => exact (shifts_ofExcept_id _).before fun _ => .done rfl
  | range r =>
    simp only [shift_range]
    split
    · exact .fail rfl
    · split
      · exact .done rfl
      · exact .fail rfl
  | _ => exact .fail rfl

theorem shifts_setItem (v index x : Value) :
    Shifts left id (v.setItem index x) ((v.shift left).setItem (index.shift left) (x.shift left)) := by
  apply Follows.look
  intro h
  cases v with
  | list ref =>
    simp only [shift_list, Cells.list_shift, Array.size_map, placeOf_shift]
    apply (shifts_ofExcept_id _).before
    intro i
    exact shifts_modifyList (fun items => by simp) ref
  | dict ref =>
    simp only [shift_dict, key_shift]
    apply (shifts_ofExcept_id _).before
    intro k
    exact shifts_modifyDict (fun d => d.put_shift k index x) ref
  | _ => exact .fail rfl

theorem map_splice (items : Array Value) (first count : Nat) (new : List Value) :
    splice (items.map (shift left)) first count (new.map (shift left))
      = (splice items first count new).map (shift left) := by
  apply Array.toList_inj.1
  simp [splice]

theorem map_setAll (items : Array Value) (places : List Nat) (new : List Value) :
    setAll (items.map (shift left)) places (new.map (shift left)) = (setAll items places new).map (shift left) := by
  induction places generalizing items new with
  | nil => cases new <;> rfl
  | cons i places ih =>
    cases new with
    | nil => rfl
    | cons x new =>
      simp only [List.map_cons, setAll, ← ih]
      rw [Array.map_setIfInBounds]

theorem shifts_setSlice (v : Value) (s : Slice) (new : Value) :
    Shifts left id (v.setSlice s new) ((v.shift left).setSlice s (new.shift left)) := by
  apply Follows.look
  intro h
  cases v with
  | list ref =>
    simp only [shift_list, Cells.list_shift, Array.size_map]
    apply (shifts_ofExcept (new.items_shift)).andThen
    intro new
    apply (shifts_ofExcept_id _).before
    intro places
    simp only [List.length_map]
    split
    · exact shifts_modifyList (fun items => map_splice items _ _ new) ref
    · split
      · exact .fail rfl
      · exact shifts_modifyList (fun items => map_setAll items places new) ref
  | _ => exact .fail rfl

theorem map_deleteAll (items : Array Value) (places : List Nat) :
    deleteAll (items.map (shift left)) places = (deleteAll items places).map (shift left) := by
  apply Array.toList_inj.1
  simp only [deleteAll, Array.size_map, Array.toList_filterMap, Array.toList_zip, Array.toList_map,
    List.zip_map_left, List.filterMap_map, List.map_filterMap]
  congr 1
  funext (x, gone)
  cases gone <;> rfl

theorem map_eraseIdxIfInBounds (items : Array Value) (i : Nat) :
    (items.map (shift left)).eraseIdxIfInBounds i = (items.eraseIdxIfInBounds i).map (shift left) := by
  simp only [Array.eraseIdxIfInBounds, Array.size_map]
  split
  · apply Array.toList_inj.1
    simp [List.eraseIdx_map]
  · rfl

theorem shifts_deleteItem (v index : Value) :
    Shifts left id (v.deleteItem index) ((v.shift left).deleteItem (index.shift left)) := by
  apply Follows.look
  intro h
  cases v with
  | list ref =>
    simp only [shift_list, Cells.list_shift, Array.size_map, placeOf_shift]
    apply (shifts_ofExcept_id _).before
    intro i
    exact shifts_modifyList (fun items => map_eraseIdxIfInBounds items i) ref
  | dict ref =>
    simp only [shift_dict, key_shift, Cells.dict_shift, Dict.index_shift, repr_shift]
    apply (shifts_ofExcept_id _).before
    intro k
    split
    · exact shifts_modifyDict (fun d => d.erase_shift k) ref
    · exact .fail rfl
  | _ => exact .fail rfl

theorem shifts_deleteSlice (v : Value) (s : Slice) :
    Shifts left id (v.deleteSlice s) ((v.shift left).deleteSlice s) := by
  apply Follows.look
  intro h
  cases v with
  | list ref =>
    simp only [shift_list, Cells.list_shift, Array.size_map]
    apply (shifts_ofExcept_id _).before
    intro places
    exact shifts_modifyList (fun items => map_deleteAll items places) ref
  | _ => exact .fail rfl

end Value

end SnippetKernel
