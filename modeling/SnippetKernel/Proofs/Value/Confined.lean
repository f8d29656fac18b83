import SnippetKernel.Proofs.Value.Region

/-! Work that stays within a region. If it begins with what is within, then so is all that it makes and all that
it leaves behind, however it ends. -/
namespace SnippetKernel

section

variable {ε σ α β : Type}

/-- The work keeps the invariant, and what it gives is good. -/
def Confined (inv : σ → Prop) (good : α → Prop) (work : EStateM ε σ α) : Prop :=
  ∀ s, inv s →
    match work s with
    | .ok a s => good a ∧ inv s
    | .error _ s => inv s

namespace Confined

variable {inv : σ → Prop} {good : α → Prop} {best : β → Prop} {work : EStateM ε σ α} {next : α → EStateM ε σ β}

theorem done {a : α} (h : good a) : Confined inv good (pure a : EStateM ε σ α) := fun _ begins => ⟨h, begins⟩

theorem fail (e : ε) : Confined inv good (throw e : EStateM ε σ α) := fun _ begins => begins

theorem andThen (first : Confined inv good work) (second : ∀ a, good a → Confined inv best (next a)) :
    Confined inv best (work >>= next) := by
  intro s begins
  have ends := first s begins
  change match EStateM.bind work next s with
    | .ok b s => best b ∧ inv s
    | .error _ s => inv s
  unfold EStateM.bind
  cases ended : work s with
  | ok a t =>
    rw [ended] at ends
    exact second a ends.1 t ends.2
  | error e t =>
    rw [ended] at ends
    exact ends

theorem map {f : α → β} (first : Confined inv good work) (le : ∀ a, good a → best (f a)) :
    Confined inv best (f <$> work) := by
  rw [map_eq_pure_bind]
  exact first.andThen fun a h => done (le a h)

/-- Work that looks at the state first. -/
theorem look {next : σ → EStateM ε σ β} (second : ∀ s, inv s → Confined inv best (next s)) :
    Confined inv best (get >>= next) := fun s begins => second s begins s begins

end Confined

end

/-! ### Work on the cells -/

namespace HeapM

variable {α : Type} {R : Region} {good : α → Prop}

/-- Work on the cells that stays within the region. -/
def Stays (R : Region) (good : α → Prop) (work : HeapM α) : Prop := Confined (Cells.Within R) good work

theorem stays_ofExcept {result : Except Exception α} (h : ∀ a, result = .ok a → good a) :
    Stays R good (ofExcept result) := by
  cases result with
  | ok a => exact .done (h a rfl)
  | error e => exact .fail e

theorem stays_ofExcept_any (result : Except Exception α) : Stays R (fun _ => True) (ofExcept result) :=
  stays_ofExcept fun _ _ => trivial

theorem stays_newListOf {items : Array Value} (inside : ∀ v ∈ items, v.Within R) :
    Stays R (Value.Within R) (newListOf items) := by
  intro h begins
  refine ⟨?_, begins.pushList inside⟩
  simpa [Value.Within] using begins.newLists _ (Nat.le_refl _)

theorem stays_newList {items : List Value} (inside : ∀ v ∈ items, v.Within R) :
    Stays R (Value.Within R) (newList items) := by
  apply stays_newListOf
  simpa using inside

theorem stays_newDict {d : Dict} (inside : d.Within R) : Stays R (Value.Within R) (newDict d) := by
  intro h begins
  refine ⟨?_, begins.pushDict inside⟩
  simpa [Value.Within] using begins.newDicts _ (Nat.le_refl _)

theorem stays_freshId : Stays R (fun _ => True) freshId := by
  intro h begins
  exact ⟨trivial, begins.list, begins.dict, begins.newLists, begins.newDicts⟩

theorem stays_newTuple {items : List Value} (inside : ∀ v ∈ items, v.Within R) :
    Stays R (Value.Within R) (newTuple items) :=
  stays_freshId.andThen fun _ _ => .done (Value.within_tuple.2 inside)

theorem stays_newException (e : Exception) : Stays R (Value.Within R) (newException e) :=
  stays_freshId.andThen fun _ _ => .done (Value.within_exception _ _)

theorem stays_modifyList {ref : Nat} {change : Array Value → Array Value}
    (inside : ∀ items : Array Value, (∀ v ∈ items, v.Within R) → ∀ v ∈ change items, v.Within R)
    (here : R.lists ref) : Stays R (fun _ => True) (modifyList ref change) :=
  fun _ begins => ⟨trivial, begins.modifyList inside here⟩

theorem stays_modifyDict {ref : Nat} {change : Dict → Dict}
    (inside : ∀ d : Dict, d.Within R → (change d).Within R) (here : R.dicts ref) :
    Stays R (fun _ => True) (modifyDict ref change) :=
  fun _ begins => ⟨trivial, begins.modifyDict inside here⟩

theorem stays_newPairs {pairs : List (Value × Value)}
    (inside : ∀ pair ∈ pairs, pair.1.Within R ∧ pair.2.Within R) :
    Stays R (fun items => ∀ v ∈ items, v.Within R) (newPairs pairs) := by
  induction pairs with
  | nil => exact .done (List.forall_mem_nil _)
  | cons pair rest ih =>
    obtain ⟨a, b⟩ := pair
    rw [List.forall_mem_cons] at inside
    have both : ∀ v ∈ [a, b], v.Within R := by simp [inside.1]
    apply (stays_newTuple both).andThen
    intro first first_within
    apply (ih inside.2).andThen
    intro more more_within
    exact .done (List.forall_mem_cons.2 ⟨first_within, more_within⟩)

end HeapM

/-! ### Operations on values -/

namespace Value

open HeapM

variable {R : Region} {h : Cells} {v : Value}

theorem within_items (begins : h.Within R) (here : v.Within R) {items : List Value}
    (read : v.items h = .ok items) : ∀ w ∈ items, w.Within R := by
  intro w mem
  cases v with
  | list ref =>
    cases read
    simp only [Within] at here
    exact begins.list ref here w (by simpa using mem)
  | tuple id items =>
    cases read
    exact within_tuple.1 here w mem
  | str text =>
    cases read
    obtain ⟨c, -, rfl⟩ := List.mem_map.1 mem
    simp [charText]
  | dict ref =>
    cases read
    simp only [Within] at here
    obtain ⟨entry, among, rfl⟩ := List.mem_map.1 mem
    exact ((begins.dict ref here).toList entry among).1
  | range r =>
    cases read
    obtain ⟨i, -, rfl⟩ := List.mem_map.1 mem
    simp
  | _ => cases read

theorem ok_of_bind {α β : Type} {x : Except Exception α} {f : α → Except Exception β} {b : β}
    (h : (x >>= f) = .ok b) : ∃ a, x = .ok a ∧ f a = .ok b := by
  cases x with
  | error e => cases h
  | ok a => exact ⟨a, rfl, h⟩

theorem within_item (begins : h.Within R) (here : v.Within R) {index found : Value}
    (read : v.item h index = .ok found) : found.Within R := by
  cases v with
  | list ref =>
    obtain ⟨i, -, read⟩ := ok_of_bind read
    simp only [Within] at here
    split at read
    · next w stored =>
      cases read
      exact begins.list ref here _ (Array.mem_of_getElem? stored)
    · cases read
  | tuple id items =>
    obtain ⟨i, -, read⟩ := ok_of_bind read
    split at read
    · next w stored =>
      cases read
      exact within_tuple.1 here _ (List.mem_of_getElem? stored)
    · cases read
  | str text =>
    obtain ⟨i, -, read⟩ := ok_of_bind read
    split at read <;> cases read <;> simp [charText]
  | range r =>
    obtain ⟨i, -, read⟩ := ok_of_bind read
    split at read <;> cases read
    simp
  | dict ref =>
    obtain ⟨found?, got, read⟩ := ok_of_bind read
    obtain ⟨k, -, got⟩ := ok_of_bind got
    simp only [Within] at here
    split at read
    · cases read
      exact (begins.dict ref here).find? (Except.ok.inj got)
    · cases read
  | _ => cases read

/-! Arithmetic makes numbers. -/

theorem within_fit {i : Int} {result : Value} (computed : fit i = .ok result) : result.Within R := by
  unfold fit at computed
  split at computed <;> cases computed
  simp

theorem within_intOp {op : Source.BinaryOp} {a b : Int64} {result : Value}
    (computed : intOp op a b = .ok result) : result.Within R := by
  cases op <;> simp only [intOp, intPower] at computed <;> repeat' split at computed
  all_goals first
    | exact within_fit computed
    | (cases computed <;> simp)

theorem within_floatOp {op : Source.BinaryOp} {a b : Double} {result : Value}
    (computed : floatOp op a b = .ok result) : result.Within R := by
  cases op <;> simp only [floatOp, floatPower] at computed <;> repeat' split at computed
  all_goals cases computed
  all_goals simp

theorem within_numberOp {op : Source.BinaryOp} {a b : Number} {result : Value}
    (computed : numberOp op a b = .ok result) : result.Within R := by
  unfold numberOp at computed
  split at computed
  · exact within_intOp computed
  · exact within_floatOp computed

theorem within_unary {op : Source.UnaryOp} {result : Value} (computed : v.unary h op = .ok result) :
    result.Within R := by
  unfold unary at computed
  split at computed
  · cases computed
    simp
  · exact within_fit computed
  all_goals cases computed
  all_goals simp

/-! ### Sequences -/

theorem mem_filterMap_get {items : Array Value} {places : List Nat} {w : Value}
    (mem : w ∈ places.filterMap (items[·]?)) : w ∈ items := by
  obtain ⟨i, -, stored⟩ := List.mem_filterMap.1 mem
  exact Array.mem_of_getElem? stored

theorem mem_repeatItems {items : Array Value} {n : Nat} {w : Value} (mem : w ∈ repeatItems items n) :
    w ∈ items := by
  have all (n : Nat) (done : Array Value) (mem : w ∈ repeatItems.go items n done) : w ∈ done ∨ w ∈ items := by
    induction n generalizing done with
    | zero => exact .inl mem
    | succ n ih =>
      obtain mem | mem := ih _ mem
      · exact Array.mem_append.1 mem
      · exact .inr mem
  simpa using all n #[] mem

theorem mem_setAll {items : Array Value} {places : List Nat} {new : List Value} {w : Value}
    (mem : w ∈ setAll items places new) : w ∈ items ∨ w ∈ new := by
  induction places generalizing items new with
  | nil =>
    cases new <;> exact .inl mem
  | cons i places ih =>
    cases new with
    | nil => exact .inl mem
    | cons x new =>
      obtain mem | mem := ih mem
      · obtain old | rfl := Array.mem_or_eq_of_mem_setIfInBounds mem
        · exact .inl old
        · exact .inr List.mem_cons_self
      · exact .inr (.tail _ mem)

theorem mem_eraseIdx {items : Array Value} {i : Nat} {w : Value} (mem : w ∈ items.eraseIdxIfInBounds i) :
    w ∈ items := by
  unfold Array.eraseIdxIfInBounds at mem
  split at mem
  · exact Array.mem_of_mem_eraseIdx mem
  · exact mem

theorem mem_splice {items : Array Value} {first count : Nat} {new : List Value} {w : Value}
    (mem : w ∈ splice items first count new) : w ∈ items ∨ w ∈ new := by
  rw [← Array.mem_toList_iff] at mem
  simp only [splice, Array.take_eq_extract, Array.drop_eq_extract, Array.toList_append, List.mem_append,
    Array.appendList_eq_append, Array.toList_appendList, Array.toList_extract, List.extract_eq_take_drop] at mem
  obtain (mem | mem) | mem := mem
  · exact .inl (Array.mem_toList_iff.1 (List.mem_of_mem_drop (List.mem_of_mem_take mem)))
  · exact .inr mem
  · exact .inl (Array.mem_toList_iff.1 (List.mem_of_mem_drop (List.mem_of_mem_take mem)))

theorem mem_deleteAll {items : Array Value} {places : List Nat} {w : Value} (mem : w ∈ deleteAll items places) :
    w ∈ items := by
  simp only [deleteAll, Array.mem_filterMap] at mem
  obtain ⟨⟨x, gone⟩, among, kept⟩ := mem
  split at kept
  · cases kept
  · cases kept
    exact (Array.of_mem_zip among).1

theorem stays_slice (here : v.Within R) (s : Slice) : Stays R (Value.Within R) (v.slice s) := by
  apply Confined.look
  intro h begins
  cases v with
  | list ref =>
    simp only [Within] at here
    apply (stays_ofExcept_any _).andThen
    intro places _
    apply stays_newList
    intro w mem
    exact begins.list ref here w (mem_filterMap_get mem)
  | tuple id items =>
    apply (stays_ofExcept_any _).andThen
    intro places _
    apply stays_newTuple
    intro w mem
    exact within_tuple.1 here w (by simpa using mem_filterMap_get mem)
  | str text =>
    apply (stays_ofExcept_any _).andThen
    intro places _
    exact .done (within_str _)
  | range r =>
    simp only
    split
    · exact .fail _
    · split
      · exact .done (within_range _)
      · exact .fail _
  | _ => exact .fail _

theorem stays_setItem (here : v.Within R) {index x : Value} (index_within : index.Within R)
    (x_within : x.Within R) : Stays R (fun _ => True) (v.setItem index x) := by
  apply Confined.look
  intro h begins
  cases v with
  | list ref =>
    apply (stays_ofExcept_any _).andThen
    intro i _
    apply stays_modifyList _ (by simpa only [Within] using here)
    intro items inside w mem
    obtain old | rfl := Array.mem_or_eq_of_mem_setIfInBounds mem
    · exact inside w old
    · exact x_within
  | dict ref =>
    apply (stays_ofExcept_any _).andThen
    intro k _
    apply stays_modifyDict _ (by simpa only [Within] using here)
    intro d inside
    exact inside.put k index_within x_within
  | _ => exact .fail _

theorem stays_setSlice (here : v.Within R) (s : Slice) {new : Value} (new_within : new.Within R) :
    Stays R (fun _ => True) (v.setSlice s new) := by
  apply Confined.look
  intro h begins
  cases v with
  | list ref =>
    have inside : R.lists ref := by simpa only [Within] using here
    apply (stays_ofExcept fun items read => within_items begins new_within read).andThen
    intro new new_within
    apply (stays_ofExcept_any _).andThen
    intro places _
    split
    · apply stays_modifyList _ inside
      intro items old w mem
      exact (mem_splice mem).elim (old w) (new_within w)
    · split
      · exact .fail _
      · apply stays_modifyList _ inside
        intro items old w mem
        exact (mem_setAll mem).elim (old w) (new_within w)
  | _ => exact .fail _

theorem stays_deleteItem (here : v.Within R) (index : Value) : Stays R (fun _ => True) (v.deleteItem index) := by
  apply Confined.look
  intro h begins
  cases v with
  | list ref =>
    apply (stays_ofExcept_any _).andThen
    intro i _
    apply stays_modifyList _ (by simpa only [Within] using here)
    intro items inside w mem
    exact inside w (mem_eraseIdx mem)
  | dict ref =>
    apply (stays_ofExcept_any _).andThen
    intro k _
    split
    · apply stays_modifyDict _ (by simpa only [Within] using here)
      intro d inside
      exact inside.erase k
    · exact .fail _
  | _ => exact .fail _

theorem stays_deleteSlice (here : v.Within R) (s : Slice) : Stays R (fun _ => True) (v.deleteSlice s) := by
  apply Confined.look
  intro h begins
  cases v with
  | list ref =>
    apply (stays_ofExcept_any _).andThen
    intro places _
    apply stays_modifyList _ (by simpa only [Within] using here)
    intro items inside w mem
    exact inside w (mem_deleteAll mem)
  | _ => exact .fail _

theorem stays_repeated {h : Cells} (begins : h.Within R) (here : v.Within R) {times : Value}
    {make : HeapM Value} (found : repeated? h v times = some make) : Stays R (Value.Within R) make := by
  unfold repeated? at found
  split at found
  · cases found
    exact (stays_ofExcept_any _).andThen fun _ _ => .done (within_str _)
  · next ref _ _ =>
    cases found
    apply (stays_ofExcept_any _).andThen
    intro n _
    apply stays_newListOf
    intro w mem
    exact begins.list ref (by simpa only [Within] using here) w (mem_repeatItems mem)
  · cases found
    apply (stays_ofExcept_any _).andThen
    intro n _
    apply stays_newTuple
    intro w mem
    have among := mem_repeatItems (Array.mem_toList_iff.1 mem)
    exact within_tuple.1 here w (by simpa using among)
  · cases found

theorem stays_binary (op : Source.BinaryOp) {a b : Value} (left : a.Within R) (right : b.Within R) :
    Stays R (Value.Within R) (binary op a b) := by
  unfold binary
  split
  · exact stays_ofExcept fun _ computed => within_numberOp computed
  · split
    · exact .done (within_str _)
    · next r s _ =>
      apply Confined.look
      intro h begins
      apply stays_newListOf
      intro w mem
      simp only [Within] at left right
      exact (Array.mem_append.1 mem).elim (begins.list r left w) (begins.list s right w)
    · apply stays_newTuple
      intro w mem
      exact (List.mem_append.1 mem).elim (within_tuple.1 left w) (within_tuple.1 right w)
    · apply Confined.look
      intro h begins
      split
      · next make found => exact stays_repeated begins left found
      · next make found _ => exact stays_repeated begins right found
      · exact .fail _
    · exact .fail _
    · exact .fail _

end Value

end SnippetKernel
