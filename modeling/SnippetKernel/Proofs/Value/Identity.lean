import SnippetKernel.Proofs.Value.Comparison
import SnippetKernel.Value.Items

/-! What a value is to itself: the same for `is`, equal for `==`, and found by `in` in a list or tuple that holds it.
A floating point number and a range are not the same as themselves, and a bound method is not even equal to itself,
any more than a NaN or a tuple with one of these in it. -/
namespace SnippetKernel.Value

/-- Values that are not equal to themselves. Lists and dicts are equal to themselves, whatever they hold. -/
inductive Estranged : Value → Prop
  | nan {d : Double} (nan : d.isNaN = true) : Estranged (float d)
  | method {v : Value} (method : v.valueType = .method) : Estranged v
  | tuple {id : Nat} {items : List Value} {item : Value} (mem : item ∈ items) (inner : Estranged item) :
    Estranged (tuple id items)

/-- There is an answer, or the comparison was too deep. -/
def Decided {α : Type} (r : Except Exception α) : Prop := (∃ a, r = .ok a) ∨ r = .error tooDeep

variable {h : Cells} {d : Nat} {v : Value}

theorem Decided.ok {α : Type} (a : α) : Decided (.ok a) := .inl ⟨a, rfl⟩

theorem same_self : v.same v = true ↔ v.valueType ≠ .float ∧ v.valueType ≠ .range ∧ v.valueType ≠ .method := by
  rw [same_iff]
  cases v <;> simp [identity?, valueType]

/-! ### Equal to itself -/

theorem Number.float_eq_self (d : Double) : (Number.float d).eq (.float d) = !d.isNaN := Double.eq_self d

theorem decided_self (h : Cells) (d : Nat) (v : Value) : Decided (equalWithin h d v v) := by
  induction d using Nat.strong_induction_on generalizing v with
  | _ d ih =>
    cases v with
    | list r => exact .inl ⟨true, by rw [equalWithin_list, if_pos rfl]⟩
    | dict r => exact .inl ⟨true, by rw [equalWithin_dict, if_pos rfl]⟩
    | range r => exact .inl ⟨_, equalWithin_range r r⟩
    | tuple id items =>
      rw [equalWithin_tuple]
      refine equalItems_ends Decided.ok (fun _ => .inr rfl) fun e deeper i x y here there => ?_
      obtain rfl := Option.some.inj (here.symm.trans there)
      exact ih e (by omega) x
    | bool _ | int _ | float _ => exact .inl ⟨_, equalWithin_numbers rfl rfl⟩
    | str text => exact .inl ⟨_, equalWithin_text⟩
    | _ => exact .inl ⟨_, equalWithin_plain (.inl trivial)⟩

theorem not_equal_of_estranged (estranged : Estranged v) : equalWithin h d v v ≠ .ok true := by
  induction estranged generalizing d with
  | nan nan =>
    rw [equalWithin_numbers rfl rfl, Number.float_eq_self, nan]
    simp
  | @method v method =>
    have unlike : v.same v ≠ true := fun one => (same_self.mp one).2.2 method
    have plain : v.Plain := by cases v <;> trivial
    rw [equalWithin_plain (.inl plain)]
    simpa using unlike
  | tuple mem inner ih =>
    intro yes
    rw [equalWithin_tuple] at yes
    obtain ⟨e, rfl, agree⟩ := equalItems_true yes
    obtain ⟨i, here⟩ := List.mem_iff_getElem?.mp mem
    exact ih (agree.items i _ _ here here)

theorem estranged_of_not_equal (no : equalWithin h d v v = .ok false) : Estranged v := by
  induction d using Nat.strong_induction_on generalizing v with
  | _ d ih =>
    have alone (plain : v.Plain) : Estranged v := by
      rw [equalWithin_plain (.inl plain), Except.ok.injEq, Bool.eq_false_iff, Ne, same_self] at no
      refine .method (not_not.mp fun other => no ⟨fun is => ?_, fun is => ?_, other⟩) <;> cases v <;> trivial
    cases v with
    | list r => simp [equalWithin_list] at no
    | dict r => simp [equalWithin_dict] at no
    | range r => simp [equalWithin_range, (Range.same_iff r r).mpr] at no
    | tuple id xs =>
      rw [equalWithin_tuple] at no
      obtain ⟨e, rfl, i, x, y, here, there, differs⟩ := equalItems_false rfl no
      obtain rfl := Option.some.inj (here.symm.trans there)
      exact .tuple (List.mem_of_getElem? here) (ih e (Nat.lt_succ_self e) differs)
    | float n =>
      rw [equalWithin_numbers rfl rfl, Number.float_eq_self] at no
      exact .nan (by simpa using no)
    | bool _ | int _ =>
      rw [equalWithin_numbers rfl rfl] at no
      simp [Number.eq] at no
    | str text => simp [equalWithin_text, same] at no
    | _ => exact alone trivial

/-! ### Found among others -/

theorem position?_finds (answers : ∀ a b, Decided (equal h a b)) (fits : ¬ Estranged v) {items : List Value}
    (mem : v ∈ items) :
    (∃ i, position? h v items = .ok (some i)) ∨ position? h v items = .error tooDeep := by
  have found (n : Nat) : (∃ i, position?.go h v n items = .ok (some i)) ∨
      position?.go h v n items = .error tooDeep := by
    induction items generalizing n with
    | nil => cases mem
    | cons item rest ih =>
      rw [position?.go]
      obtain ⟨p, compared⟩ | raised := answers item v
      · rw [compared]
        cases p with
        | true => exact .inl ⟨n, rfl⟩
        | false =>
          obtain rfl | mem := List.mem_cons.mp mem
          · exact absurd (estranged_of_not_equal compared) fits
          · exact ih mem (n + 1)
      · rw [raised]
        exact .inr rfl
  exact found 0

theorem found_in (answers : ∀ a b, Decided (equal h a b)) (fits : ¬ Estranged v) {items : List Value}
    (mem : v ∈ items) : (position? h v items).map (·.isSome) = .ok true ∨
      (position? h v items).map (·.isSome) = .error tooDeep := by
  obtain ⟨i, found⟩ | raised := position?_finds answers fits mem
  · exact .inl (by rw [found]; rfl)
  · exact .inr (by rw [raised]; rfl)

/-- `v is v` unless `v` is a floating point number, a range or a bound method. `v == v` is true or too deep, unless
`v` is a NaN, a bound method, or a tuple with such a thing in it; and then `v` is in all lists and tuples that hold
it, if they can be searched at all. -/
theorem compareBy_itself (made : h.Made) (v : Value) :
    (compareBy h .is v v = .ok true ↔ v.valueType ≠ .float ∧ v.valueType ≠ .range ∧ v.valueType ≠ .method) ∧
      (compareBy h .eq v v = .ok true ∨ compareBy h .eq v v = .ok false ∨ compareBy h .eq v v = .error tooDeep) ∧
      (compareBy h .eq v v = .ok true → ¬ Estranged v) ∧ (compareBy h .eq v v = .ok false → Estranged v) ∧
      (¬ Estranged v →
        (∀ ref, v ∈ h.list ref →
          compareBy h .isIn v (list ref) = .ok true ∨ compareBy h .isIn v (list ref) = .error tooDeep) ∧
        ∀ id items, v ∈ items →
          compareBy h .isIn v (tuple id items) = .ok true ∨ compareBy h .isIn v (tuple id items) = .error tooDeep) := by
  choose listed shows using made.shows
  have answers (a b : Value) : Decided (equal h a b) := (answered shows maxDepth a b).imp_right And.left
  refine ⟨?_, ?_, ?_, ?_, fun fits => ⟨?_, ?_⟩⟩
  · rw [← same_self]
    simp [compareBy]
  · obtain ⟨p, compared⟩ | raised := decided_self h maxDepth v
    · cases p with
      | true => exact .inl compared
      | false => exact .inr (.inl compared)
    · exact .inr (.inr raised)
  · exact fun equal estranged => not_equal_of_estranged estranged equal
  · exact estranged_of_not_equal
  · exact fun ref mem => found_in answers fits (Array.mem_toList_iff.mpr mem)
  · exact fun id items mem => found_in answers fits mem

/-- A list that holds a bound method and a function. -/
def holdsBoth : Cells where
  lists := #[#[], #[.listMethod 0 .append, .function 0 "f" 0 []]]
  dicts := #[]
  fresh := 1

theorem compareBy_itself_of_function : holdsBoth.Made ∧
    compareBy holdsBoth .is (function 0 "f" 0 []) (function 0 "f" 0 []) = .ok true ∧
    compareBy holdsBoth .eq (function 0 "f" 0 []) (function 0 "f" 0 []) = .ok true ∧
    function 0 "f" 0 [] ∈ holdsBoth.list 1 ∧ compareBy holdsBoth .isIn (function 0 "f" 0 []) (list 1) = .ok true := by
  have made : holdsBoth.Made := fun d mem => by simp [holdsBoth] at mem
  have equal : compareBy holdsBoth .eq (function 0 "f" 0 []) (function 0 "f" 0 []) = .ok true := by decide
  obtain ⟨one, -, fits, -, found⟩ := compareBy_itself made (function 0 "f" 0 [])
  have held : function 0 "f" 0 [] ∈ holdsBoth.list 1 := by simp [holdsBoth, Cells.list]
  refine ⟨made, one.mpr ⟨by decide, by decide, by decide⟩, equal, held, ?_⟩
  exact ((found (fits equal)).1 1 held).resolve_right (by decide)

/-- The method is not the same as itself, it is not equal to itself, and it is not found in the list that holds it. -/
theorem method_unlike_itself :
    compareBy holdsBoth .is (listMethod 0 .append) (listMethod 0 .append) = .ok false ∧
      compareBy holdsBoth .eq (listMethod 0 .append) (listMethod 0 .append) = .ok false ∧
      listMethod 0 .append ∈ holdsBoth.list 1 ∧
      compareBy holdsBoth .isIn (listMethod 0 .append) (list 1) = .ok false :=
  ⟨by decide, by decide, by simp [holdsBoth, Cells.list], by decide⟩

end SnippetKernel.Value
