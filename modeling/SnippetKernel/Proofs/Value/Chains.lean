import SnippetKernel.Proofs.Value.Order
import SnippetKernel.Proofs.Value.Ordinary

/-! Containers nested in one another, and how many of them a comparison looks into. A value that is inside itself is
nested as deep as one likes, so nothing has to be said of cycles: each comparison goes one container deeper in both
values at once, and it gives up only where both have another one at the last depth. -/
namespace SnippetKernel.Value

/-- Something that holds values. -/
def IsContainer : Value → Prop
  | list _ | tuple .. | dict _ => True
  | _ => False

/-- So many containers, each of them held by the one before; the first one is the value. -/
def ChainFrom (h : Cells) (n : Nat) (v : Value) : Prop :=
  ∃ cs : List Value, cs.length = n ∧ cs.head? = some v ∧ cs.IsChain (Holds h) ∧ ∀ c ∈ cs, c.IsContainer

variable {h : Cells} {d n : Nat} {a b v w part : Value}

theorem isContainer_of_holds (held : Holds h v part) : v.IsContainer := by
  cases v with
  | list _ | tuple _ _ | dict _ => trivial
  | _ => cases held

theorem not_shallow_zero : ¬ Shallow h 0 v ↔ v.IsContainer := by
  cases v <;> simp [Shallow, IsContainer]

theorem chainFrom_one : ChainFrom h 1 v ↔ v.IsContainer := by
  constructor
  · rintro ⟨cs, -, first, -, containers⟩
    exact containers v (List.mem_of_head? first)
  · intro container
    exact ⟨[v], rfl, rfl, .singleton v, List.forall_mem_singleton.mpr container⟩

theorem chainFrom_more : ChainFrom h (n + 2) v ↔ ∃ part, Holds h v part ∧ ChainFrom h (n + 1) part := by
  constructor
  · rintro ⟨cs, length, first, chain, containers⟩
    obtain ⟨c, cs, rfl⟩ := List.exists_cons_of_length_eq_add_one length
    obtain ⟨c', cs, rfl⟩ := List.exists_cons_of_length_eq_add_one (Nat.succ.inj length)
    obtain rfl := Option.some.inj first
    rw [List.isChain_cons_cons] at chain
    exact ⟨c', chain.1, c' :: cs, Nat.succ.inj length, rfl, chain.2, (List.forall_mem_cons.mp containers).2⟩
  · rintro ⟨part, held, cs, length, first, chain, containers⟩
    obtain ⟨c, cs, rfl⟩ := List.exists_cons_of_length_eq_add_one length
    obtain rfl := Option.some.inj first
    exact ⟨v :: c :: cs, congrArg Nat.succ length, rfl, .cons_cons held chain,
      List.forall_mem_cons.mpr ⟨isContainer_of_holds held, containers⟩⟩

theorem chainFrom_iff : ChainFrom h (d + 1) v ↔ ¬ Shallow h d v := by
  induction d generalizing v with
  | zero => rw [chainFrom_one, not_shallow_zero]
  | succ d ih =>
    rw [chainFrom_more, Shallow]
    simp only [ih, Holds, not_forall, exists_prop]

theorem Shallow.held (shallow : Shallow h d v) (held : Holds h v part) : ∃ e < d, Shallow h e part := by
  cases d with
  | zero => exact absurd shallow (not_shallow_zero.mpr (isContainer_of_holds held))
  | succ d => exact ⟨d, Nat.lt_succ_self d, shallow part held⟩

theorem Shallow.within (shallow : Shallow h d v) (within : Relation.TransGen (Holds h) v w) :
    ∃ e < d, Shallow h e w := by
  induction within with
  | single held => exact shallow.held held
  | tail _ held ih =>
    obtain ⟨e, less, shallow⟩ := ih
    obtain ⟨e', less', shallow⟩ := shallow.held held
    exact ⟨e', less'.trans less, shallow⟩

/-- What is inside itself is nested deeper than any number says. -/
theorem Shallow.not_cyclic (shallow : Shallow h d v) : ¬ Relation.TransGen (Holds h) v v := by
  intro cycle
  induction d using Nat.strong_induction_on with
  | _ d ih =>
    obtain ⟨e, less, shallow⟩ := shallow.within cycle
    exact ih e less shallow

/-! ### How deep comparisons look -/

/-- The comparison gave up, for both values have containers nested deeper than it looks. -/
def BothDeep (h : Cells) (d : Nat) (a b : Value) (e : Exception) : Prop :=
  e = tooDeep ∧ ¬ Shallow h d a ∧ ¬ Shallow h d b

variable {listed : Nat → Listing} {allowed : Exception → Prop} {xs ys : List Value} {e : Exception}

theorem BothDeep.around {x y : Value} (deep : BothDeep h d x y e) (here : Holds h a x) (there : Holds h b y) :
    BothDeep h (d + 1) a b e :=
  ⟨deep.1, fun shallow => deep.2.1 (shallow x here), fun shallow => deep.2.2 (shallow y there)⟩

theorem errs_equalWithin (shows : ∀ ref, (h.dict ref).Shows (listed ref)) (d : Nat) (a b : Value) :
    ErrsWith (BothDeep h d a b) (equalWithin h d a b) := by
  obtain ⟨p, compared⟩ | ⟨raised, deep⟩ := answered shows d a b
  · simp [compared]
  · simp [raised, BothDeep, deep]

theorem errs_compareItems (eqs : ∀ x ∈ xs, ∀ y ∈ ys, ErrsWith allowed (equalWithin h d x y))
    (cmps : ∀ x ∈ xs, ∀ y ∈ ys, ErrsWith allowed (compareWithin h d x y)) :
    ErrsWith allowed (compareItems (equalWithin h d) (compareWithin h d) xs ys) := by
  induction xs generalizing ys with
  | nil => cases ys <;> simp [compareItems]
  | cons x xs ih =>
    cases ys with
    | nil => simp [compareItems]
    | cons y ys =>
      simp only [List.forall_mem_cons] at eqs cmps
      have rest := ih (fun x here y there => (eqs.2 x here).2 y there) fun x here y there => (cmps.2 x here).2 y there
      simp [compareItems, eqs.1.1, cmps.1.1, rest]

/-- The values have no order, or the comparison gave up. -/
def Unordered (h : Cells) (d : Nat) (a b : Value) (e : Exception) : Prop :=
  e.kind = .type ∨ e.kind = .value ∨ BothDeep h d a b e

theorem Unordered.around {x y : Value} (unordered : Unordered h d x y e) (here : Holds h a x) (there : Holds h b y) :
    Unordered h (d + 1) a b e :=
  unordered.imp_right (.imp_right fun deep => deep.around here there)

theorem errs_compareWithin (shows : ∀ ref, (h.dict ref).Shows (listed ref)) (d : Nat) (a b : Value) :
    ErrsWith (Unordered h d a b) (compareWithin h d a b) := by
  induction d using Nat.strong_induction_on generalizing a b with
  | _ d ih =>
    unfold compareWithin
    split
    · split
      · exact .done _
      · exact ErrsWith.throw_iff.mpr (.inr (.inl rfl))
    · split
      · exact .done _
      · exact ErrsWith.throw_iff.mpr (.inr (.inr ⟨rfl, id, id⟩))
      · next d r s _ =>
        refine errs_compareItems (fun x here y there e raised => ?_) fun x here y there e raised => ?_
        · exact .inr (.inr ((errs_equalWithin shows d x y e raised).around here there))
        · exact (ih d (Nat.lt_succ_self d) x y e raised).around here there
      · exact ErrsWith.throw_iff.mpr (.inr (.inr ⟨rfl, id, id⟩))
      · next d i xs j ys _ =>
        refine errs_compareItems (fun x here y there e raised => ?_) fun x here y there e raised => ?_
        · exact .inr (.inr ((errs_equalWithin shows d x y e raised).around here there))
        · exact (ih d (Nat.lt_succ_self d) x y e raised).around here there
      · exact ErrsWith.throw_iff.mpr (.inl rfl)

theorem errs_ordered (shows : ∀ ref, (h.dict ref).Shows (listed ref)) (op : Source.CompareOp)
    (accept : Ordering → Bool) (a b : Value) :
    ErrsWith (fun e => e.kind = .type ∨ BothDeep h maxDepth a b e) (ordered h op accept a b) := by
  unfold ordered
  have errs := errs_compareWithin shows maxDepth a b
  rw [← compareValues] at errs
  cases compared : compareValues h a b with
  | ok o => exact .ok _
  | error e =>
    rw [compared, ErrsWith.error_iff] at errs
    simp only
    split
    · exact .ok _
    · next known =>
      split
      · next kind =>
        refine ErrsWith.error_iff.mpr (.inr ?_)
        obtain type | value | deep := errs
        · cases type.symm.trans kind
        · exact absurd value known
        · exact deep
      · exact ErrsWith.error_iff.mpr (.inl rfl)

/-! ### Searching -/

theorem errs_position? (shows : ∀ ref, (h.dict ref).Shows (listed ref)) (v : Value) {items : List Value}
    (within : ∀ item ∈ items, Holds h w item) :
    ErrsWith (fun e => e = tooDeep ∧ ¬ Shallow h maxDepth v ∧ ¬ Shallow h (maxDepth + 1) w) (position? h v items) := by
  have from_ (i : Nat) : ErrsWith (fun e => e = tooDeep ∧ ¬ Shallow h maxDepth v ∧ ¬ Shallow h (maxDepth + 1) w)
      (position?.go h v i items) := by
    induction items generalizing i with
    | nil => simp [position?.go]
    | cons item rest ih =>
      rw [List.forall_mem_cons] at within
      rw [position?.go, ErrsWith.bind_iff]
      constructor
      · intro e raised
        obtain ⟨rfl, deep, deep'⟩ := errs_equalWithin shows maxDepth item v e raised
        exact ⟨rfl, deep', fun shallow => deep (shallow item within.1)⟩
      · intro found _
        cases found with
        | true => exact .ok _
        | false => exact ih within.2 (i + 1)
  exact from_ 0

theorem errs_contains (shows : ∀ ref, (h.dict ref).Shows (listed ref)) (container item : Value) :
    ErrsWith (fun e => e.kind = .type ∨
      e = tooDeep ∧ ¬ Shallow h maxDepth item ∧ ¬ Shallow h (maxDepth + 1) container) (contains h container item) := by
  unfold contains
  split
  · split
    · exact .ok _
    · exact ErrsWith.error_iff.mpr (.inl rfl)
  · next ref =>
    have within : ∀ part ∈ (h.list ref).toList, Holds h (list ref) part := fun part mem => mem
    exact ErrsWith.exceptMap_iff.mpr fun e raised => .inr (errs_position? shows item within e raised)
  · next id items =>
    have within : ∀ part ∈ items, Holds h (tuple id items) part := fun part mem => mem
    exact ErrsWith.exceptMap_iff.mpr fun e raised => .inr (errs_position? shows item within e raised)
  · rw [Dict.contains, ErrsWith.bind_iff]
    exact ⟨fun e raised => .inl (errs_key item e raised), fun _ _ => .done _⟩
  · split <;> exact .ok _
  · exact ErrsWith.error_iff.mpr (.inl rfl)

end SnippetKernel.Value
