import SnippetKernel.Proofs.Value.Comparison
import SnippetKernel.Value.Items

/-! The order of values. Two lists are ordered by the first items that are not equal, so the order of items, their
equality and what equal items have in common go into each law about lists; and each goes from the items to the lists
by induction on the depth that is left. A comparison that gives an answer can be turned around, and without floating
point numbers it goes together with `==`, which equal values cannot tell apart. -/
namespace SnippetKernel.Value

/-- The first items that are not equal decide; if there are none, the shorter list comes first. -/
inductive ItemsOrdered (h : Cells) (d : Nat) : List Value → List Value → Ordering → Prop
  | ended : ItemsOrdered h d [] [] .eq
  | shorter (y : Value) (ys : List Value) : ItemsOrdered h d [] (y :: ys) .lt
  | longer (x : Value) (xs : List Value) : ItemsOrdered h d (x :: xs) [] .gt
  | later {x y : Value} {xs ys : List Value} {o : Ordering} (equal : equalWithin h d x y = .ok true)
    (rest : ItemsOrdered h d xs ys o) : ItemsOrdered h d (x :: xs) (y :: ys) o
  | here {x y : Value} {o : Ordering} (xs ys : List Value) (differ : equalWithin h d x y = .ok false)
    (order : compareWithin h d x y = .ok o) : ItemsOrdered h d (x :: xs) (y :: ys) o

/-- Why two values are in this order. -/
inductive Ordered (h : Cells) : Nat → Value → Value → Ordering → Prop
  | numbers {d : Nat} {a b : Value} {x y : Number} {o : Ordering} (first : a.number? = some x)
    (second : b.number? = some y) (order : x.compare? y = some o) : Ordered h d a b o
  | texts {d : Nat} {s t : String} {o : Ordering} (order : compare s t = o) : Ordered h d (str s) (str t) o
  | lists {d r s : Nat} {o : Ordering} (items : ItemsOrdered h d (h.list r).toList (h.list s).toList o) :
    Ordered h (d + 1) (list r) (list s) o
  | tuples {d : Nat} (i j : Nat) {xs ys : List Value} {o : Ordering} (items : ItemsOrdered h d xs ys o) :
    Ordered h (d + 1) (tuple i xs) (tuple j ys) o

variable {h : Cells} {d : Nat} {a b c : Value} {o : Ordering} {xs ys : List Value} {listed : Nat → Listing}

theorem compareItems_ok : compareItems (equalWithin h d) (compareWithin h d) xs ys = .ok o ↔
    ItemsOrdered h d xs ys o := by
  constructor
  · intro compared
    induction xs generalizing ys with
    | nil =>
      cases ys <;> cases compared
      · exact .ended
      · exact .shorter _ _
    | cons x xs ih =>
      cases ys with
      | nil =>
        cases compared
        exact .longer _ _
      | cons y ys =>
        rw [compareItems] at compared
        cases equal : equalWithin h d x y with
        | error e => simp [equal, bind, Except.bind] at compared
        | ok p =>
          rw [equal] at compared
          cases p with
          | true => exact .later equal (ih compared)
          | false => exact .here _ _ equal compared
  · intro ordered
    induction ordered with
    | ended | shorter | longer => rfl
    | later equal _ ih =>
      rw [compareItems, equal]
      exact ih
    | here xs ys differ order =>
      rw [compareItems, differ]
      exact order

theorem compareWithin_list (r s : Nat) : compareWithin h d (list r) (list s) =
    inside d fun d => compareItems (equalWithin h d) (compareWithin h d) (h.list r).toList (h.list s).toList := by
  cases d <;> rfl

theorem compareWithin_tuple (i j : Nat) (xs ys : List Value) : compareWithin h d (tuple i xs) (tuple j ys) =
    inside d fun d => compareItems (equalWithin h d) (compareWithin h d) xs ys := by
  cases d <;> rfl

theorem compareWithin_text (s t : String) : compareWithin h d (str s) (str t) = .ok (compare s t) := by
  cases d <;> rfl

theorem compareWithin_numbers {x y : Number} (first : a.number? = some x) (second : b.number? = some y)
    (order : x.compare? y = some o) : compareWithin h d a b = .ok o := by
  unfold compareWithin
  rw [first, second]
  simp only [order]
  rfl

theorem compare_of_ordered (ordered : Ordered h d a b o) : compareWithin h d a b = .ok o := by
  cases ordered with
  | numbers first second order => exact compareWithin_numbers first second order
  | texts order => exact order ▸ compareWithin_text _ _
  | lists items =>
    rw [compareWithin_list]
    exact compareItems_ok.mpr items
  | tuples i j items =>
    rw [compareWithin_tuple]
    exact compareItems_ok.mpr items

/-- A comparison that gives an answer has a reason for it. -/
theorem ordered_of_compare (compared : compareWithin h d a b = .ok o) : Ordered h d a b o := by
  unfold compareWithin at compared
  split at compared
  · next x y first second =>
    cases order : x.compare? y with
    | none => simp [order] at compared
    | some o' =>
      obtain rfl : o' = o := by simpa [order, pure, Except.pure] using compared
      exact .numbers first second order
  · split at compared
    · cases compared
      exact .texts rfl
    · cases compared
    · exact .lists (compareItems_ok.mp compared)
    · cases compared
    · exact .tuples _ _ (compareItems_ok.mp compared)
    · cases compared

/-! ### Either way around -/

/-- The comparison can be turned around, and `==` agrees with it. -/
structure Settled (h : Cells) (d : Nat) (a b : Value) (o : Ordering) : Prop where
  turned : compareWithin h d b a = .ok o.swap
  equal : equalWithin h d a b = .ok (o == .eq)

theorem swap_beq_eq (o : Ordering) : (o.swap == .eq) = (o == .eq) := by cases o <;> rfl

theorem eq_of_swap (same : o = o.swap) : o = .eq := by cases o <;> first | rfl | cases same

theorem compare_beq_eq {α : Type} [Ord α] [Std.LawfulEqOrd α] [DecidableEq α] (s t : α) :
    (compare s t == .eq) = (s == t) := by
  rw [Bool.eq_iff_iff]
  simp

theorem settled_numbers {x y : Number} (wholeA : a.NotFloat) (wholeB : b.NotFloat) (first : a.number? = some x)
    (second : b.number? = some y) (order : x.compare? y = some o) : Settled h d a b o := by
  obtain ⟨i, -, rfl⟩ := number?_of_notFloat wholeA first
  obtain ⟨j, -, rfl⟩ := number?_of_notFloat wholeB second
  obtain rfl : compare i j = o := Option.some.inj order
  constructor
  · exact compareWithin_numbers second first (congrArg some Std.OrientedCmp.eq_swap)
  · rw [equalWithin_numbers first second, Number.eq, compare_beq_eq]

theorem settled_texts {s t : String} (order : compare s t = o) : Settled h d (str s) (str t) o := by
  subst order
  constructor
  · exact (compareWithin_text t s).trans (congrArg Except.ok Std.OrientedCmp.eq_swap)
  · rw [equalWithin_text, same, compare_beq_eq]

section Items

variable (settled : ∀ x ∈ xs, ∀ y ∈ ys, ∀ o, compareWithin h d x y = .ok o → Settled h d x y o)

include settled

theorem ItemsOrdered.turned (shows : ∀ ref, (h.dict ref).Shows (listed ref))
    (back : ∀ y ∈ ys, ∀ x ∈ xs, ∀ o, compareWithin h d y x = .ok o → Settled h d y x o)
    (ordered : ItemsOrdered h d xs ys o) : ItemsOrdered h d ys xs o.swap := by
  induction ordered with
  | ended => exact .ended
  | shorter y ys => exact .longer y ys
  | longer x xs => exact .shorter x xs
  | later equal _ ih =>
    refine .later (equalWithin_symm shows equal) (ih ?_ ?_)
    · exact fun x here y there => settled x (List.mem_cons_of_mem _ here) y (List.mem_cons_of_mem _ there)
    · exact fun y there x here => back y (List.mem_cons_of_mem _ there) x (List.mem_cons_of_mem _ here)
  | @here x y o xs ys differ order =>
    have forth := settled x List.mem_cons_self y List.mem_cons_self o order
    have unequal := (back y List.mem_cons_self x List.mem_cons_self _ forth.turned).equal
    rw [swap_beq_eq, ← Except.ok.inj (differ.symm.trans forth.equal)] at unequal
    exact .here ys xs unequal forth.turned

theorem ItemsOrdered.equalItems (ordered : ItemsOrdered h d xs ys o) :
    equalItems h (d + 1) xs ys = .ok (o == .eq) := by
  induction ordered with
  | ended => rfl
  | shorter y ys => rfl
  | longer x xs => rfl
  | @later x y xs ys o equal _ ih =>
    have rest := ih fun x here y there => settled x (List.mem_cons_of_mem _ here) y (List.mem_cons_of_mem _ there)
    rw [← rest]
    simp [Value.equalItems, inside, allEqual, equal, bind, Except.bind]
  | @here x y o xs ys differ order =>
    have unequal := (settled x List.mem_cons_self y List.mem_cons_self o order).equal
    rw [← Except.ok.inj (differ.symm.trans unequal)]
    simp [Value.equalItems, inside, allEqual, differ, bind, Except.bind, pure, Except.pure]

end Items

/-- Whether a value is compared with another or the other with it comes to the same. -/
theorem settled (shows : ∀ ref, (h.dict ref).Shows (listed ref)) (wholeA : Throughout h NotFloat a)
    (wholeB : Throughout h NotFloat b) (compared : compareWithin h d a b = .ok o) : Settled h d a b o := by
  induction d using Nat.strong_induction_on generalizing a b o with
  | _ d ih =>
    cases ordered_of_compare compared with
    | numbers first second order => exact settled_numbers wholeA.here wholeB.here first second order
    | texts order => exact settled_texts order
    | @lists d r s o items =>
      have within {r s : Nat} (wholeR : Throughout h NotFloat (list r)) (wholeS : Throughout h NotFloat (list s)) :
          ∀ x ∈ (h.list r).toList, ∀ y ∈ (h.list s).toList, ∀ o, compareWithin h d x y = .ok o →
            Settled h d x y o :=
        fun x here y there o => ih d (Nat.lt_succ_self d) (wholeR.held here) (wholeS.held there)
      have turned := compare_of_ordered (.lists (items.turned (within wholeA wholeB) shows (within wholeB wholeA)))
      refine ⟨turned, ?_⟩
      rw [equalWithin_list]
      split
      · next one =>
        -- a list is in order with itself only if it is in order with itself the other way around
        subst one
        rw [eq_of_swap (Except.ok.inj (compared.symm.trans turned))]
        rfl
      · exact items.equalItems (within wholeA wholeB)
    | @tuples d i j xs ys o items =>
      have forth (x) (here : x ∈ xs) (y) (there : y ∈ ys) (o) : compareWithin h d x y = .ok o → Settled h d x y o :=
        ih d (Nat.lt_succ_self d) (wholeA.held here) (wholeB.held there)
      have back (y) (there : y ∈ ys) (x) (here : x ∈ xs) (o) : compareWithin h d y x = .ok o → Settled h d y x o :=
        ih d (Nat.lt_succ_self d) (wholeB.held there) (wholeA.held here)
      refine ⟨compare_of_ordered (.tuples j i (items.turned forth shows back)), ?_⟩
      rw [equalWithin_tuple]
      exact items.equalItems forth

/-! ### In order with a third -/

/-- The value is not equal to the other if it comes before it. -/
theorem Settled.differ (settled : Settled h d a b .lt) : equalWithin h d a b = .ok false := settled.equal

theorem ItemsOrdered.of_equal {zs : List Value} (shows : ∀ ref, (h.dict ref).Shows (listed ref))
    (wholeX : ∀ x ∈ xs, Throughout h NotFloat x) (wholeY : ∀ y ∈ ys, Throughout h NotFloat y)
    (wholeZ : ∀ z ∈ zs, Throughout h NotFloat z)
    (passed : ∀ x ∈ xs, ∀ y ∈ ys, ∀ z ∈ zs, ∀ o, compareWithin h d x y = .ok o → equalWithin h d y z = .ok true →
      compareWithin h d x z = .ok o)
    (ordered : ItemsOrdered h d xs ys o) (agree : ItemsAgree h d ys zs) : ItemsOrdered h d xs zs o := by
  induction ordered generalizing zs with
  | ended =>
    obtain rfl := List.length_eq_zero_iff.mp agree.size.symm
    exact .ended
  | longer x xs =>
    obtain rfl := List.length_eq_zero_iff.mp agree.size.symm
    exact .longer x xs
  | shorter y ys =>
    obtain ⟨z, zs, rfl⟩ := List.exists_cons_of_length_eq_add_one agree.size.symm
    exact .shorter z zs
  | @later x y xs ys o equal _ ih =>
    obtain ⟨z, zs, rfl⟩ := List.exists_cons_of_length_eq_add_one agree.size.symm
    rw [List.forall_mem_cons] at wholeX wholeY wholeZ
    refine .later (equalWithin_trans shows wholeX.1 wholeY.1 wholeZ.1 equal (agree.items 0 y z rfl rfl)) ?_
    refine ih wholeX.2 wholeY.2 wholeZ.2 (fun x here y between z there => ?_) ?_
    · exact passed x (List.mem_cons_of_mem _ here) y (List.mem_cons_of_mem _ between) z (List.mem_cons_of_mem _ there)
    · exact ⟨Nat.succ.inj agree.size, fun i => agree.items (i + 1)⟩
  | @here x y o xs ys differ order =>
    obtain ⟨z, zs, rfl⟩ := List.exists_cons_of_length_eq_add_one agree.size.symm
    rw [List.forall_mem_cons] at wholeX wholeY wholeZ
    have order' := passed x List.mem_cons_self y List.mem_cons_self z List.mem_cons_self o order
      (agree.items 0 y z rfl rfl)
    have unequal := (settled shows wholeX.1 wholeY.1 order).equal.symm.trans differ
    exact .here xs zs ((settled shows wholeX.1 wholeZ.1 order').equal.trans unequal) order'

/-- What equals the second value is in the same order with the first. -/
theorem compare_of_equal (shows : ∀ ref, (h.dict ref).Shows (listed ref)) (wholeA : Throughout h NotFloat a)
    (wholeB : Throughout h NotFloat b) (wholeC : Throughout h NotFloat c) (compared : compareWithin h d a b = .ok o)
    (equal : equalWithin h d b c = .ok true) : compareWithin h d a c = .ok o := by
  induction d using Nat.strong_induction_on generalizing a b c o with
  | _ d ih =>
    have agrees_second := agrees shows equal
    cases ordered_of_compare compared with
    | @numbers _ _ _ x y _ first second order =>
      obtain ⟨z, third, same⟩ := agrees_second.number second
      obtain ⟨j, -, rfl⟩ := number?_of_notFloat wholeB.here second
      obtain ⟨k, -, rfl⟩ := number?_of_notFloat wholeC.here third
      obtain rfl : j = k := by simpa [Number.eq] using same
      exact compareWithin_numbers first third order
    | texts order =>
      rw [equalWithin_text] at equal
      obtain rfl := eq_text_of_same (Except.ok.inj equal)
      exact compare_of_ordered (.texts order)
    | @lists d r s o items =>
      cases agrees_second with
      | numbers third => cases third
      | plain plain => exact False.elim plain
      | oneList => exact compared
      | lists agree =>
        exact compare_of_ordered (.lists (items.of_equal shows (fun x => wholeA.held) (fun y => wholeB.held)
          (fun z => wholeC.held) (fun x here y between z there o => ih d (Nat.lt_succ_self d) (wholeA.held here)
            (wholeB.held between) (wholeC.held there)) agree))
    | @tuples d i j xs ys o items =>
      cases agrees_second with
      | numbers third => cases third
      | plain plain => exact False.elim plain
      | tuples j k agree =>
        exact compare_of_ordered (.tuples i k (items.of_equal shows (fun x => wholeA.held) (fun y => wholeB.held)
          (fun z => wholeC.held) (fun x here y between z there o => ih d (Nat.lt_succ_self d) (wholeA.held here)
            (wholeB.held between) (wholeC.held there)) agree))

/-- What equals the first value is in the same order with the second. -/
theorem compare_of_equal_left (shows : ∀ ref, (h.dict ref).Shows (listed ref)) (wholeA : Throughout h NotFloat a)
    (wholeB : Throughout h NotFloat b) (wholeC : Throughout h NotFloat c) (equal : equalWithin h d a b = .ok true)
    (compared : compareWithin h d b c = .ok o) : compareWithin h d a c = .ok o := by
  have back := compare_of_equal shows wholeC wholeB wholeA (settled shows wholeB wholeC compared).turned
    (equalWithin_symm shows equal)
  exact o.swap_swap ▸ (settled shows wholeC wholeA back).turned

theorem ItemsOrdered.lt_trans {zs : List Value} (shows : ∀ ref, (h.dict ref).Shows (listed ref))
    (wholeX : ∀ x ∈ xs, Throughout h NotFloat x) (wholeY : ∀ y ∈ ys, Throughout h NotFloat y)
    (wholeZ : ∀ z ∈ zs, Throughout h NotFloat z)
    (passed : ∀ x ∈ xs, ∀ y ∈ ys, ∀ z ∈ zs, compareWithin h d x y = .ok .lt → compareWithin h d y z = .ok .lt →
      compareWithin h d x z = .ok .lt)
    (first : ItemsOrdered h d xs ys .lt) (second : ItemsOrdered h d ys zs .lt) : ItemsOrdered h d xs zs .lt := by
  induction xs generalizing ys zs with
  | nil =>
    cases first with
    | shorter y ys => cases second <;> exact .shorter _ _
  | cons x xs ih =>
    cases second with
    | shorter => cases first
    | @later y z ys zs _ equal' rest' =>
      rw [List.forall_mem_cons] at wholeX wholeY wholeZ
      cases first with
      | later equal rest =>
        refine .later (equalWithin_trans shows wholeX.1 wholeY.1 wholeZ.1 equal equal') ?_
        refine ih wholeX.2 wholeY.2 wholeZ.2 (fun x here y between z there => ?_) rest rest'
        exact passed x (List.mem_cons_of_mem _ here) y (List.mem_cons_of_mem _ between) z
          (List.mem_cons_of_mem _ there)
      | here _ _ differ order =>
        have order' := compare_of_equal shows wholeX.1 wholeY.1 wholeZ.1 order equal'
        exact .here xs zs (settled shows wholeX.1 wholeZ.1 order').differ order'
    | @here y z _ ys zs differ' order' =>
      rw [List.forall_mem_cons] at wholeX wholeY wholeZ
      have less : compareWithin h d x z = .ok .lt := by
        cases first with
        | later equal rest => exact compare_of_equal_left shows wholeX.1 wholeY.1 wholeZ.1 equal order'
        | here _ _ differ order =>
          exact passed x List.mem_cons_self y List.mem_cons_self z List.mem_cons_self order order'
      exact .here xs zs (settled shows wholeX.1 wholeZ.1 less).differ less

theorem lt_trans (shows : ∀ ref, (h.dict ref).Shows (listed ref)) (wholeA : Throughout h NotFloat a)
    (wholeB : Throughout h NotFloat b) (wholeC : Throughout h NotFloat c) (first : compareWithin h d a b = .ok .lt)
    (second : compareWithin h d b c = .ok .lt) : compareWithin h d a c = .ok .lt := by
  induction d using Nat.strong_induction_on generalizing a b c with
  | _ d ih =>
    cases ordered_of_compare first with
    | @numbers _ _ _ x y _ here between order =>
      cases ordered_of_compare second with
      | @numbers _ _ _ y' z _ between' there order' =>
        obtain rfl := Option.some.inj (between.symm.trans between')
        obtain ⟨i, -, rfl⟩ := number?_of_notFloat wholeA.here here
        obtain ⟨j, -, rfl⟩ := number?_of_notFloat wholeB.here between
        obtain ⟨k, -, rfl⟩ := number?_of_notFloat wholeC.here there
        exact compareWithin_numbers here there
          (congrArg some (Std.TransCmp.lt_trans (Option.some.inj order) (Option.some.inj order')))
      | _ => cases between
    | texts order =>
      cases ordered_of_compare second with
      | texts order' => exact compare_of_ordered (.texts (Std.TransCmp.lt_trans order order'))
      | numbers between => cases between
    | @lists d r s _ items =>
      cases ordered_of_compare second with
      | lists items' =>
        exact compare_of_ordered (.lists (items.lt_trans shows (fun x => wholeA.held) (fun y => wholeB.held)
          (fun z => wholeC.held) (fun x here y between z there => ih d (Nat.lt_succ_self d) (wholeA.held here)
            (wholeB.held between) (wholeC.held there)) items'))
      | numbers between => cases between
    | @tuples d i j xs ys _ items =>
      cases ordered_of_compare second with
      | tuples _ k items' =>
        exact compare_of_ordered (.tuples i k (items.lt_trans shows (fun x => wholeA.held) (fun y => wholeB.held)
          (fun z => wholeC.held) (fun x here y between z there => ih d (Nat.lt_succ_self d) (wholeA.held here)
            (wholeB.held between) (wholeC.held there)) items'))
      | numbers between => cases between

/-! ### Operators -/

theorem ordered_of_compareValues (compared : compareValues h a b = .ok o) (op : Source.CompareOp)
    (accept : Ordering → Bool) : ordered h op accept a b = .ok (accept o) := by
  rw [ordered, compared]

theorem compare_of_less (less : compareBy h .lt a b = .ok true) : compareValues h a b = .ok .lt := by
  change ordered h .lt (·.isLT) a b = .ok true at less
  unfold ordered at less
  cases compared : compareValues h a b with
  | ok o =>
    rw [compared] at less
    rw [Ordering.isLT_iff_eq_lt.mp (Except.ok.inj less)]
  | error e =>
    simp only [compared] at less
    split at less
    · cases less
    · split at less <;> cases less

/-- Without floating point numbers: a comparison that gives an answer gives the opposite one the other way around,
and the two values are equal if neither comes first; so just one of `<`, `==` and `>` holds, and `<=` and `>=` say
that one of two does. What comes before a value that comes before a third comes before the third. -/
theorem compareBy_ordered (made : h.Made) :
    (∀ a b o, Throughout h NotFloat a → Throughout h NotFloat b → compareValues h a b = .ok o →
      compareValues h b a = .ok o.swap ∧ (o = .eq ↔ compareBy h .eq a b = .ok true) ∧
        ∃ less equal greater : Bool, compareBy h .lt a b = .ok less ∧ compareBy h .eq a b = .ok equal ∧
          compareBy h .gt a b = .ok greater ∧ [less, equal, greater].count true = 1 ∧
          compareBy h .le a b = .ok (less || equal) ∧ compareBy h .ge a b = .ok (greater || equal)) ∧
      ∀ a b c, Throughout h NotFloat a → Throughout h NotFloat b → Throughout h NotFloat c →
        compareBy h .lt a b = .ok true → compareBy h .lt b c = .ok true →
          compareValues h a c = .ok .lt ∧ compareBy h .lt a c = .ok true := by
  choose listed shows using made.shows
  constructor
  · intro a b o wholeA wholeB compared
    obtain ⟨turned, equal⟩ := settled shows wholeA wholeB compared
    have holds := ordered_of_compareValues compared
    refine ⟨turned, ?_, o.isLT, o == .eq, o.isGT, holds .lt (·.isLT), equal, holds .gt (·.isGT), ?_, ?_, ?_⟩
    · change o = .eq ↔ equalWithin h maxDepth a b = .ok true
      rw [equal, Except.ok.injEq, beq_iff_eq]
    · cases o <;> rfl
    · exact (holds .le (·.isLE)).trans (by cases o <;> rfl)
    · exact (holds .ge (·.isGE)).trans (by cases o <;> rfl)
  · intro a b c wholeA wholeB wholeC first second
    have less := lt_trans shows wholeA wholeB wholeC (compare_of_less first) (compare_of_less second)
    exact ⟨less, ordered_of_compareValues less .lt (·.isLT)⟩

/-- Three lists, each of them the front of the next but for a one written as a truth value; the last one holds
itself. -/
def fronts : Cells where
  lists := #[#[.int 1, .list 1], #[.str "x"], #[.bool true, .list 3], #[.str "x", .none],
    #[.bool true, .list 3, .list 4]]
  dicts := #[]
  fresh := 0

theorem fronts_whole {i : Nat} (one : i < 5) : Throughout fronts NotFloat (list i) := by
  have closed : ∀ v ∈ [int 1, bool true, str "x", none] ++ (List.range 5).map list, ∀ part ∈ v.parts fronts,
      part ∈ [int 1, bool true, str "x", none] ++ (List.range 5).map list := by
    simp [List.range_succ, parts, Cells.contents, Cells.list, fronts]
  have mem : list i ∈ (List.range 5).map list := List.mem_map_of_mem (List.mem_range.mpr one)
  refine throughout_of_closed (fun v mem => ?_) closed (List.mem_append_right _ mem)
  rintro d rfl
  simp at mem

theorem compareBy_ordered_of_fronts : fronts.Made ∧ compareValues fronts (list 0) (list 2) = .ok .lt ∧
    compareValues fronts (list 2) (list 0) = .ok .gt ∧ compareBy fronts .lt (list 0) (list 2) = .ok true ∧
    compareBy fronts .lt (list 2) (list 4) = .ok true ∧ compareValues fronts (list 0) (list 4) = .ok .lt := by
  have made : fronts.Made := fun d mem => by simp [fronts] at mem
  have compared : compareValues fronts (list 0) (list 2) = .ok .lt := by decide
  have first : compareBy fronts .lt (list 0) (list 2) = .ok true := by decide
  have second : compareBy fronts .lt (list 2) (list 4) = .ok true := by decide
  obtain ⟨laws, passed⟩ := compareBy_ordered made
  have whole {i : Nat} (one : i < 5) := fronts_whole one
  have turned := (laws (list 0) (list 2) .lt (whole (by decide)) (whole (by decide)) compared).1
  have third := (passed (list 0) (list 2) (list 4) (whole (by decide)) (whole (by decide)) (whole (by decide)) first
    second).1
  exact ⟨made, compared, turned, first, second, third⟩

end SnippetKernel.Value
