import SnippetKernel.Proofs.Program.SortCalls

/-! The least and the greatest of some items, and the first of the same items when they are sorted. The search goes
through the items once and compares each with the best one so far; that one is in front of all that it has passed.
With keys that only depend on the items, the item that is in front of all others at the end is the one that sorting
puts first. -/
namespace SnippetKernel

open Value

/-- Keys that only depend on the items. `isKey m item k` says that `k` is a key of the item on the machine `m`, and
key calls find such keys and lose none. How the keys of two items compare is the same on all machines that are
`steady`, and these are the machines that key calls start from and lead to. -/
structure PureKeys (keyOf : KeyOf) (items : List Value) (steady : Machine → Prop)
    (isKey : Machine → Value → Value → Prop) : Prop where
  gives {m : Machine} {item : Value} : steady m → item ∈ items → ∃ k m', keyOf item m = .ok k m' ∧ steady m' ∧
    isKey m' item k ∧ ∀ other k', isKey m other k' → isKey m' other k'
  made {m : Machine} : steady m → m.heap.toCells.Made
  whole {m : Machine} {item k : Value} : steady m → isKey m item k → Throughout m.heap.toCells NotFloat k
  ordered : items.Pairwise fun x y => ∃ o, ∀ m k l, steady m → isKey m x k → isKey m y l →
    compareValues m.heap.toCells k l = .ok o

/-- The key of the item at the place comes before those of all others, or is equal to them and the place comes
first. -/
def FirstOfKeys (steady : Machine → Prop) (isKey : Machine → Value → Value → Prop) (reverse : Bool)
    (items : List Value) (i : Fin items.length) : Prop :=
  ∀ j, j ≠ i → ∀ m k l, steady m → isKey m items[i] k → isKey m items[j] l →
    compareValues m.heap.toCells k l = .ok (Keyed.foremost reverse) ∨
      compareValues m.heap.toCells k l = .ok .eq ∧ i < j

variable {keyOf : KeyOf} {items : List Value} {steady : Machine → Prop} {isKey : Machine → Value → Value → Prop}

/-- Items that can be compared are keys of themselves. -/
theorem Keyed.Comparable.pureKeys {m : Machine} (made : m.heap.toCells.Made)
    (comparable : Keyed.Comparable m.heap.toCells (items.map fun item => ⟨item, item⟩)) :
    PureKeys Pure.pure items (· = m) fun _ item k => item ∈ items ∧ k = item where
  gives := by
    rintro _ item rfl mem
    exact ⟨item, _, rfl, rfl, ⟨mem, rfl⟩, fun _ _ known => known⟩
  made := by
    rintro _ rfl
    exact made
  whole := by
    rintro _ item _ rfl ⟨mem, rfl⟩
    exact comparable.whole _ (List.mem_map_of_mem mem)
  ordered := by
    refine (List.pairwise_map.mp comparable.pairwise).imp fun ⟨o, compared⟩ => ⟨o, ?_⟩
    rintro _ _ _ rfl ⟨-, rfl⟩ ⟨-, rfl⟩
    exact compared

namespace Run

/-- The keys of all items are found, and are their keys at the end. -/
theorem keyed_of_pure (pure : PureKeys keyOf items steady isKey) {m : Machine} (here : steady m) {part : List Value}
    (among : ∀ item ∈ part, item ∈ items) : ∃ xs m', keyed keyOf part m = .ok xs m' ∧ steady m' ∧
      (∀ x ∈ xs, isKey m' x.item x.key) ∧ ∀ item k, isKey m item k → isKey m' item k := by
  induction part generalizing m with
  | nil => exact ⟨[], m, rfl, here, List.forall_mem_nil _, fun _ _ known => known⟩
  | cons item rest ih =>
    rw [List.forall_mem_cons] at among
    obtain ⟨k, m₁, called, steady₁, key, kept⟩ := pure.gives here among.1
    obtain ⟨xs, m', found, steady', keys, kept'⟩ := ih steady₁ among.2
    refine ⟨⟨k, item⟩ :: xs, m', ?_, steady', ?_, fun other k known => kept' other k (kept other k known)⟩
    · exact (bind_of_ok called).trans ((bind_of_ok found).trans rfl)
    · exact List.forall_mem_cons.mpr ⟨kept' item k key, keys⟩

theorem bestOf_cons {want : Ordering} {champion : Keyed} {item l : Value} {rest : List Value} {m m' : Machine}
    {o : Ordering} (called : keyOf item m = .ok l m')
    (compared : compareValues m'.heap.toCells l champion.key = .ok o) :
    bestOf keyOf want champion (item :: rest) m =
      bestOf keyOf want (if o = want then ⟨l, item⟩ else champion) rest m' :=
  (bind_of_ok called).trans (bind_of_ok (ofWork_readingExcept compared))

end Run

section Places

variable {xs : List Keyed} {m₁ : Machine} (pure : PureKeys keyOf (xs.map (·.item)) steady isKey) (here : steady m₁)
  (keys : ∀ x ∈ xs, isKey m₁ x.item x.key) {reverse : Bool}

include pure here keys

theorem PureKeys.comparable : Keyed.Comparable m₁.heap.toCells xs where
  whole x mem := pure.whole here (keys x mem)
  pairwise := by
    refine (List.pairwise_map.mp pure.ordered).imp_of_mem fun {x y} there there' ordered => ?_
    obtain ⟨o, compared⟩ := ordered
    exact ⟨o, compared m₁ _ _ here (keys x there) (keys y there')⟩

theorem PureKeys.compare_eq {m : Machine} (there : steady m) {i j : Fin xs.length} (apart : i ≠ j) {k l : Value}
    (first : isKey m (xs.get i).item k) (second : isKey m (xs.get j).item l) :
    compareValues m.heap.toCells k l = compareValues m₁.heap.toCells (xs.get i).key (xs.get j).key := by
  have order {i j : Fin xs.length} (before : i < j) :=
    List.pairwise_iff_get.mp (List.pairwise_map.mp pure.ordered) i j before
  have known (i : Fin xs.length) : isKey m₁ (xs.get i).item (xs.get i).key := keys _ (List.get_mem _ _)
  obtain before | behind := Nat.lt_or_gt_of_ne (Fin.val_ne_of_ne apart)
  · obtain ⟨o, compared⟩ := order before
    exact (compared m k l there first second).trans (compared m₁ _ _ here (known i) (known j)).symm
  · obtain ⟨o, compared⟩ := order behind
    have turned {m : Machine} {k l : Value} (there : steady m) (first : isKey m (xs.get i).item k)
        (second : isKey m (xs.get j).item l) : compareValues m.heap.toCells k l = .ok o.swap := by
      choose listed shows using (pure.made there).shows
      exact (settled shows (pure.whole there second) (pure.whole there first)
        (compared m l k there second first)).turned
    exact (turned there first second).trans (turned here (known i) (known j)).symm

theorem PureKeys.not_inFront_itself (p : Fin xs.length) : ¬ Keyed.InFront m₁.heap.toCells reverse xs p p := by
  rintro (first | ⟨-, before⟩)
  · have turned := ((pure.comparable here keys).settled (pure.made here) first).turned
    have same := first.symm.trans turned
    cases reverse <;> cases same
  · exact lt_irrefl p before

/-- There is only one such place. -/
theorem PureKeys.eq_of_inFront {p q : Fin xs.length}
    (first : ∀ j, j ≠ p → Keyed.InFront m₁.heap.toCells reverse xs p j)
    (second : ∀ j, j ≠ q → Keyed.InFront m₁.heap.toCells reverse xs q j) : p = q := by
  by_contra apart
  have comparable := pure.comparable here keys
  have around := Keyed.InFront.trans (pure.made here) comparable (first q (Ne.symm apart)) (second p apart)
  exact pure.not_inFront_itself here keys p around

theorem PureKeys.firstOfKeys {p : Fin xs.length}
    (front : ∀ j, j ≠ p → Keyed.InFront m₁.heap.toCells reverse xs p j) :
    FirstOfKeys steady isKey reverse (xs.map (·.item)) (p.cast (List.length_map _).symm) := by
  intro j apart m k l there first second
  have apart' : p ≠ j.cast (List.length_map _) := fun same => apart (by rw [same]; rfl)
  have order := pure.compare_eq here keys there apart' (by simpa using first) (by simpa using second)
  rw [order]
  exact front _ (Ne.symm apart')

/-- The search has come to the place `c`, and the best item up to there is the one at the place `p`. -/
theorem Run.bestOf_inFront {c : Nat} {p : Fin xs.length} {m : Machine} {k : Value} (there : steady m)
    (passed : p.val < c) (key : isKey m (xs.get p).item k)
    (best : ∀ j : Fin xs.length, j.val < c → j ≠ p → Keyed.InFront m₁.heap.toCells reverse xs p j) :
    ∃ q m', bestOf keyOf (Keyed.foremost reverse) ⟨k, (xs.get p).item⟩ ((xs.drop c).map (·.item)) m
      = .ok (xs.get q).item m' ∧ ∀ j, j ≠ q → Keyed.InFront m₁.heap.toCells reverse xs q j := by
  have comparable := pure.comparable here keys
  have ranks := Keyed.ranks_inFront (pure.made here) comparable reverse
  induction rest : xs.drop c generalizing c p m k with
  | nil =>
    have ended : xs.length ≤ c := List.drop_eq_nil_iff.mp rest
    exact ⟨p, m, rfl, fun j apart => best j (Nat.lt_of_lt_of_le j.isLt ended) apart⟩
  | cons x more ih =>
    have inside : c < xs.length := by
      by_contra outside
      rw [List.drop_eq_nil_iff.mpr (Nat.le_of_not_lt outside)] at rest
      cases rest
    obtain ⟨rfl, rfl⟩ := List.cons.inj ((List.drop_eq_getElem_cons inside).symm.trans rest)
    obtain ⟨l, m', called, steady', key', kept⟩ := pure.gives there (List.mem_map_of_mem (List.getElem_mem inside))
    let next : Fin xs.length := ⟨c, inside⟩
    have apart : next ≠ p := fun same => by
      subst same
      exact lt_irrefl c passed
    have same := pure.compare_eq here keys steady' apart key' (kept _ _ key)
    obtain ⟨asked, first⟩ | ⟨asked, behind⟩ := ranks.told (show p < next from passed)
    · obtain ⟨o, compared, wanted⟩ := Keyed.before_ok.mp asked
      have best' (j : Fin xs.length) (before : j.val < c + 1) (apart' : j ≠ next) :
          Keyed.InFront m₁.heap.toCells reverse xs next j := by
        by_cases one : j = p
        · exact one ▸ first
        · have earlier : j.val < c := Nat.lt_of_le_of_ne (Nat.le_of_lt_succ before) (Fin.val_ne_of_ne apart')
          exact ranks.trans first (best j earlier one)
      obtain ⟨q, m'', found, front⟩ := ih steady' (Nat.lt_succ_self c) key' best' rfl
      refine ⟨q, m'', (bestOf_cons called (same.trans compared)).trans ?_, front⟩
      rw [if_pos (beq_iff_eq.mp wanted)]
      exact found
    · obtain ⟨o, compared, wanted⟩ := Keyed.before_ok.mp asked
      have best' (j : Fin xs.length) (before : j.val < c + 1) (apart' : j ≠ p) :
          Keyed.InFront m₁.heap.toCells reverse xs p j := by
        by_cases one : j = next
        · exact one ▸ behind
        · have earlier : j.val < c := Nat.lt_of_le_of_ne (Nat.le_of_lt_succ before) (Fin.val_ne_of_ne one)
          exact best j earlier apart'
      obtain ⟨q, m'', found, front⟩ := ih steady' (Nat.lt_succ_of_lt passed) (kept _ _ key) best' rfl
      refine ⟨q, m'', (bestOf_cons called (same.trans compared)).trans ?_, front⟩
      rw [if_neg (beq_eq_false_iff_ne.mp wanted)]
      exact found

end Places

namespace Call

variable {function : FunctionCaller} {callKey : Value → Value → Run Value} {key : Option Value} {m : Machine}

theorem applyWith_extreme {b : Builtin} {reverse : Bool} {v item k : Value} {rest : List Value} {m' : Machine}
    (one : b = .min ∧ reverse = false ∨ b = .max ∧ reverse = true)
    (listed : v.items m.heap.toCells = .ok (item :: rest))
    (called : ListMethods.keyOf callKey key item m = .ok k m') :
    applyWith function callKey (.builtin b) [v] (key.toList.map ("key", ·)) m =
      Run.bestOf (ListMethods.keyOf callKey key) (Keyed.foremost reverse) ⟨k, item⟩ rest m' := by
  have steps (name : String) (want : Ordering) :
      Builtins.extreme callKey name want [v] (key.toList.map ("key", ·)) m =
        Run.bestOf (ListMethods.keyOf callKey key) want ⟨k, item⟩ rest m' := by
    have candidates : Run.ofWork (Builtins.candidates [v]) m = .ok (item :: rest) m :=
      Run.ofWork_items listed
    have taken : Arguments.take "key" (key.toList.map ("key", ·)) = (key, []) := by cases key <;> rfl
    simp only [Builtins.extreme, taken]
    refine (Run.bind_of_ok (Run.ofWork_of_still (a := ()) fun r _ => rfl)).trans ?_
    refine (Run.bind_of_ok (Run.ofWork_of_still (a := ()) fun r _ => rfl)).trans ?_
    refine (Run.bind_of_ok candidates).trans ?_
    exact Run.bind_of_ok called
  obtain ⟨rfl, rfl⟩ | ⟨rfl, rfl⟩ := one
  · exact steps _ _
  · exact steps _ _

/-- The item is what a call of the function gives, and it comes first in the list that a call of `sorted` gives. -/
def HeadsSorted (function : FunctionCaller) (callKey : Value → Value → Run Value) (b : Builtin) (key : Option Value)
    (keywords : Keywords) (v : Value) (m m' : Machine) (item : Value) : Prop :=
  (∃ n, applyWith function callKey (.builtin b) [v] (key.toList.map ("key", ·)) m = .ok item n) ∧
    ∃ ref n, applyWith function callKey (.builtin .sorted) [v] keywords m' = .ok (.list ref) n ∧
      (n.heap.list ref)[0]? = some item

section Heads

variable {b : Builtin} {reverse : Bool} (one : b = .min ∧ reverse = false ∨ b = .max ∧ reverse = true) {v : Value}
  {items : List Value} (filled : items ≠ []) {keywords : Keywords} {turned : Option Value}
  (given : keywords.Perm (sortingBy key turned))

include one filled given

theorem headsSorted_of_pure {steady : Machine → Prop} {isKey : Machine → Value → Value → Prop}
    (pure : PureKeys (ListMethods.keyOf callKey key) items steady isKey) {m m' : Machine} (here : steady m)
    (there : steady m') (listed : v.items m.heap.toCells = .ok items) (listed' : v.items m'.heap.toCells = .ok items)
    (turns : turned.any (·.truthy m'.heap.toCells) = reverse) :
    ∃ i : Fin items.length, FirstOfKeys steady isKey reverse items i ∧
      HeadsSorted function callKey b key keywords v m m' items[i] := by
  -- the keys that sorting finds decide which place is the first
  obtain ⟨xs, m₁, found, steady₁, keys, -⟩ := Run.keyed_of_pure pure there fun item mem => mem
  obtain rfl := Run.items_of_keyed found
  have comparable := pure.comparable steady₁ keys
  obtain ⟨sorted, sorts, places, perm, rfl, ordered⟩ :=
    Keyed.sort_stablySorted (pure.made steady₁) comparable reverse
  have all (j : Fin xs.length) : j ∈ places := perm.mem_iff.mpr (List.mem_finRange j)
  cases xs with
  | nil => exact absurd rfl filled
  | cons x more =>
    cases places with
    | nil => cases all 0
    | cons p others =>
      have front (j : Fin (x :: more).length) (apart : j ≠ p) :
          Keyed.InFront m₁.heap.toCells reverse (x :: more) p j :=
        List.rel_of_pairwise_cons ordered (List.mem_of_ne_of_mem apart (all j))
      obtain ⟨k, m₂, called, steady₂, key', -⟩ := pure.gives here List.mem_cons_self
      have alone (j : Fin (x :: more).length) (before : j.val < 1) (apart : j ≠ 0) :
          Keyed.InFront m₁.heap.toCells reverse (x :: more) 0 j := absurd (Fin.ext (Nat.lt_one_iff.mp before)) apart
      obtain ⟨q, n, best, front'⟩ := Run.bestOf_inFront pure steady₁ keys (p := 0) steady₂ Nat.zero_lt_one key'
        alone
      obtain rfl := pure.eq_of_inFront steady₁ keys front front'
      have same : ((x :: more).map (·.item))[p.cast (List.length_map _).symm] = ((x :: more).get p).item :=
        List.getElem_map _
      refine ⟨_, pure.firstOfKeys steady₁ keys front, ⟨n, ?_⟩, ?_⟩
      · rw [applyWith_extreme one listed called, same]
        exact best
      · rw [applyWith_sorted given listed', turns, same]
        refine ⟨_, _, (Run.bind_of_ok (Run.sorted_of_sort found sorts)).trans (Run.ofWork_onHeap rfl), ?_⟩
        simp [Machine.withCells, Cells.list]

/-- The keys only depend on the items: the least item is the first one of those sorted by the same keys, and the
greatest is the first one of those in reversed order. Of several items whose keys are equally small, or equally great,
it is the one that comes first among them. Without a key function, items that can be compared are such keys. -/
theorem extreme_heads_sorted :
    (∀ steady isKey m m', PureKeys (ListMethods.keyOf callKey key) items steady isKey → steady m → steady m' →
      v.items m.heap.toCells = .ok items → v.items m'.heap.toCells = .ok items →
      turned.any (·.truthy m'.heap.toCells) = reverse →
      ∃ i : Fin items.length, FirstOfKeys steady isKey reverse items i ∧
        HeadsSorted function callKey b key keywords v m m' items[i]) ∧
      ∀ m, key = Option.none ∨ key = some .none → m.heap.toCells.Made →
        Keyed.Comparable m.heap.toCells (items.map fun item => ⟨item, item⟩) →
        v.items m.heap.toCells = .ok items → turned.any (·.truthy m.heap.toCells) = reverse →
        ∃ i : Fin items.length, (∀ j, j ≠ i →
          compareValues m.heap.toCells items[i] items[j] = .ok (Keyed.foremost reverse) ∨
            compareValues m.heap.toCells items[i] items[j] = .ok .eq ∧ i < j) ∧
          HeadsSorted function callKey b key keywords v m m items[i] := by
  constructor
  · intro steady isKey m m' pure here there listed listed' turns
    exact headsSorted_of_pure one filled given pure here there listed listed' turns
  · intro m keyless made comparable listed turns
    have pure := comparable.pureKeys made
    have itself : ListMethods.keyOf callKey key = Pure.pure := by obtain rfl | rfl := keyless <;> rfl
    rw [← itself] at pure
    obtain ⟨i, first, heads⟩ := headsSorted_of_pure one filled given pure rfl rfl listed listed turns
    refine ⟨i, fun j apart => ?_, heads⟩
    exact first j apart m _ _ rfl ⟨List.getElem_mem _, rfl⟩ ⟨List.getElem_mem _, rfl⟩

end Heads

/-- A machine with lists in a list; two of them have the same items. The number is the one that the next tuple gets. -/
def listsAt (n : Nat) : Machine :=
  let lists := #[#[.list 1, .list 2, .list 3], #[.int 2, .int 1], #[.int 1, .int 2], #[.int 1, .int 2]]
  .start .empty ⟨⟨lists, #[], n⟩, #[]⟩ ⟨.ofInt64 0, .ofInt64 0⟩

theorem pureKeys_tuple (function : FunctionCaller) :
    PureKeys (ListMethods.keyOf (keyCall function) (some (.type .tuple))) [.list 1, .list 2, .list 3]
      (∃ n, · = listsAt n) fun _ item k =>
        ∃ ref ∈ [1, 2, 3], item = .list ref ∧ ∃ id, k = .tuple id ((listsAt 0).heap.list ref).toList where
  gives := by
    rintro _ item ⟨n, rfl⟩ mem
    obtain ⟨ref, one, rfl⟩ : ∃ ref ∈ [1, 2, 3], item = .list ref := by simpa using mem
    have called : keyCall function (.type .tuple) (.list ref) (listsAt n)
      = .ok (.tuple n ((listsAt 0).heap.list ref).toList) (listsAt (n + 1)) := rfl
    exact ⟨_, _, called, ⟨_, rfl⟩, ⟨ref, one, rfl, n, rfl⟩, fun _ _ known => known⟩
  made := by
    rintro _ ⟨n, rfl⟩ d mem
    simp [listsAt, Machine.start] at mem
  whole := by
    rintro _ item k ⟨n, rfl⟩ ⟨ref, one, rfl, id, rfl⟩
    have pair (i j : Int64) : Throughout (listsAt n).heap.toCells NotFloat (.tuple id [.int i, .int j]) :=
      throughout_iff.mpr (by simp [NotFloat, parts, throughout_int])
    fin_cases one <;> exact pair _ _
  ordered := by
    have order (r s : Nat) (o : Ordering) (compared : ∀ n id id', compareValues (listsAt n).heap.toCells
        (.tuple id ((listsAt 0).heap.list r).toList) (.tuple id' ((listsAt 0).heap.list s).toList) = .ok o) :
        ∃ o, ∀ m k l, (∃ n, m = listsAt n) →
          (∃ ref ∈ [1, 2, 3], Value.list r = .list ref ∧ ∃ id, k = .tuple id ((listsAt 0).heap.list ref).toList) →
          (∃ ref ∈ [1, 2, 3], Value.list s = .list ref ∧ ∃ id, l = .tuple id ((listsAt 0).heap.list ref).toList) →
          compareValues m.heap.toCells k l = .ok o := by
      refine ⟨o, ?_⟩
      rintro _ _ _ ⟨n, rfl⟩ ⟨_, -, ⟨⟩, id, rfl⟩ ⟨_, -, ⟨⟩, id', rfl⟩
      exact compared n id id'
    simp only [List.pairwise_cons, List.forall_mem_cons]
    refine ⟨⟨order 1 2 .gt fun _ _ _ => rfl, order 1 3 .gt fun _ _ _ => rfl, List.forall_mem_nil _⟩,
      ⟨order 2 3 .eq fun _ _ _ => rfl, List.forall_mem_nil _⟩, List.forall_mem_nil _, .nil⟩

/-- The tuples that are compared are others each time, and still both calls find the first of the two equal lists. -/
theorem extreme_heads_sorted_of_tuples :
    HeadsSorted (Call.function 1 1) (keyCall (Call.function 1 1)) .min (some (.type .tuple))
      [("key", .type .tuple)] (.list 0) (listsAt 0) (listsAt 7) (.list 2) := by
  have given : [("key", Value.type .tuple)].Perm (sortingBy (some (.type .tuple)) Option.none) := .refl _
  obtain ⟨i, -, ⟨n, least⟩, sorted⟩ := (@extreme_heads_sorted (Call.function 1 1) (keyCall (Call.function 1 1)) _
    .min false (.inl ⟨rfl, rfl⟩) (.list 0) [.list 1, .list 2, .list 3] nofun _ _ given).1 _ _ (listsAt 0) (listsAt 7)
    (pureKeys_tuple _) ⟨0, rfl⟩ ⟨7, rfl⟩ rfl rfl rfl
  have found : applyWith (Call.function 1 1) (keyCall (Call.function 1 1)) (.builtin .min) [.list 0]
    [("key", .type .tuple)] (listsAt 0) = .ok (.list 2) (listsAt 3) := rfl
  obtain ⟨same, -⟩ := EStateM.Result.ok.inj (found.symm.trans least)
  rw [same]
  exact ⟨⟨n, least⟩, sorted⟩

end Call

end SnippetKernel
