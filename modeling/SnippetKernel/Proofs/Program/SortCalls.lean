import Mathlib.Data.List.FinRange
import Mathlib.Data.List.Permutation
import SnippetKernel.Program.Call
import SnippetKernel.Program.Sorting
import SnippetKernel.Proofs.Program.Data
import SnippetKernel.Proofs.Value.Order

/-! What sorting does to the places of items. Places are told apart even if the items at them are not, so the order
of places says at once that no item is lost or doubled, that the keys are in order, and that equal keys keep the
order in which their items were. The comparisons that sorting makes are listed beside it: it fails exactly if one of
them does.

Calls that sort. The keys of all items are found first, and the heap on which they are compared is what the key
calls have left. -/
namespace SnippetKernel.Keyed

variable {before : Keyed → Keyed → Except Exception Bool}

theorem merge_nil_right (done : List Keyed) (x : Keyed) (xs : List Keyed) :
    merge before done (x :: xs) [] = .ok (done.reverse ++ x :: xs) := by
  rw [merge, List.reverseAux_eq]
  simp

/-- What was merged before stays in front. -/
theorem merge_done (done xs ys : List Keyed) :
    merge before done xs ys = (merge before [] xs ys).map (done.reverse ++ ·) := by
  induction xs generalizing done ys with
  | nil =>
    rw [merge, merge, List.reverseAux_eq]
    rfl
  | cons x xs ih =>
    induction ys generalizing done with
    | nil =>
      rw [merge_nil_right, merge_nil_right]
      rfl
    | cons y ys ih' =>
      have moved (z : Keyed) (r : Except Exception (List Keyed)) :
          r.map ((z :: done).reverse ++ ·) = (r.map ([z].reverse ++ ·)).map (done.reverse ++ ·) := by
        cases r <;> simp [Except.map]
      rw [merge, merge]
      cases before y x with
      | error e => rfl
      | ok second =>
        cases second with
        | true => exact (ih' (y :: done)).trans ((moved y _).trans (congrArg _ (ih' [y]).symm))
        | false => exact (ih (x :: done) _).trans ((moved x _).trans (congrArg _ (ih [x] _).symm))

theorem sort_of_long {xs : List Keyed} (long : ¬ xs.length ≤ maxInserted) :
    sort before xs = (sort before (xs.take (xs.length / 2)) >>= fun front =>
      sort before (xs.drop (xs.length / 2)) >>= fun back => merge before [] front back) := by
  rw [sort, dif_neg long]

/-! ### Places -/

section Places

variable {n : Nat} {item : Fin n → Keyed} {inFront : Fin n → Fin n → Prop}

/-- What items at two places are told by a comparison of the later one with the earlier one: whether the later one
has to be in front. -/
structure Ranks (before : Keyed → Keyed → Except Exception Bool) (item : Fin n → Keyed)
    (inFront : Fin n → Fin n → Prop) : Prop where
  trans {i j k : Fin n} : inFront i j → inFront j k → inFront i k
  told {i j : Fin n} : i < j → before (item j) (item i) = .ok true ∧ inFront j i ∨
    before (item j) (item i) = .ok false ∧ inFront i j

variable (ranks : Ranks before item inFront)

include ranks

/-- In a list of places whose last one comes first. -/
theorem insertLast_places {i : Fin n} {places : List (Fin n)} (earlier : ∀ j ∈ places, j < i)
    (sorted : places.Pairwise fun j k => inFront k j) :
    ∃ new : List (Fin n), insertLast before (item i) (places.map item) = .ok (new.map item) ∧
      new.Perm (i :: places) ∧ new.Pairwise fun j k => inFront k j := by
  induction places with
  | nil => exact ⟨[i], rfl, .refl _, List.pairwise_singleton _ _⟩
  | cons last rest ih =>
    rw [List.forall_mem_cons] at earlier
    rw [List.pairwise_cons] at sorted
    rw [List.map_cons, insertLast]
    obtain ⟨compared, front⟩ | ⟨compared, behind⟩ := ranks.told earlier.1
    · obtain ⟨new, inserted, perm, ordered⟩ := ih earlier.2 sorted.2
      refine ⟨last :: new, ?_, (perm.cons last).trans (.swap i last rest), ?_⟩
      · rw [compared, inserted]
        rfl
      · refine List.pairwise_cons.mpr ⟨fun j mem => ?_, ordered⟩
        obtain rfl | mem := List.mem_cons.mp (perm.subset mem)
        · exact front
        · exact sorted.1 j mem
    · refine ⟨i :: last :: rest, ?_, .refl _, ?_⟩
      · rw [compared]
        rfl
      · refine .cons (List.forall_mem_cons.mpr ⟨behind, fun j mem => ?_⟩) (List.pairwise_cons.mpr sorted)
        exact ranks.trans (sorted.1 j mem) behind

theorem sortByInsertion_places {places : List (Fin n)} (rising : places.Pairwise (· < ·)) :
    ∃ new : List (Fin n), sortByInsertion before (places.map item) = .ok (new.map item) ∧ new.Perm places ∧
      new.Pairwise inFront := by
  have all (todo done : List (Fin n)) (rising : todo.Pairwise (· < ·)) (apart : ∀ j ∈ done, ∀ i ∈ todo, j < i)
      (sorted : done.Pairwise fun j k => inFront k j) :
      ∃ new : List (Fin n), (todo.map item).foldlM (fun sorted x => insertLast before x sorted) (done.map item)
        = .ok (new.map item) ∧ new.Perm (todo ++ done) ∧ new.Pairwise fun j k => inFront k j := by
    induction todo generalizing done with
    | nil => exact ⟨done, rfl, .refl _, sorted⟩
    | cons i rest ih =>
      rw [List.pairwise_cons] at rising
      obtain ⟨next, inserted, perm, ordered⟩ :=
        insertLast_places ranks (fun j mem => apart j mem i List.mem_cons_self) sorted
      obtain ⟨new, folded, perm', ordered'⟩ := ih next rising.2 (fun j mem k there => by
        obtain rfl | mem := List.mem_cons.mp (perm.subset mem)
        · exact rising.1 k there
        · exact apart j mem k (List.mem_cons_of_mem _ there)) ordered
      refine ⟨new, ?_, perm'.trans ((perm.append_left rest).trans List.perm_middle), ordered'⟩
      rw [List.map_cons, List.foldlM_cons, inserted]
      exact folded
  obtain ⟨new, folded, perm, ordered⟩ := all places [] rising (by simp) .nil
  refine ⟨new.reverse, ?_, (List.reverse_perm new).trans (by simpa using perm), List.pairwise_reverse.mpr ordered⟩
  rw [sortByInsertion, ← List.map_nil, folded, List.map_reverse]
  rfl

theorem merge_places {xs ys : List (Fin n)} (apart : ∀ i ∈ xs, ∀ j ∈ ys, i < j) (first : xs.Pairwise inFront)
    (second : ys.Pairwise inFront) :
    ∃ new : List (Fin n), merge before [] (xs.map item) (ys.map item) = .ok (new.map item) ∧
      new.Perm (xs ++ ys) ∧ new.Pairwise inFront := by
  induction xs generalizing ys with
  | nil =>
    refine ⟨ys, ?_, .refl _, second⟩
    rw [List.map_nil, merge]
    rfl
  | cons x xs ih =>
    induction ys with
    | nil =>
      refine ⟨x :: xs, ?_, by simp, first⟩
      rw [List.map_nil, List.map_cons, merge_nil_right]
      rfl
    | cons y ys ih' =>
      rw [List.map_cons, List.map_cons, merge]
      obtain ⟨compared, front⟩ | ⟨compared, behind⟩ := ranks.told (apart x List.mem_cons_self y List.mem_cons_self)
      · obtain ⟨new, merged, perm, ordered⟩ :=
          ih' (fun i mem j there => apart i mem j (List.mem_cons_of_mem _ there)) second.tail
        have moved : (y :: (x :: xs ++ ys)).Perm (x :: xs ++ y :: ys) := List.perm_middle.symm
        refine ⟨y :: new, ?_, (perm.cons y).trans moved, ?_⟩
        · rw [compared]
          change merge before [item y] ((x :: xs).map item) (ys.map item) = _
          rw [merge_done, merged]
          rfl
        · refine List.pairwise_cons.mpr ⟨fun j mem => ?_, ordered⟩
          obtain mem | mem := List.mem_append.mp (perm.subset mem)
          · obtain rfl | mem := List.mem_cons.mp mem
            · exact front
            · exact ranks.trans front (List.rel_of_pairwise_cons first mem)
          · exact List.rel_of_pairwise_cons second mem
      · obtain ⟨new, merged, perm, ordered⟩ :=
          ih (fun i mem => apart i (List.mem_cons_of_mem _ mem)) first.tail second
        refine ⟨x :: new, ?_, perm.cons x, ?_⟩
        · rw [compared]
          change merge before [item x] (xs.map item) ((y :: ys).map item) = _
          rw [merge_done, merged]
          rfl
        · refine List.pairwise_cons.mpr ⟨fun j mem => ?_, ordered⟩
          obtain mem | mem := List.mem_append.mp (perm.subset mem)
          · exact List.rel_of_pairwise_cons first mem
          · obtain rfl | mem := List.mem_cons.mp mem
            · exact behind
            · exact ranks.trans behind (List.rel_of_pairwise_cons second mem)

/-- Sorting moves the places, and each of them behind all that have to be in front of it. -/
theorem sort_places {places : List (Fin n)} (rising : places.Pairwise (· < ·)) :
    ∃ new : List (Fin n), sort before (places.map item) = .ok (new.map item) ∧ new.Perm places ∧
      new.Pairwise inFront := by
  induction size : places.length using Nat.strong_induction_on generalizing places with
  | _ size ih =>
    subst size
    by_cases short : places.length ≤ maxInserted
    · obtain ⟨new, sorted, found⟩ := sortByInsertion_places ranks rising
      refine ⟨new, ?_, found⟩
      rw [sort, dif_pos (by rwa [List.length_map]), sorted]
    · have halves := List.take_append_drop (places.length / 2) places
      have long : 20 < places.length := Nat.lt_of_not_le short
      rw [← halves, List.pairwise_append] at rising
      obtain ⟨rising, rising', apart⟩ := rising
      obtain ⟨front, sorted, perm, ordered⟩ := ih _ (by simp only [List.length_take]; omega) rising rfl
      obtain ⟨back, sorted', perm', ordered'⟩ := ih _ (by simp only [List.length_drop]; omega) rising' rfl
      obtain ⟨new, merged, whole, ordered⟩ := merge_places ranks
        (fun i mem j there => apart i (perm.subset mem) j (perm'.subset there)) ordered ordered'
      refine ⟨new, ?_, whole.trans (halves ▸ perm.append perm'), ordered⟩
      rw [sort_of_long (by rwa [List.length_map]), List.length_map, ← List.map_take, ← List.map_drop, sorted, sorted']
      exact merged

end Places

/-! ### The comparisons that are made -/

/-- What follows after a result; after an exception nothing does. -/
def after {α : Type} (r : Except Exception α) (next : α → List (Keyed × Keyed)) : List (Keyed × Keyed) :=
  match r with
  | .ok a => next a
  | .error _ => []

/-- The items that are compared to put an item into place, pair after pair. -/
def insertLastAsks (before : Keyed → Keyed → Except Exception Bool) (x : Keyed) :
    List Keyed → List (Keyed × Keyed)
  | [] => []
  | last :: rest =>
    (x, last) :: after (before x last) fun first => if first then insertLastAsks before x rest else []

def insertionAsks (before : Keyed → Keyed → Except Exception Bool) (sorted : List Keyed) :
    List Keyed → List (Keyed × Keyed)
  | [] => []
  | x :: xs =>
    insertLastAsks before x sorted ++ after (insertLast before x sorted) fun sorted => insertionAsks before sorted xs

def mergeAsks (before : Keyed → Keyed → Except Exception Bool) (xs ys : List Keyed) : List (Keyed × Keyed) :=
  match xs, ys with
  | [], _ => []
  | _, [] => []
  | x :: xs, y :: ys =>
    (y, x) :: after (before y x) fun second =>
      if second then mergeAsks before (x :: xs) ys else mergeAsks before xs (y :: ys)
termination_by xs.length + ys.length

/-- The items that are compared to sort the items, pair after pair. -/
def asks (before : Keyed → Keyed → Except Exception Bool) (xs : List Keyed) : List (Keyed × Keyed) :=
  if _short : xs.length ≤ maxInserted then insertionAsks before [] xs
  else
    let half := xs.length / 2
    asks before (xs.take half) ++ after (sort before (xs.take half)) fun front =>
      asks before (xs.drop half) ++ after (sort before (xs.drop half)) fun back => mergeAsks before front back
termination_by xs.length
decreasing_by all_goals simp only [maxInserted, List.length_take, List.length_drop] at *; omega

/-- The work fails exactly if one of these comparisons does. -/
def Hangs {α : Type} (before : Keyed → Keyed → Except Exception Bool) (asked : List (Keyed × Keyed))
    (r : Except Exception α) : Prop :=
  ∀ e, r = .error e ↔ ∃ q ∈ asked, before q.1 q.2 = .error e

namespace Hangs

variable {α β : Type} {asked : List (Keyed × Keyed)} {r : Except Exception α} {x y : Keyed}

theorem done (a : α) : Hangs before [] (.ok a) := fun e => by simp

theorem ask : Hangs before [(x, y)] (before x y) := fun e => by simp

theorem andThen {next : α → Except Exception β} {more : α → List (Keyed × Keyed)} (first : Hangs before asked r)
    (second : ∀ a, r = .ok a → Hangs before (more a) (next a)) : Hangs before (asked ++ after r more) (r >>= next) := by
  intro e
  cases r with
  | error e' =>
    rw [after, List.append_nil, ← first]
    simp [bind, Except.bind]
  | ok a =>
    have held := (first e).not.mp nofun
    change next a = _ ↔ ∃ q ∈ asked ++ more a, _
    simp only [List.mem_append, or_and_right, exists_or, second a rfl e]
    exact (or_iff_right held).symm

/-- What is made of the result. -/
theorem map (f : α → β) (first : Hangs before asked r) : Hangs before asked (r >>= fun a => .ok (f a)) := by
  have last (a : α) : Hangs before [] (.ok (f a)) := done (f a)
  have whole := first.andThen fun a _ => last a
  have none_more : after r (fun _ => []) = [] := by cases r <;> rfl
  rwa [none_more, List.append_nil] at whole

end Hangs

theorem insertLast_hangs (x : Keyed) (sorted : List Keyed) :
    Hangs before (insertLastAsks before x sorted) (insertLast before x sorted) := by
  induction sorted with
  | nil => exact .done _
  | cons last rest ih =>
    refine Hangs.ask.andThen fun first compared => ?_
    cases first with
    | false => exact .done _
    | true => exact ih.map (last :: ·)

theorem sortByInsertion_hangs (xs : List Keyed) :
    Hangs before (insertionAsks before [] xs) (sortByInsertion before xs) := by
  have all (sorted : List Keyed) : Hangs before (insertionAsks before sorted xs)
      (xs.foldlM (fun sorted x => insertLast before x sorted) sorted) := by
    induction xs generalizing sorted with
    | nil => exact .done _
    | cons x xs ih =>
      rw [List.foldlM_cons]
      exact (insertLast_hangs x sorted).andThen fun next _ => ih next
  exact (all []).map List.reverse

theorem merge_hangs (done xs ys : List Keyed) : Hangs before (mergeAsks before xs ys) (merge before done xs ys) := by
  fun_induction merge before done xs ys with
  | case1 done ys =>
    rw [mergeAsks]
    exact .done _
  | case2 done xs some_left =>
    rw [mergeAsks]
    · exact .done _
    · exact some_left
  | case3 done x xs y ys front behind =>
    rw [mergeAsks]
    refine Hangs.ask.andThen fun second compared => ?_
    cases second with
    | true => exact front
    | false => exact behind

/-- Sorting fails exactly if one of the comparisons that it makes does, and in the same way. -/
theorem sort_hangs (xs : List Keyed) : Hangs before (asks before xs) (sort before xs) := by
  induction size : xs.length using Nat.strong_induction_on generalizing xs with
  | _ size ih =>
    subst size
    rw [asks]
    split
    · next short =>
      rw [sort, dif_pos short]
      exact sortByInsertion_hangs xs
    · next long =>
      have long' : 20 < xs.length := Nat.lt_of_not_le long
      rw [sort_of_long long]
      refine (ih _ (by simp only [List.length_take]; omega) _ rfl).andThen fun front _ => ?_
      refine (ih _ (by simp only [List.length_drop]; omega) _ rfl).andThen fun back _ => ?_
      exact merge_hangs [] front back

end SnippetKernel.Keyed

namespace SnippetKernel

open Value Arguments

/-! ### Items in the order of their keys -/

namespace Keyed

/-- What a key that comes first is to one that does not. -/
def foremost (reverse : Bool) : Ordering := if reverse then .gt else .lt

/-- The key at the first place comes first; or the keys are equal, and the place comes first. -/
def InFront (h : Cells) (reverse : Bool) (xs : List Keyed) (i j : Fin xs.length) : Prop :=
  compareValues h xs[i].key xs[j].key = .ok (foremost reverse) ∨
    compareValues h xs[i].key xs[j].key = .ok .eq ∧ i < j

/-- The items of a list, each place of it once, with keys that do not fall; with keys that do not rise if the order is
reversed. Items with equal keys are in the order in which they were in the list. -/
def StablySorted (h : Cells) (reverse : Bool) (xs sorted : List Keyed) : Prop :=
  ∃ places : List (Fin xs.length), places.Perm (List.finRange xs.length) ∧ sorted = places.map xs.get ∧
    places.Pairwise (InFront h reverse xs)

/-- Keys that can all be compared with each other, without floating point numbers in them. -/
structure Comparable (h : Cells) (xs : List Keyed) : Prop where
  whole : ∀ x ∈ xs, Throughout h NotFloat x.key
  pairwise : xs.Pairwise fun x y => ∃ o, compareValues h x.key y.key = .ok o

variable {h : Cells} {reverse : Bool} {xs : List Keyed}

section InFront

variable (made : h.Made) (comparable : Comparable h xs)

include made comparable

theorem Comparable.settled {i j : Fin xs.length} {o : Ordering}
    (compared : compareValues h xs[i].key xs[j].key = .ok o) : Settled h maxDepth xs[i].key xs[j].key o := by
  choose listed shows using made.shows
  exact Value.settled shows (comparable.whole _ (List.getElem_mem _)) (comparable.whole _ (List.getElem_mem _)) compared

theorem InFront.trans {i j k : Fin xs.length} (first : InFront h reverse xs i j) (second : InFront h reverse xs j k) :
    InFront h reverse xs i k := by
  have settled {i j : Fin xs.length} {o : Ordering} := comparable.settled made (i := i) (j := j) (o := o)
  choose listed shows using made.shows
  have whole (i : Fin xs.length) : Throughout h NotFloat xs[i].key := comparable.whole _ (List.getElem_mem _)
  obtain first | ⟨first, rise⟩ := first
  · obtain second | ⟨second, -⟩ := second
    · cases reverse with
      | false => exact .inl (lt_trans shows (whole i) (whole j) (whole k) first second)
      | true =>
        have back := lt_trans shows (whole k) (whole j) (whole i) (settled second).turned (settled first).turned
        exact .inl (settled back).turned
    · exact .inl (compare_of_equal shows (whole i) (whole j) (whole k) first (settled second).equal)
  · obtain second | ⟨second, rise'⟩ := second
    · exact .inl (compare_of_equal_left shows (whole i) (whole j) (whole k) (settled first).equal second)
    · have equal := compare_of_equal shows (whole i) (whole j) (whole k) first (settled second).equal
      exact .inr ⟨equal, rise.trans rise'⟩

/-- Sorting asks whether the later one of two items comes first by its key; if it does not, the earlier one does. -/
theorem ranks_inFront (reverse : Bool) : Ranks (before h reverse) xs.get (InFront h reverse xs) where
  trans := InFront.trans made comparable
  told {i j} behind := by
    obtain ⟨o, compared⟩ := List.pairwise_iff_get.mp comparable.pairwise i j behind
    have turned : compareValues h xs[j].key xs[i].key = .ok o.swap := (comparable.settled made compared).turned
    have asked : before h reverse xs[j] xs[i] = .ok (o.swap == foremost reverse) := by
      rw [before, turned]
      rfl
    by_cases first : o.swap = foremost reverse
    · exact .inl ⟨asked.trans (congrArg _ (beq_iff_eq.mpr first)), .inl (first ▸ turned)⟩
    · refine .inr ⟨asked.trans (congrArg _ (beq_eq_false_iff_ne.mpr first)), ?_⟩
      cases o with
      | eq => exact .inr ⟨compared, behind⟩
      | lt =>
        cases reverse with
        | false => exact .inl compared
        | true => exact absurd rfl first
      | gt =>
        cases reverse with
        | false => exact absurd rfl first
        | true => exact .inl compared

theorem sort_stablySorted (reverse : Bool) :
    ∃ sorted, sort (before h reverse) xs = .ok sorted ∧ StablySorted h reverse xs sorted := by
  obtain ⟨places, sorted, perm, ordered⟩ :=
    sort_places (ranks_inFront made comparable reverse) (List.sortedLT_finRange xs.length).pairwise
  have all : (List.finRange xs.length).map xs.get = xs := List.map_get_finRange xs
  rw [all] at sorted
  exact ⟨_, sorted, places, perm, rfl, ordered⟩

end InFront

end Keyed

/-! ### Finding the keys -/

namespace Run

variable {keyOf : KeyOf} {items front rest : List Value} {item : Value} {xs : List Keyed}
  {m m₁ m' : Machine} {halt : Halt}

theorem items_of_keyed (found : keyed keyOf items m = .ok xs m') : xs.map (·.item) = items := by
  induction items generalizing m xs with
  | nil =>
    cases found
    rfl
  | cons item rest ih =>
    obtain ⟨key, m₁, -, found⟩ := ok_of_bind found
    obtain ⟨more, m₂, found, done⟩ := ok_of_bind found
    cases done
    rw [List.map_cons, ih found]

/-- The first key that is not found. -/
theorem keyed_of_error (found : keyed keyOf front m = .ok xs m₁) (failed : keyOf item m₁ = .error halt m') :
    keyed keyOf (front ++ item :: rest) m = .error halt m' := by
  induction front generalizing m xs with
  | nil =>
    cases found
    exact bind_of_error failed
  | cons other front ih =>
    obtain ⟨key, m₂, called, found⟩ := ok_of_bind found
    obtain ⟨more, m₃, found, done⟩ := ok_of_bind found
    cases done
    exact (bind_of_ok called).trans (bind_of_error (ih found))

end Run

/-! ### Keywords -/

/-- The keywords for sorting: none of the two has to be given. -/
def sortingBy (key reverse : Option Value) : Keywords := key.toList.map ("key", ·) ++ reverse.toList.map ("reverse", ·)

theorem ofWork_sortKeywords {keywords : Keywords} {key reverse : Option Value} {m : Machine}
    (given : keywords.Perm (sortingBy key reverse)) :
    Run.ofWork (ListMethods.sortKeywords keywords) m = .ok (key, reverse.any (·.truthy m.heap.toCells), []) m := by
  apply Run.ofWork_of_still
  intro r same
  rw [← same]
  cases key with
  | none =>
    cases reverse with
    | none =>
      cases given.eq_nil
      rfl
    | some v =>
      cases given.eq_singleton
      rfl
  | some f =>
    cases reverse with
    | none =>
      cases given.eq_singleton
      rfl
    | some v => obtain rfl | rfl := List.perm_pair.mp given <;> rfl

/-! ### Sorting -/

/-- How a call has gone that sorts items, starting from the machine `m`, and then does something with them. What it
gives for them, and the machine that it makes of the one that the key calls have left, is what `done` says. It fails
like the first key call that fails and like the first comparison that fails, and does nothing more then. -/
structure SortsThen (keyOf : KeyOf) (reverse : Bool) (items : List Value) (m : Machine)
    (done : List Value → Machine → Value × Machine) (gone : EStateM.Result Halt Machine Value) : Prop where
  keyFails {front rest : List Value} {item : Value} {xs : List Keyed} {m₁ m' : Machine} {halt : Halt} :
    items = front ++ item :: rest → Run.keyed keyOf front m = .ok xs m₁ → keyOf item m₁ = .error halt m' →
      gone = .error halt m'
  comparisonFails {xs : List Keyed} {m' : Machine} {e : Exception} : Run.keyed keyOf items m = .ok xs m' →
    (gone = .error (.fault (.ofException e none)) m' ↔
      ∃ asked ∈ Keyed.asks (Keyed.before m'.heap.toCells reverse) xs,
        compareValues m'.heap.toCells asked.1.key asked.2.key = .error e)
  sorts {xs : List Keyed} {m' : Machine} : Run.keyed keyOf items m = .ok xs m' → xs.map (·.item) = items ∧
    (m'.heap.toCells.Made → Keyed.Comparable m'.heap.toCells xs →
      ∃ sorted, Keyed.StablySorted m'.heap.toCells reverse xs sorted ∧
        gone = .ok (done (sorted.map (·.item)) m').1 (done (sorted.map (·.item)) m').2)

section

variable {keyOf : KeyOf} {reverse : Bool} {items : List Value} {m m' : Machine} {xs : List Keyed}
  {done : List Value → Machine → Value × Machine} {finish : List Value → Run Value}

theorem Keyed.before_error {h : Cells} {a b : Keyed} {e : Exception} :
    before h reverse a b = .error e ↔ compareValues h a.key b.key = .error e := by
  rw [before]
  cases compareValues h a.key b.key <;> simp [bind, Except.bind, pure, Except.pure]

theorem Keyed.before_ok {h : Cells} {a b : Keyed} {first : Bool} :
    before h reverse a b = .ok first ↔
      ∃ o, compareValues h a.key b.key = .ok o ∧ (o == foremost reverse) = first := by
  rw [before]
  cases compareValues h a.key b.key <;> simp [bind, Except.bind, pure, Except.pure, foremost]

theorem Run.sorted_of_sort {sorted : List Keyed} (found : keyed keyOf items m = .ok xs m')
    (sorts : Keyed.sort (Keyed.before m'.heap.toCells reverse) xs = .ok sorted) :
    Run.sorted keyOf reverse items m = .ok (sorted.map (·.item)) m' :=
  (bind_of_ok found).trans (ofWork_readingExcept (by rw [sorts]; rfl))

theorem Run.sorted_of_sort_error {e : Exception} (found : keyed keyOf items m = .ok xs m')
    (fails : Keyed.sort (Keyed.before m'.heap.toCells reverse) xs = .error e) :
    Run.sorted keyOf reverse items m = .error (.fault (.ofException e none)) m' :=
  (bind_of_ok found).trans (ofWork_readingExcept_error (by rw [fails]; rfl))

theorem sortsThen_of_finish (ends : ∀ sorted m, finish sorted m = .ok (done sorted m).1 (done sorted m).2) :
    SortsThen keyOf reverse items m done ((Run.sorted keyOf reverse items >>= finish) m) where
  keyFails := by
    rintro front rest item xs m₁ m' halt rfl found failed
    exact Run.bind_of_error (Run.bind_of_error (Run.keyed_of_error found failed))
  comparisonFails {xs m' e} found := by
    simp only [← @Keyed.before_error reverse]
    rw [← Keyed.sort_hangs xs e]
    cases sorts : Keyed.sort (Keyed.before m'.heap.toCells reverse) xs with
    | error e' =>
      rw [Run.bind_of_error (Run.sorted_of_sort_error found sorts)]
      simp [Fault.ofException]
    | ok sorted =>
      rw [Run.bind_of_ok (Run.sorted_of_sort found sorts), ends]
      simp
  sorts {xs m'} found := by
    refine ⟨Run.items_of_keyed found, fun made comparable => ?_⟩
    obtain ⟨sorted, sorts, stable⟩ := Keyed.sort_stablySorted made comparable reverse
    exact ⟨sorted, stable, (Run.bind_of_ok (Run.sorted_of_sort found sorts)).trans (ends _ _)⟩

end

namespace Call

variable {function : FunctionCaller} {callKey : Value → Value → Run Value} {keywords : Keywords}
  {key reverse : Option Value} {m : Machine}

theorem applyWith_sorted {v : Value} {items : List Value} (given : keywords.Perm (sortingBy key reverse))
    (listed : v.items m.heap.toCells = .ok items) :
    applyWith function callKey (.builtin .sorted) [v] keywords m =
      (Run.sorted (ListMethods.keyOf callKey key) (reverse.any (·.truthy m.heap.toCells)) items >>= fun sorted =>
        Run.ofWork (Work.onHeap (HeapM.newList sorted))) m := by
  refine (Run.bind_of_ok (ofWork_sortKeywords given)).trans ?_
  refine (Run.bind_of_ok (Run.ofWork_of_still (a := ()) fun r _ => rfl)).trans ?_
  refine (Run.bind_of_ok (Run.ofWork_of_still (a := ()) fun r _ => rfl)).trans ?_
  exact Run.bind_of_ok (Run.ofWork_items listed)

theorem applyWith_sort {ref : Nat} (given : keywords.Perm (sortingBy key reverse)) :
    applyWith function callKey (.listMethod ref .sort) [] keywords m =
      (Run.sorted (ListMethods.keyOf callKey key) (reverse.any (·.truthy m.heap.toCells))
          (m.heap.list ref).toList >>= fun sorted =>
        Run.ofWork (ListMethods.modify ref fun _ => sorted.toArray)) m := by
  refine (Run.bind_of_ok (ofWork_sortKeywords given)).trans ?_
  refine (Run.bind_of_ok (Run.ofWork_of_still (a := ()) fun r _ => rfl)).trans ?_
  refine (Run.bind_of_ok (Run.ofWork_of_still (a := ()) fun r _ => rfl)).trans ?_
  exact Run.bind_of_ok (Run.ofWork_of_still fun r same => by rw [← same]; rfl)

theorem ofWork_modify (m : Machine) (ref : Nat) (items : Array Value) :
    Run.ofWork (ListMethods.modify ref fun _ => items) m = .ok .none (m.withCells (m.heap.setList ref items)) := by
  have same : m.heap.lists.modify ref (fun _ => items) = m.heap.lists.setIfInBounds ref items := by
    refine Array.ext_getElem? fun i => ?_
    rw [Array.getElem?_modify, Array.getElem?_setIfInBounds]
    by_cases here : ref = i
    · subst here
      by_cases inside : ref < m.heap.lists.size <;> simp [inside]
    · simp [here]
  have steps (r : Reach) (there : r.cells = m.heap.toCells) : ListMethods.modify ref (fun _ => items) r
      = .ok .none ⟨m.heap.setList ref items, r.clock, r.writes⟩ := by
    rw [Cells.setList, ← same, ← there]
    rfl
  obtain ⟨names, ⟨cells, codes⟩, frames, handling, writes, clock⟩ := m
  simp only [Run.ofWork]
  rw [steps _ rfl]
  simp [Machine.withCells]

/-- A machine with a list in which numbers are twice as far from zero as others. -/
def distances : Machine :=
  .start .empty ⟨⟨#[#[.int 1, .int (-2), .int (-1), .int 2]], #[], 0⟩, #[]⟩ ⟨.ofInt64 0, .ofInt64 0⟩

/-- The numbers in the list with their distances from zero. -/
def distant : List Keyed := [⟨.int 1, .int 1⟩, ⟨.int 2, .int (-2)⟩, ⟨.int 1, .int (-1)⟩, ⟨.int 2, .int 2⟩]

/-- How the function for keys is called in a program. -/
def keyCall (function : FunctionCaller) : Value → Value → Run Value := fun key item =>
  applyWith function (fun _ item => return item) key [item] []

end Call

end SnippetKernel
