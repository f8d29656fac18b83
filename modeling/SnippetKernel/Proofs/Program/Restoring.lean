import SnippetKernel.Program.Control

/-! Names get their former bindings back. Whatever was bound to them in between, a namespace is then the same as before:
the same names in the same order, bound to the same values. -/
namespace SnippetKernel

namespace Namespace

variable {α : Type} {n before after : Namespace α} {a b : String} {v w : α} {names : List String}

theorem lookup_of_mem {entries : List (String × α)} (once : (entries.map (·.1)).Nodup) (mem : (a, v) ∈ entries) :
    entries.lookup a = some v := by
  induction entries with
  | nil => cases mem
  | cons entry rest ih =>
    obtain ⟨other, w⟩ := entry
    rw [List.map_cons, List.nodup_cons] at once
    rw [List.lookup_cons]
    obtain same | later := List.mem_cons.1 mem
    · cases same
      simp
    · have ne : a ≠ other := fun eq => once.1 (List.mem_map.2 ⟨_, later, eq⟩)
      simp [beq_eq_false_iff_ne.2 ne, ih once.2 later]

theorem not_mem_iff_lookup {entries : List (String × α)} : a ∉ entries.map (·.1) ↔ entries.lookup a = none := by
  rw [List.lookup_eq_none_iff, List.mem_map, not_exists]
  refine forall_congr' fun entry => ?_
  rw [not_and, bne_iff_ne]
  exact imp_congr_right fun _ => ne_comm

/-! ### Binding and removing names -/

theorem setIn_setIn (entries : List (String × α)) : setIn a w (setIn a v entries) = setIn a w entries := by
  induction entries with
  | nil => simp [setIn]
  | cons entry rest ih =>
    obtain ⟨name, old⟩ := entry
    by_cases same : name = a
    · simp [setIn, same]
    · simp [setIn, same, ih]

theorem set_set : (n.set a v).set a w = n.set a w := by
  simp only [set, setIn_setIn]

theorem setIn_self {entries : List (String × α)} (bound : entries.lookup a = some v) : setIn a v entries = entries := by
  induction entries with
  | nil => cases bound
  | cons entry rest ih =>
    obtain ⟨name, old⟩ := entry
    by_cases same : name = a
    · simp only [same, List.lookup_cons, beq_self_eq_true, Option.some.injEq] at bound
      simp [setIn, same, bound]
    · have other : (a == name) = false := beq_eq_false_iff_ne.2 (Ne.symm same)
      rw [List.lookup_cons, other] at bound
      simp [setIn, same, ih bound]

theorem set_self (bound : n.find? a = some v) : n.set a v = n := by
  simp only [set, setIn_self bound]

/-- A name that is bound already keeps its place. -/
theorem setIn_comm {entries : List (String × α)} (ne : a ≠ b) (bound : entries.lookup b ≠ none) :
    setIn b w (setIn a v entries) = setIn a v (setIn b w entries) := by
  induction entries with
  | nil => exact absurd List.lookup_nil bound
  | cons entry rest ih =>
    obtain ⟨name, old⟩ := entry
    by_cases first : name = a
    · simp [setIn, first, ne]
    · by_cases second : name = b
      · simp [setIn, second, ne.symm]
      · have other : (b == name) = false := beq_eq_false_iff_ne.2 (Ne.symm second)
        rw [List.lookup_cons, other] at bound
        simp [setIn, first, second, ih bound]

theorem set_comm (ne : a ≠ b) (bound : n.find? b ≠ none) : (n.set a v).set b w = (n.set b w).set a v := by
  simp only [set, setIn_comm ne bound]

theorem filter_setIn (keep : String → Bool) (gone : keep a = false) (entries : List (String × α)) :
    (setIn a v entries).filter (keep ·.1) = entries.filter (keep ·.1) := by
  induction entries with
  | nil => simp [setIn, gone]
  | cons entry rest ih =>
    obtain ⟨name, old⟩ := entry
    by_cases same : name = a
    · simp [setIn, same, gone]
    · simp [setIn, same, List.filter_cons, ih]

theorem remove_set : (n.set a v).remove a = n.remove a :=
  congrArg Namespace.mk (filter_setIn (fun name => name ≠ a) (by simp) n.entries)

theorem filter_setIn_of_kept (keep : String → Bool) (kept : keep a = true) (entries : List (String × α)) :
    (setIn a v entries).filter (keep ·.1) = setIn a v (entries.filter (keep ·.1)) := by
  induction entries with
  | nil => simp [setIn, kept]
  | cons entry rest ih =>
    obtain ⟨name, old⟩ := entry
    by_cases same : name = a
    · simp [setIn, same, kept]
    · by_cases other : keep name = true
      · simp [setIn, same, other, ih]
      · simp [setIn, same, other, ih]

theorem remove_set_of_ne (ne : a ≠ b) : (n.set a v).remove b = (n.remove b).set a v :=
  congrArg Namespace.mk (filter_setIn_of_kept (fun name => name ≠ b) (by simpa using ne) n.entries)

theorem remove_of_unbound (unbound : n.find? a = none) : n.remove a = n := by
  have others : ∀ entry ∈ n.entries, entry.1 ≠ a := by
    intro entry mem same
    have := List.lookup_eq_none_iff.1 unbound entry mem
    simp [same] at this
  have same : n.entries.filter (·.1 ≠ a) = n.entries := List.filter_eq_self.2 (by simpa using others)
  simp only [remove, same]

theorem lookup_filter (keep : String → Bool) (kept : keep b = true) (entries : List (String × α)) :
    (entries.filter (keep ·.1)).lookup b = entries.lookup b := by
  induction entries with
  | nil => rfl
  | cons entry rest ih =>
    obtain ⟨name, old⟩ := entry
    by_cases same : b = name
    · simp [← same, kept]
    · have other : (b == name) = false := beq_eq_false_iff_ne.2 same
      cases here : keep name <;> simp [here, List.lookup_cons, other, ih]

theorem find?_remove_of_ne (ne : b ≠ a) : (n.remove a).find? b = n.find? b :=
  lookup_filter (fun name => name ≠ a) (by simpa using ne) n.entries

/-! ### Restoring -/

/-- The second namespace comes from the first one by binding these names. -/
inductive Rebound (names : List String) (before : Namespace α) : Namespace α → Prop
  | refl : Rebound names before before
  | set {n : Namespace α} {name : String} (v : α) : Rebound names before n → name ∈ names →
    Rebound names before (n.set name v)

theorem Rebound.trans (first : Rebound names before n) (second : Rebound names n after) : Rebound names before after := by
  induction second with
  | refl => exact first
  | set v _ mem ih => exact .set v ih mem

theorem rebound_nil : Rebound [] before after ↔ after = before := by
  constructor
  · intro rebound
    cases rebound with
    | refl => rfl
    | set v _ mem => cases mem
  · rintro rfl
    exact .refl

/-- What was bound before is still bound. -/
theorem Rebound.bound (rebound : Rebound names before after) : before.find? a ≠ none → after.find? a ≠ none := by
  intro bound
  induction rebound with
  | refl => exact bound
  | set v _ _ ih =>
    rw [find?_set]
    split
    · simp
    · exact ih

/-- The bindings of the names, and which of them have none. -/
def saved (n : Namespace α) (names : List String) : List (String × Option α) :=
  names.map fun name => (name, n.find? name)

def restore (n : Namespace α) : List (String × Option α) → Namespace α
  | [] => n
  | (name, some v) :: rest => restore (n.set name v) rest
  | (name, none) :: rest => restore (n.remove name) rest

/-- It does not matter what a name was bound to that gets its binding back. Other names that do are bound in either
case, or they are removed, so the order stays the same. -/
theorem restore_set (kept : ∀ x, before.find? x ≠ none → n.find? x ≠ none) (mem : a ∈ names) :
    restore (n.set a v) (before.saved names) = restore n (before.saved names) := by
  induction names generalizing n with
  | nil => cases mem
  | cons b rest ih =>
    by_cases same : a = b
    · subst same
      simp only [saved, List.map_cons]
      cases before.find? a with
      | none => simp only [restore, remove_set]
      | some w => simp only [restore, set_set]
    · have mem : a ∈ rest := (List.mem_cons.1 mem).resolve_left same
      simp only [saved, List.map_cons]
      cases found : before.find? b with
      | none =>
        simp only [restore, remove_set_of_ne same]
        apply ih _ mem
        intro x bound
        have ne : x ≠ b := by
          rintro rfl
          exact bound found
        rw [find?_remove_of_ne ne]
        exact kept x bound
      | some w =>
        have bound : n.find? b ≠ none := kept b (by simp [found])
        simp only [restore, set_comm same bound]
        apply ih _ mem
        intro x bound
        rw [find?_set]
        split
        · simp
        · exact kept x bound

theorem restore_self (names : List String) : restore before (before.saved names) = before := by
  induction names with
  | nil => rfl
  | cons name rest ih =>
    simp only [saved, List.map_cons]
    cases found : before.find? name with
    | none =>
      simp only [restore, remove_of_unbound found]
      exact ih
    | some v =>
      simp only [restore, set_self found]
      exact ih

/-- Names that were bound in between get their bindings back, and nothing else has changed. -/
theorem restore_saved (rebound : Rebound names before after) : restore after (before.saved names) = before := by
  induction rebound with
  | refl => exact restore_self names
  | set v inner mem ih =>
    rw [restore_set (fun _ => inner.bound) mem]
    exact ih

end Namespace

end SnippetKernel
