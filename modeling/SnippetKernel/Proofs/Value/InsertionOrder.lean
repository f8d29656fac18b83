import Mathlib.Data.List.Induction
import Mathlib.Data.List.Nodup
import SnippetKernel.Value.Dict

/-! What a dict is to those who use it: a list of entries in the order in which their keys were first bound.
Slots, holes and the closing of holes do not show. The index knows the slot of every key and no other, and the
holes never outnumber both the entries and sixteen. -/
namespace SnippetKernel

/-- An entry, and the parts of its key. -/
structure Listed where
  parts : Key
  key : Value
  value : Value

def Listed.entry (e : Listed) : Value × Value := (e.key, e.value)

abbrev Listing := List Listed

namespace Listing

def find? (l : Listing) (k : Key) : Option Value := (List.find? (·.parts = k) l).map (·.value)

/-- A key that is listed keeps its place and its first form; any other comes last. -/
def put (k : Key) (key value : Value) : Listing → Listing
  | [] => [⟨k, key, value⟩]
  | e :: rest => if e.parts = k then { e with value } :: rest else e :: put k key value rest

def erase (l : Listing) (k : Key) : Listing := l.filter (·.parts ≠ k)

end Listing

inductive DictOperation where
  | insert (key value : Value)
  | remove (key : Value)
  | get (key : Value)
  | contains (key : Value)
  | clear
  | iterate
  | size

inductive DictOutcome where
  | done
  | found (v : Option Value)
  | bound (b : Bool)
  | entries (es : List (Value × Value))
  | count (n : Nat)
  | refused (e : Exception)

/-- What comes of operations, one after the other. -/
def DictOperation.all {σ : Type} (perform : σ → DictOperation → DictOutcome × σ) (s : σ) :
    List DictOperation → List DictOutcome × σ
  | [] => ([], s)
  | op :: rest =>
    let (outcome, s) := perform s op
    let (outcomes, s) := all perform s rest
    (outcome :: outcomes, s)

/-- An operation on a dict. One that is refused changes nothing. -/
def Dict.perform (d : Dict) : DictOperation → DictOutcome × Dict
  | .insert key value =>
    match d.insert key value with
    | .ok d => (.done, d)
    | .error e => (.refused e, d)
  | .remove key =>
    match d.remove key with
    | .ok (v, d) => (.found v, d)
    | .error e => (.refused e, d)
  | .get key =>
    match d.get? key with
    | .ok v => (.found v, d)
    | .error e => (.refused e, d)
  | .contains key =>
    match d.contains key with
    | .ok b => (.bound b, d)
    | .error e => (.refused e, d)
  | .clear => (.done, .empty)
  | .iterate => (.entries d.toList, d)
  | .size => (.count d.size, d)

/-- The same operation on a list. -/
def Listing.perform (l : Listing) : DictOperation → DictOutcome × Listing
  | .insert key value =>
    match key.key with
    | .ok k => (.done, l.put k key value)
    | .error e => (.refused e, l)
  | .remove key =>
    match key.key with
    | .ok k => (.found (l.find? k), l.erase k)
    | .error e => (.refused e, l)
  | .get key =>
    match key.key with
    | .ok k => (.found (l.find? k), l)
    | .error e => (.refused e, l)
  | .contains key =>
    match key.key with
    | .ok k => (.bound (l.any (·.parts = k)), l)
    | .error e => (.refused e, l)
  | .clear => (.done, [])
  | .iterate => (.entries (l.map (·.entry)), l)
  | .size => (.count l.length, l)

namespace Listing

variable {l before behind : Listing} {e : Listed} {k : Key} {key value : Value}

theorem find?_of_new (new : k ∉ l.map (·.parts)) : l.find? k = none := by
  simp only [List.mem_map, not_exists, not_and] at new
  simpa [find?] using new

theorem find?_middle (new : k ∉ before.map (·.parts)) (same : e.parts = k) :
    find? (before ++ e :: behind) k = some e.value := by
  have skipped : List.find? (·.parts = k) before = none := by
    simpa [find?] using find?_of_new new
  simp [find?, List.find?_append, skipped, same]

theorem put_of_new (new : k ∉ l.map (·.parts)) : l.put k key value = l ++ [⟨k, key, value⟩] := by
  induction l with
  | nil => rfl
  | cons e rest ih =>
    simp only [List.map_cons, List.mem_cons, not_or] at new
    rw [put, if_neg (Ne.symm new.1), ih new.2, List.cons_append]

theorem put_middle (new : k ∉ before.map (·.parts)) (same : e.parts = k) :
    put k key value (before ++ e :: behind) = before ++ { e with value } :: behind := by
  induction before with
  | nil => simp [put, same]
  | cons first rest ih =>
    simp only [List.map_cons, List.mem_cons, not_or] at new
    rw [List.cons_append, put, if_neg (Ne.symm new.1), ih new.2, List.cons_append]

theorem erase_of_new (new : k ∉ l.map (·.parts)) : l.erase k = l := by
  simp only [List.mem_map, not_exists, not_and] at new
  exact List.filter_eq_self.2 fun e mem => by simpa using new e mem

theorem erase_middle (new : k ∉ before.map (·.parts)) (same : e.parts = k)
    (apart : k ∉ behind.map (·.parts)) : erase (before ++ e :: behind) k = before ++ behind := by
  have first := erase_of_new new
  have last := erase_of_new apart
  simp only [erase, ne_eq, decide_not] at first last
  simp [erase, List.filter_append, same, first, last]

/-- Keys are listed once each. -/
theorem apart_of_nodup (distinct : ((before ++ e :: behind).map (·.parts)).Nodup) :
    e.parts ∉ before.map (·.parts) ∧ e.parts ∉ behind.map (·.parts) := by
  rw [List.map_append, List.map_cons, List.nodup_append] at distinct
  obtain ⟨-, tail, apart⟩ := distinct
  exact ⟨fun mem => apart _ mem _ List.mem_cons_self rfl, (List.nodup_cons.1 tail).1⟩

end Listing

namespace Dict

/-- The key in a slot. -/
def keyAt (d : Dict) (slot : Nat) : Option Value := d.entries[slot]?.join.map (·.1)

/-- The index knows the slot of each key, and no more than that. -/
def Indexed (d : Dict) : Prop :=
  ∀ k slot, d.index[k]? = some slot ↔ ∃ key, d.keyAt slot = some key ∧ key.key = .ok k

/-- How many slots are empty. -/
def holes (d : Dict) : Nat := d.entries.countP Option.isNone

/-- No more holes than entries, or than sixteen. -/
def Few (d : Dict) : Prop := d.holes ≤ max 16 d.live

/-- The dict without the entry in a slot, which becomes a hole. -/
def vacate (d : Dict) (k : Key) (slot : Nat) : Dict :=
  { entries := d.entries.modify slot fun _ => none, index := d.index.erase k, live := d.live - 1 }

/-- The entries of the dict are those of the list, and its parts are in step. -/
structure Shows (d : Dict) (l : Listing) : Prop where
  entries : d.toList = l.map (·.entry)
  keyed : ∀ e ∈ l, e.key.key = .ok e.parts
  distinct : (l.map (·.parts)).Nodup
  indexed : d.Indexed
  live : d.live = l.length

theorem size_entries (d : Dict) : d.entries.size = d.toList.length + d.holes := by
  have split (es : List (Option (Value × Value))) :
      es.length = (es.filterMap id).length + es.countP Option.isNone := by
    induction es with
    | nil => rfl
    | cons e rest ih => cases e <;> simp [ih] <;> omega
  rw [holes, ← Array.countP_toList]
  exact split d.entries.toList

variable {d : Dict} {l : Listing} {k : Key}

theorem toList_of_slots {before behind : List (Option (Value × Value))} {e : Option (Value × Value)}
    (slots : d.entries.toList = before ++ e :: behind) :
    d.toList = before.filterMap id ++ (e.toList ++ behind.filterMap id) := by
  rw [toList, slots, List.filterMap_append]
  cases e <;> rfl

theorem slots_vacate {before behind : List (Option (Value × Value))} {e : Option (Value × Value)}
    (slots : d.entries.toList = before ++ e :: behind) :
    (d.vacate k before.length).entries.toList = before ++ none :: behind := by
  rw [vacate, Array.toList_modify, slots, List.modify_eq_take_drop]
  simp

theorem keyAt_vacate (slot other : Nat) :
    (d.vacate k slot).keyAt other = if other = slot then none else d.keyAt other := by
  simp only [vacate, keyAt, Array.getElem?_modify, eq_comm (a := other)]
  split
  · cases d.entries[other]? <;> rfl
  · rfl

theorem erase_unknown (unknown : d.index[k]? = none) : d.erase k = d := by simp only [erase, unknown]

theorem erase_known {slot : Nat} (known : d.index[k]? = some slot) :
    d.erase k = if 16 < (d.vacate k slot).entries.size ∧
        (d.vacate k slot).live * 2 < (d.vacate k slot).entries.size then (d.vacate k slot).compact
      else d.vacate k slot := by
  simp only [erase, known]
  rfl

namespace Shows

/-- The slot of a key, among the slots and in the list. -/
theorem slot_of_known (shows : d.Shows l) {slot : Nat} (known : d.index[k]? = some slot) :
    ∃ before e behind, d.entries.toList = before ++ some (Listed.entry e) :: behind ∧ before.length = slot ∧
      e.parts = k ∧ ∃ front back, l = front ++ e :: back ∧ before.filterMap id = front.map (·.entry) ∧
        behind.filterMap id = back.map (·.entry) := by
  obtain ⟨key, here, hashed⟩ := (shows.indexed k slot).1 known
  simp only [keyAt, Option.map_eq_some_iff, Option.join_eq_some_iff] at here
  obtain ⟨⟨key, value⟩, here, rfl⟩ := here
  rw [← Array.getElem?_toList] at here
  obtain ⟨inside, here⟩ := List.getElem?_eq_some_iff.1 here
  obtain ⟨before, behind, slots, place⟩ : ∃ before behind,
      d.entries.toList = before ++ d.entries.toList[slot] :: behind ∧ before.length = slot :=
    ⟨d.entries.toList.take slot, d.entries.toList.drop (slot + 1), by rw [List.getElem_cons_drop, List.take_append_drop],
      List.length_take_of_le (Nat.le_of_lt inside)⟩
  rw [here] at slots
  have entries := (toList_of_slots slots).symm.trans shows.entries
  obtain ⟨front, rest, rfl, shownBefore, shownRest⟩ := List.map_eq_append_iff.1 entries.symm
  obtain ⟨e, back, rfl, shown, shownBehind⟩ := List.map_eq_cons_iff.1 shownRest
  have keyed := shows.keyed e (by simp)
  obtain ⟨rfl, rfl⟩ := Prod.mk.inj shown
  have same : e.parts = k := Except.ok.inj (keyed.symm.trans hashed)
  exact ⟨before, e, behind, slots, place, same, front, back, rfl, shownBefore.symm, shownBehind.symm⟩

/-- A key is listed if the index knows it. -/
theorem known_iff (shows : d.Shows l) : (∃ slot, d.index[k]? = some slot) ↔ k ∈ l.map (·.parts) := by
  constructor
  · rintro ⟨slot, known⟩
    obtain ⟨-, e, -, -, -, rfl, front, back, rfl, -, -⟩ := shows.slot_of_known known
    simp
  · intro mem
    obtain ⟨e, listed, rfl⟩ := List.mem_map.1 mem
    have shown : e.entry ∈ d.toList := shows.entries ▸ List.mem_map_of_mem listed
    have stored : some e.entry ∈ d.entries := by simpa [toList] using shown
    obtain ⟨slot, here⟩ := Array.mem_iff_getElem?.1 stored
    exact ⟨slot, (shows.indexed _ _).2 ⟨e.key, by rw [keyAt, here]; rfl, shows.keyed e listed⟩⟩

theorem new (shows : d.Shows l) (unknown : d.index[k]? = none) : k ∉ l.map (·.parts) := by
  intro mem
  obtain ⟨slot, known⟩ := shows.known_iff.2 mem
  rw [unknown] at known
  cases known

theorem empty : Dict.empty.Shows [] := by
  constructor
  · rfl
  · exact List.forall_mem_nil _
  · exact List.nodup_nil
  · intro k slot
    simp [Dict.empty, keyAt]
  · rfl

/-! ### Looking -/

theorem find?_eq (shows : d.Shows l) (k : Key) : d.find? k = l.find? k := by
  cases known : d.index[k]? with
  | none => rw [Dict.find?, known, Listing.find?_of_new (shows.new known), Option.bind_none]
  | some slot =>
    obtain ⟨before, e, behind, slots, place, same, front, back, rfl, -, -⟩ := shows.slot_of_known known
    have here : d.entries[slot]? = some (some e.entry) := by
      rw [← Array.getElem?_toList, slots, ← place]
      simp
    have apart := Listing.apart_of_nodup shows.distinct
    rw [same] at apart
    rw [Listing.find?_middle apart.1 same, Dict.find?, known, Option.bind_some, here]
    rfl

theorem contains_eq (shows : d.Shows l) (k : Key) : d.index.contains k = l.any (·.parts = k) := by
  rw [Bool.eq_iff_iff, Std.HashMap.contains_eq_isSome_getElem?, Option.isSome_iff_exists, shows.known_iff]
  simp

/-! ### Binding -/

/-- A new key gets the next slot. -/
theorem put_new (shows : d.Shows l) {key value : Value} (hashed : key.key = .ok k)
    (unknown : d.index[k]? = none) : (d.put k key value).Shows (l.put k key value) := by
  have fresh := shows.new unknown
  have keyAt_put (slot : Nat) :
      (d.put k key value).keyAt slot = if slot = d.entries.size then some key else d.keyAt slot := by
    simp only [Dict.put, unknown, keyAt, Array.getElem?_push]
    split <;> rfl
  have outside : d.keyAt d.entries.size = none := by simp [keyAt]
  rw [Listing.put_of_new fresh]
  constructor
  · have entries := shows.entries
    simp only [Dict.put, unknown, toList, Array.toList_push, List.filterMap_append, List.map_append] at entries ⊢
    rw [entries]
    rfl
  · intro e mem
    obtain mem | rfl := by simpa using mem
    · exact shows.keyed e mem
    · exact hashed
  · rw [List.map_append, List.nodup_append]
    refine ⟨shows.distinct, by simp, ?_⟩
    rintro a mem b last rfl
    rw [List.map_singleton, List.mem_singleton] at last
    subst last
    exact fresh mem
  · intro k' slot
    have old := shows.indexed k' slot
    rw [keyAt_put]
    simp only [Dict.put, unknown, Std.HashMap.getElem?_insert, beq_iff_eq]
    by_cases last : slot = d.entries.size
    · subst last
      rw [outside] at old
      by_cases same : k = k' <;> simp [same, hashed, old]
    · by_cases same : k = k'
      · subst same
        rw [unknown] at old
        simpa [last, Ne.symm last] using old
      · simp [last, same, old]
  · simp [Dict.put, unknown, shows.live]

/-- A key that is bound keeps its slot and its first form. -/
theorem put_known (shows : d.Shows l) {key value : Value} {slot : Nat} (known : d.index[k]? = some slot) :
    (d.put k key value).Shows (l.put k key value) := by
  obtain ⟨before, e, behind, slots, place, same, front, back, rfl, shownBefore, shownBehind⟩ :=
    shows.slot_of_known known
  have apart := Listing.apart_of_nodup shows.distinct
  rw [same] at apart
  have rewritten : (d.put k key value).entries.toList = before ++ some (e.key, value) :: behind := by
    simp only [Dict.put, known, Array.toList_modify, slots, ← place]
    rw [List.modify_eq_take_drop]
    simp [Listed.entry]
  have keyAt_put (slot : Nat) : (d.put k key value).keyAt slot = d.keyAt slot := by
    simp only [Dict.put, known, keyAt, Array.getElem?_modify]
    split
    · obtain _ | _ | entry := d.entries[slot]? <;> rfl
    · rfl
  rw [Listing.put_middle apart.1 same]
  constructor
  · rw [toList_of_slots rewritten, shownBefore, shownBehind, List.map_append]
    rfl
  · have keyed := shows.keyed
    simp only [List.forall_mem_append, List.forall_mem_cons] at keyed ⊢
    exact keyed
  · simpa using shows.distinct
  · intro k' other
    have old := shows.indexed k' other
    rw [keyAt_put, ← old]
    simp [Dict.put, known]
  · simpa [Dict.put, known] using shows.live

theorem put (shows : d.Shows l) {key : Value} (hashed : key.key = .ok k) (value : Value) :
    (d.put k key value).Shows (l.put k key value) := by
  cases known : d.index[k]? with
  | none => exact shows.put_new hashed known
  | some slot => exact shows.put_known known

/-! ### Removing -/

theorem foldl_snd {α β : Type} {step : β × Nat → α → β × Nat} (counts : ∀ s a, (step s a).2 = s.2 + 1)
    (as : List α) (s : β × Nat) : (as.foldl step s).2 = s.2 + as.length := by
  induction as generalizing s with
  | nil => rfl
  | cons a rest ih => rw [List.foldl_cons, ih, counts, List.length_cons]; omega

theorem indexOf_push {key : Value} (hashed : key.key = .ok k) (entries : Array (Option (Value × Value)))
    (value : Value) : indexOf (entries.push (some (key, value))) = (indexOf entries).insert k entries.size := by
  unfold indexOf
  simp only [Array.foldl_push, hashed]
  rw [← Array.foldl_toList, foldl_snd, Nat.zero_add, Array.length_toList]
  intro s entry
  split
  · split <;> rfl
  · rfl

/-- A new key at the end is found there only. -/
theorem getElem?_append_new {ks : List Key} {last : Key} (new : last ∉ ks) (k : Key) (slot : Nat) :
    (ks ++ [last])[slot]? = some k ↔ if last = k then slot = ks.length else ks[slot]? = some k := by
  rw [List.getElem?_append]
  by_cases inside : slot < ks.length
  · rw [if_pos inside]
    split
    · next same =>
      constructor
      · intro here
        exact absurd (same ▸ List.mem_of_getElem? here) new
      · intro outside
        omega
    · rfl
  · have nowhere : ks[slot]? = none := List.getElem?_eq_none (Nat.le_of_not_lt inside)
    rw [if_neg inside, List.getElem?_singleton, nowhere]
    by_cases same : last = k
    · simp only [same, if_true]
      constructor
      · intro here
        split at here
        · omega
        · cases here
      · intro last
        rw [if_pos (by omega)]
    · simp [same]

/-- The places of entries without holes. -/
theorem indexOf_listed (keyed : ∀ e ∈ l, e.key.key = .ok e.parts) (distinct : (l.map (·.parts)).Nodup)
    (k : Key) (slot : Nat) :
    (indexOf (l.map fun e => some e.entry).toArray)[k]? = some slot ↔ (l.map (·.parts))[slot]? = some k := by
  induction l using List.reverseRecOn with
  | nil => simp [indexOf]
  | append_singleton rest e ih =>
    simp only [List.forall_mem_append, List.forall_mem_singleton] at keyed
    rw [List.map_append, List.map_singleton] at distinct ⊢
    obtain ⟨earlier, -, apart⟩ := List.nodup_append.1 distinct
    have new : e.parts ∉ rest.map (·.parts) := fun mem => apart _ mem _ List.mem_cons_self rfl
    rw [List.map_append, List.map_singleton, ← List.push_toArray, Listed.entry, indexOf_push keyed.2,
      Std.HashMap.getElem?_insert, getElem?_append_new new]
    by_cases last : e.parts = k
    · simp [last, eq_comm]
    · simp [last, ih keyed.1 earlier]

theorem slots_compact (shows : d.Shows l) : d.compact.entries = (l.map fun e => some e.entry).toArray := by
  have closed (es : List (Option (Value × Value))) : es.filter Option.isSome = (es.filterMap id).map some := by
    induction es with
    | nil => rfl
    | cons e rest ih => cases e <;> simp [ih]
  have listed : d.entries.toList.filterMap id = l.map (·.entry) := shows.entries
  apply Array.toList_inj.1
  simp only [Dict.compact, Array.toList_filter, closed, listed, List.map_map]
  rfl

/-- Holes can be closed. -/
theorem compact (shows : d.Shows l) : d.compact.Shows l := by
  have slots := shows.slots_compact
  constructor
  · rw [toList, slots]
    simp
  · exact shows.keyed
  · exact shows.distinct
  · intro k slot
    change (indexOf d.compact.entries)[k]? = some slot ↔ _
    rw [keyAt, slots, indexOf_listed shows.keyed shows.distinct]
    cases here : l[slot]? with
    | none => simp [here]
    | some e => simp [here, shows.keyed e (List.mem_of_getElem? here), Listed.entry]
  · exact shows.live

/-- An entry is removed by emptying its slot. -/
theorem vacate (shows : d.Shows l) {slot : Nat} (known : d.index[k]? = some slot) :
    (d.vacate k slot).Shows (l.erase k) := by
  obtain ⟨before, e, behind, slots, rfl, same, front, back, rfl, shownBefore, shownBehind⟩ :=
    shows.slot_of_known known
  have apart := Listing.apart_of_nodup shows.distinct
  rw [same] at apart
  rw [Listing.erase_middle apart.1 same apart.2]
  have fewer : (front ++ back).Sublist (front ++ e :: back) :=
    (List.Sublist.refl front).append (List.sublist_cons_self e back)
  constructor
  · rw [toList_of_slots (slots_vacate slots), shownBefore, shownBehind, List.map_append]
    rfl
  · exact fun x mem => shows.keyed x (fewer.subset mem)
  · exact shows.distinct.sublist (fewer.map _)
  · intro k' other
    have old := shows.indexed k' other
    have held := shows.indexed k before.length
    rw [keyAt_vacate, Dict.vacate, Std.HashMap.getElem?_erase]
    simp only [beq_iff_eq]
    by_cases here : other = before.length
    · subst here
      rw [known] at held
      obtain ⟨key, stored, hashed⟩ := held.1 rfl
      by_cases removed : k = k'
      · simp [removed]
      · simp only [removed, if_false, if_true, old, stored, Option.some_inj]
        simp [hashed, removed]
    · by_cases removed : k = k'
      · subst removed
        rw [known, Option.some_inj] at old
        simpa [here, Ne.symm here] using old
      · simp [here, removed, old]
  · simp [Dict.vacate, shows.live]

theorem erase (shows : d.Shows l) (k : Key) : (d.erase k).Shows (l.erase k) := by
  cases known : d.index[k]? with
  | none =>
    rw [erase_unknown known, Listing.erase_of_new (shows.new known)]
    exact shows
  | some slot =>
    rw [erase_known known]
    split
    · exact (shows.vacate known).compact
    · exact shows.vacate known

/-! ### Holes -/

theorem size_eq (shows : d.Shows l) : d.entries.size = d.live + d.holes := by
  rw [size_entries, shows.entries, List.length_map, shows.live]

/-- A binding leaves the holes as they are, and no fewer entries. -/
theorem put_few (shows : d.Shows l) {key : Value} (hashed : key.key = .ok k) (value : Value) (few : d.Few) :
    (d.put k key value).Few := by
  have before := shows.size_eq
  have after := (shows.put hashed value).size_eq
  simp only [Few, Dict.put] at few after ⊢
  cases known : d.index[k]? with
  | none =>
    simp only [known, Array.size_push] at after ⊢
    omega
  | some slot =>
    simp only [known, Array.size_modify] at after ⊢
    omega

/-- Where a removal leaves too many holes, it closes them all. -/
theorem erase_few (shows : d.Shows l) (few : d.Few) : (d.erase k).Few := by
  cases known : d.index[k]? with
  | none =>
    rw [erase_unknown known]
    exact few
  | some slot =>
    have size := (shows.vacate known).size_eq
    rw [erase_known known]
    split
    · have closed : (d.vacate k slot).compact.holes = 0 := by simp [holes, Dict.compact, Array.countP_filter]
      rw [Few, closed]
      exact Nat.zero_le _
    · rw [Few]
      omega

end Shows

/-! ### One operation, and all of them -/

theorem perform_shows (shows : d.Shows l) (few : d.Few) (op : DictOperation) :
    (d.perform op).1 = (l.perform op).1 ∧ (d.perform op).2.Shows (l.perform op).2 ∧ (d.perform op).2.Few := by
  cases op with
  | insert key value =>
    cases hashed : key.key with
    | error e => simpa [perform, Listing.perform, insert, hashed] using ⟨shows, few⟩
    | ok k =>
      simpa [perform, Listing.perform, insert, hashed] using ⟨shows.put hashed value, shows.put_few hashed value few⟩
  | remove key =>
    cases hashed : key.key with
    | error e => simpa [perform, Listing.perform, remove, hashed] using ⟨shows, few⟩
    | ok k =>
      simpa [perform, Listing.perform, remove, hashed] using
        ⟨shows.find?_eq k, shows.erase k, shows.erase_few few⟩
  | get key =>
    cases hashed : key.key with
    | error e => simpa [perform, Listing.perform, get?, hashed] using ⟨shows, few⟩
    | ok k => simpa [perform, Listing.perform, get?, hashed] using ⟨shows.find?_eq k, shows, few⟩
  | contains key =>
    cases hashed : key.key with
    | error e => simpa [perform, Listing.perform, contains, hashed] using ⟨shows, few⟩
    | ok k => simpa [perform, Listing.perform, contains, hashed] using ⟨shows.contains_eq k, shows, few⟩
  | clear => exact ⟨rfl, Shows.empty, Nat.zero_le _⟩
  | iterate => exact ⟨congrArg DictOutcome.entries shows.entries, shows, few⟩
  | size => exact ⟨congrArg DictOutcome.count shows.live, shows, few⟩

theorem all_shows (shows : d.Shows l) (few : d.Few) (ops : List DictOperation) :
    (DictOperation.all perform d ops).1 = (DictOperation.all Listing.perform l ops).1 ∧
      (DictOperation.all perform d ops).2.Shows (DictOperation.all Listing.perform l ops).2 ∧
        (DictOperation.all perform d ops).2.Few := by
  induction ops generalizing d l with
  | nil => exact ⟨rfl, shows, few⟩
  | cons op rest ih =>
    obtain ⟨same, shows, few⟩ := perform_shows shows few op
    obtain ⟨sames, shows, few⟩ := ih shows few
    exact ⟨congrArg₂ List.cons same sames, shows, few⟩

/-- A dict that began empty answers every operation as the list of its entries does, in which a key that is
bound again keeps its place and its first form, and one that was removed comes back at the end. Its index holds
each key with its slot and nothing else, no key is in two slots, and there are at most sixteen holes or as many
holes as entries. -/
theorem perform_as_listing (ops : List DictOperation) :
    let (outcomes, d) := DictOperation.all perform .empty ops
    let (listed, l) := DictOperation.all Listing.perform [] ops
    outcomes = listed ∧ d.toList = l.map (·.entry) ∧ d.size = l.length ∧ (l.map (·.parts)).Nodup ∧
      d.Indexed ∧ d.holes ≤ max 16 d.size := by
  obtain ⟨same, shows, few⟩ := all_shows Shows.empty (Nat.zero_le _) ops
  exact ⟨same, shows.entries, shows.live, shows.distinct, shows.indexed, few⟩

end Dict

end SnippetKernel
