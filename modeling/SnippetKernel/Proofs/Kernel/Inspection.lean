import Mathlib.Data.List.Nodup
import SnippetKernel.Proofs.Kernel.Passive
import SnippetKernel.Proofs.Program.Invariants
import SnippetKernel.Proofs.Program.Restoring

/-! What is listed when bindings are looked at. Programs do nothing to the namespace but bind names and remove them, so
in every state of the engine each visible name is listed once, in the order in which the names were bound. -/
namespace SnippetKernel

/-! ### Names in order

Namespaces are maps that keep an order. The names stand in the order in which they were bound; binding a name again
keeps its place, and one that was removed comes back at the end. A list of names beside a table of values says the
same, as long as the two are changed together. -/

namespace Namespace

variable {α : Type} {n : Namespace α} {a x : String} {v : α}

/-- What can be done to a namespace. -/
inductive Change (α : Type) where
  | set (name : String) (v : α)
  | remove (name : String)
  | clear

def apply (n : Namespace α) : Change α → Namespace α
  | .set name v => n.set name v
  | .remove name => n.remove name
  | .clear => .empty

/-- The namespace after changes, one after the other. -/
def changed (n : Namespace α) (changes : List (Change α)) : Namespace α := changes.foldl apply n

/-! ### Names -/

theorem mem_names_iff : a ∈ n.names ↔ n.find? a ≠ none := by
  rw [Ne, find?, ← not_mem_iff_lookup, not_not]
  rfl

theorem names_setIn (entries : List (String × α)) :
    (setIn a v entries).map (·.1) =
      if a ∈ entries.map (·.1) then entries.map (·.1) else entries.map (·.1) ++ [a] := by
  induction entries with
  | nil => rfl
  | cons entry rest ih =>
    obtain ⟨name, old⟩ := entry
    by_cases same : name = a
    · simp [setIn, same]
    · rw [setIn, if_neg same, List.map_cons, List.map_cons, ih]
      by_cases mem : a ∈ rest.map (·.1)
      · rw [if_pos mem, if_pos (List.mem_cons_of_mem _ mem)]
      · have new : a ∉ name :: rest.map (·.1) := List.not_mem_cons_of_ne_of_not_mem (Ne.symm same) mem
        rw [if_neg mem, if_neg new]
        rfl

theorem names_set : (n.set a v).names = if a ∈ n.names then n.names else n.names ++ [a] := names_setIn n.entries

theorem names_remove : (n.remove a).names = n.names.filter (· ≠ a) := by
  simp only [remove, names, List.filter_map]
  rfl

theorem nodup_empty : (empty : Namespace α).names.Nodup := List.nodup_nil

theorem nodup_set (once : n.names.Nodup) : (n.set a v).names.Nodup := by
  rw [names_set]
  split
  · exact once
  · next new => exact List.nodup_append_comm.mp (List.nodup_cons.mpr ⟨new, once⟩)

theorem nodup_apply (once : n.names.Nodup) (change : Change α) : (n.apply change).names.Nodup := by
  cases change with
  | set name v => exact nodup_set once
  | remove name =>
    rw [apply, names_remove]
    exact once.filter _
  | clear => exact nodup_empty

theorem nodup_changed (once : n.names.Nodup) (changes : List (Change α)) : (n.changed changes).names.Nodup := by
  induction changes generalizing n with
  | nil => exact once
  | cons change rest ih => exact ih (nodup_apply once change)

/-! ### Bindings -/

theorem find?_remove : (n.remove a).find? x = if x = a then none else n.find? x := by
  split
  · next same =>
    subst same
    by_contra bound
    have mem := mem_names_iff.mpr bound
    simp [names_remove] at mem
  · next other => exact find?_remove_of_ne other

/-- Looking up some of the names, one after the other, is going through their entries. -/
theorem filterMap_find? {β : Type} (once : n.names.Nodup) (keep : String → Bool) (f : String → α → β) :
    (n.names.filter keep).filterMap (fun a => (n.find? a).map (f a)) =
      (n.entries.filter (keep ·.1)).map fun entry => f entry.1 entry.2 := by
  have found : ∀ entry ∈ n.entries.filter (keep ·.1), (n.find? entry.1).map (f entry.1) = some (f entry.1 entry.2) := by
    intro entry mem
    rw [find?, lookup_of_mem once (List.mem_of_mem_filter mem)]
    rfl
  rw [names, List.filter_map, List.filterMap_map, ← List.filterMap_eq_map]
  exact List.filterMap_congr found

/-- Each entry is listed as it is found. -/
theorem entries_eq (once : n.names.Nodup) :
    n.entries = n.names.filterMap fun a => (n.find? a).map fun v => (a, v) := by
  simpa using (filterMap_find? once (fun _ => true) Prod.mk).symm

/-- The namespace is a map that keeps an order. -/
structure KeepsOrder (n : Namespace α) : Prop where
  /-- No name is listed twice. -/
  once : n.names.Nodup
  /-- The names that are listed are those that are bound. -/
  bound : ∀ a, a ∈ n.names ↔ n.find? a ≠ none
  /-- What is listed are the names in order, each with what it is bound to. -/
  entries : n.entries = n.names.filterMap fun a => (n.find? a).map fun v => (a, v)
  size : n.size = n.names.length
  find?_set : ∀ a v x, (n.set a v).find? x = if x = a then some v else n.find? x
  find?_remove : ∀ a x, (n.remove a).find? x = if x = a then none else n.find? x
  /-- A name that is bound again keeps its place, and a new one comes last. -/
  names_set : ∀ a v, (n.set a v).names = if a ∈ n.names then n.names else n.names ++ [a]
  /-- The others stay in order when a name is removed. -/
  names_remove : ∀ a, (n.remove a).names = n.names.filter (· ≠ a)
  /-- A name that was removed comes back at the end. -/
  names_again : ∀ a v, ((n.remove a).set a v).names = n.names.filter (· ≠ a) ++ [a]
  remove_unbound : ∀ a, a ∉ n.names → n.remove a = n

theorem keepsOrder (once : n.names.Nodup) : n.KeepsOrder where
  once := once
  bound _ := mem_names_iff
  entries := entries_eq once
  size := (List.length_map _).symm
  find?_set := n.find?_set
  find?_remove _ _ := n.find?_remove
  names_set _ _ := n.names_set
  names_remove _ := n.names_remove
  names_again a v := by
    have gone : a ∉ (n.remove a).names := by simp [names_remove]
    rw [Namespace.names_set, if_neg gone, Namespace.names_remove]
  remove_unbound a unbound := remove_of_unbound (not_not.mp (mem_names_iff.not.mp unbound))

/-! ### A list of names and a table -/

/-- The names in order, and apart from them what they are bound to. Names without a value are passed over. -/
structure Table (α : Type) where
  order : List String
  values : Std.HashMap String α

namespace Table

def empty : Table α := ⟨[], ∅⟩

def set (t : Table α) (name : String) (v : α) : Table α :=
  ⟨if t.values.contains name then t.order else t.order ++ [name], t.values.insert name v⟩

def remove (t : Table α) (name : String) : Table α :=
  if t.values.contains name then ⟨t.order.filter (· ≠ name), t.values.erase name⟩ else t

def apply (t : Table α) : Change α → Table α
  | .set name v => t.set name v
  | .remove name => t.remove name
  | .clear => .empty

def changed (t : Table α) (changes : List (Change α)) : Table α := changes.foldl apply t

def size (t : Table α) : Nat := t.values.size

def entries (t : Table α) : List (String × α) :=
  t.order.filterMap fun a => t.values[a]?.map fun v => (a, v)

/-- The list and the table are about the same names as the namespace. -/
structure Shows (t : Table α) (n : Namespace α) : Prop where
  once : n.names.Nodup
  order : t.order = n.names
  values : ∀ a, t.values[a]? = n.find? a
  size : t.values.size = n.names.length

variable {t : Table α}

namespace Shows

theorem contains_iff (shows : t.Shows n) : t.values.contains a = true ↔ a ∈ n.names := by
  rw [mem_names_iff, ← shows.values, Std.HashMap.contains_eq_isSome_getElem?, Option.isSome_iff_ne_none]

theorem set (shows : t.Shows n) (a : String) (v : α) : (t.set a v).Shows (n.set a v) := by
  constructor
  · exact nodup_set shows.once
  · simp only [Table.set, shows.order, names_set, shows.contains_iff]
  · intro x
    simp only [Table.set, Std.HashMap.getElem?_insert, find?_set, shows.values, beq_iff_eq, @eq_comm _ x a]
  · simp only [Table.set, Std.HashMap.size_insert, ← Std.HashMap.contains_iff_mem, shows.contains_iff, names_set,
      shows.size]
    split <;> simp

theorem remove (shows : t.Shows n) (a : String) : (t.remove a).Shows (n.remove a) := by
  unfold Table.remove
  by_cases bound : a ∈ n.names
  · rw [if_pos (shows.contains_iff.mpr bound)]
    constructor
    · exact nodup_apply shows.once (.remove a)
    · rw [names_remove, shows.order]
    · intro x
      simp only [Std.HashMap.getElem?_erase, find?_remove, shows.values, beq_iff_eq, @eq_comm _ x a]
    · have inside : a ∈ t.values := Std.HashMap.contains_iff_mem.mp (shows.contains_iff.mpr bound)
      rw [Std.HashMap.size_erase, if_pos inside, names_remove, shows.size, ← List.length_erase_of_mem bound,
        shows.once.erase_eq_filter]
      simp [bne, beq_eq_decide]
  · rw [if_neg (shows.contains_iff.not.mpr bound), remove_of_unbound (not_not.mp (mem_names_iff.not.mp bound))]
    exact shows

theorem empty : (Table.empty : Table α).Shows .empty :=
  ⟨nodup_empty, rfl, fun _ => Std.HashMap.getElem?_empty, rfl⟩

theorem changed (shows : t.Shows n) (changes : List (Change α)) : (t.changed changes).Shows (n.changed changes) := by
  induction changes generalizing t n with
  | nil => exact shows
  | cons change rest ih =>
    cases change with
    | set name v => exact ih (shows.set name v)
    | remove name => exact ih (shows.remove name)
    | clear => exact ih .empty

theorem entries (shows : t.Shows n) : t.entries = n.entries := by
  simp only [Table.entries, shows.order, shows.values, entries_eq shows.once]

end Shows

end Table

end Namespace

end SnippetKernel

/-! ### What programs do to the namespace -/
namespace SnippetKernel

namespace Namespace

/-- The second namespace comes from the first by changes. -/
def Becomes (before after : Namespace Value) : Prop := ∃ changes, after = before.changed changes

variable {before n : Namespace Value}

theorem Becomes.apply (becomes : before.Becomes n) (change : Change Value) : before.Becomes (n.apply change) := by
  obtain ⟨changes, rfl⟩ := becomes
  refine ⟨changes ++ [change], ?_⟩
  simp only [changed, List.foldl_append, List.foldl_cons, List.foldl_nil]

theorem lasting_becomes (before : Namespace Value) : Machine.Lasting fun m => before.Becomes m.names where
  set name v becomes := becomes.apply (.set name v)
  remove name becomes := becomes.apply (.remove name)
  frames _ becomes := becomes
  handling _ becomes := becomes
  worked _ _ _ becomes := becomes
  newCode _ becomes := becomes

end Namespace

namespace Engine

variable {e : Engine} {before : Namespace Value}

theorem becomes_handleFrame (becomes : before.Becomes e.names) (vitals : Vitals) (frame : ByteArray) :
    before.Becomes (e.handleFrame vitals frame).2.names := by
  unfold handleFrame
  cases Request.ofFrame frame with
  | error failure => exact becomes
  | ok request =>
    cases request with
    | execute code =>
      exact Machine.interpret_lasting (Namespace.lasting_becomes before) e.limits code (m := e.machine) becomes
    | inspect pattern => exact becomes
    | reset => exact becomes.apply .clear
    | status => exact becomes

theorem becomes_handleAll (becomes : before.Becomes e.names) (frames : List (Vitals × ByteArray)) :
    before.Becomes (Listener.handleAll e frames).2.names := by
  induction frames generalizing e with
  | nil => exact becomes
  | cons frame rest ih =>
    rw [Listener.handleAll_cons]
    exact ih (becomes_handleFrame becomes frame.1 frame.2)

/-- The visible names that match the pattern, in order. -/
def listed (e : Engine) (pattern : String) : List String :=
  e.names.names.filter fun a => Namespace.isVisible a && Describe.isMatch a pattern

/-- What is shown are the names that are listed, each with what it is bound to. -/
theorem inspect_bindings (once : e.names.names.Nodup) (pattern : String) :
    (e.inspect pattern).bindings =
      (e.listed pattern).filterMap fun a => (e.names.find? a).map (Describe.variable_ e.heap a) := by
  rw [listed, Namespace.filterMap_find? once]
  simp only [inspect, Namespace.visible, List.filter_filter, Bool.and_comm]

theorem inspect_names (e : Engine) (pattern : String) :
    (e.inspect pattern).bindings.map (·.name) = e.listed pattern := by
  simp only [inspect, Namespace.visible, List.filter_filter, Bool.and_comm, List.map_map, listed, Namespace.names,
    List.filter_map]
  rfl

theorem inspect_count (e : Engine) (pattern : String) :
    (e.inspect pattern).count.toNat = (e.listed pattern).length % 2 ^ 64 := by
  rw [← inspect_names, List.length_map]
  exact UInt64.toNat_ofNat'

/-- Every name matches the empty pattern. -/
theorem status_count (e : Engine) (vitals : Vitals) : (e.status vitals).variableCount = (e.inspect "").count := by
  have all (entries : List (String × Value)) : entries.filter (fun entry => Describe.isMatch entry.1 "") = entries := by
    rw [List.filter_eq_self]
    exact fun _ _ => rfl
  simp only [inspect, status, all, List.length_map]

/-- A namespace that began empty is a map that keeps an order after any changes, and so is a list of names beside a
table of values: no name is listed twice or left out, and there are as many values as entries are listed. Whatever
requests an engine was sent, the bindings it has come from such changes; for every pattern it shows the visible names
that match, in order and each once, with what they are bound to, and their number, which is that of a status for the
empty pattern. -/
theorem inspect_in_order :
    (∀ (α : Type) (changes : List (Namespace.Change α)),
      let n := Namespace.empty.changed changes
      let t := Namespace.Table.empty.changed changes
      n.KeepsOrder ∧ t.Shows n ∧ t.entries = n.entries ∧ t.size = t.entries.length) ∧
    ∀ (limits : Limits) (clock : Clock) (frames : List (Vitals × ByteArray)),
      let e := (Listener.handleAll (start limits clock) frames).2
      Namespace.empty.Becomes e.names ∧ ∀ (pattern : String) (vitals : Vitals),
        (e.inspect pattern).bindings.map (·.name) = e.listed pattern ∧ (e.listed pattern).Nodup ∧
        (e.inspect pattern).bindings =
          (e.listed pattern).filterMap (fun a => (e.names.find? a).map (Describe.variable_ e.heap a)) ∧
        (e.inspect pattern).count.toNat = (e.listed pattern).length % 2 ^ 64 ∧
        (e.status vitals).variableCount = (e.inspect "").count := by
  constructor
  · intro α changes n t
    have shows : t.Shows n := Namespace.Table.Shows.empty.changed changes
    refine ⟨Namespace.keepsOrder shows.once, shows, shows.entries, ?_⟩
    rw [shows.entries, Namespace.Table.size, shows.size]
    exact List.length_map _
  · intro limits clock frames e
    have becomes : Namespace.empty.Becomes e.names := becomes_handleAll ⟨[], rfl⟩ frames
    have once : e.names.names.Nodup := by
      obtain ⟨changes, same⟩ := becomes
      rw [same]
      exact Namespace.nodup_changed Namespace.nodup_empty changes
    refine ⟨becomes, fun pattern vitals => ?_⟩
    exact ⟨e.inspect_names pattern, once.filter _, inspect_bindings once pattern, e.inspect_count pattern,
      e.status_count vitals⟩

end Engine

end SnippetKernel
