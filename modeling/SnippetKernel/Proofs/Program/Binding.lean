import SnippetKernel.Proofs.Program.Codes
import SnippetKernel.Proofs.Program.Data
import SnippetKernel.Proofs.Program.Restoring
import SnippetKernel.Proofs.Source.Formed

/-! The arguments of calls. A call of a function gives each parameter one value: that of an argument, that of a keyword,
or the default that was evaluated when the function was defined. Where it cannot, nothing of the function runs. -/
namespace SnippetKernel

open Source

namespace Call

/-! ### Slots -/

section

variable {code : Code} {slots : Array (Option Value)}

/-- The parameter of that name has no value yet. -/
def Unfilled (params : List Param) (slots : Array (Option Value)) (key : String) : Prop :=
  ∃ (i : Nat) (p : Param), params[i]? = some p ∧ p.name = key ∧ slots[i]? = some none

/-- What stands in a slot. -/
def held (slots : Array (Option Value)) (i : Nat) : Option Value := slots[i]?.join

theorem index_of_name {params : List Param} (distinct : (params.map (·.name)).Nodup) {i j : Nat} {p q : Param}
    (first : params[i]? = some p) (second : params[j]? = some q) (same : p.name = q.name) : i = j := by
  have inside : i < (params.map (·.name)).length := by
    rw [List.length_map]
    exact (List.getElem?_eq_some_iff.1 first).1
  refine (List.getElem?_inj inside distinct).1 ?_
  simp only [List.getElem?_map, first, second, Option.map_some, same]

theorem findIdx?_name {params : List Param} (distinct : (params.map (·.name)).Nodup) {i : Nat} {p : Param}
    (at_i : params[i]? = some p) : params.findIdx? (·.name == p.name) = some i := by
  cases found : params.findIdx? (·.name == p.name) with
  | none =>
    rw [List.findIdx?_eq_none_iff] at found
    simpa using found p (List.mem_of_getElem? at_i)
  | some j =>
    obtain ⟨inside, same, -⟩ := List.findIdx?_eq_some_iff_getElem.1 found
    rw [index_of_name distinct at_i (List.getElem?_eq_getElem inside) (beq_iff_eq.1 same).symm]

theorem fillSlot_unfilled (distinct : (code.params.map (·.name)).Nodup) {i : Nat} {p : Param}
    (at_i : code.params[i]? = some p) (unfilled : slots[i]? = some none) (v : Value) :
    fillSlot code slots p.name v = .ok (slots.setIfInBounds i (some v)) := by
  unfold fillSlot
  rw [findIdx?_name distinct at_i]
  simp only [unfilled]

theorem fillSlot_refused {key : String} (refused : ¬Unfilled code.params slots key) (v : Value) :
    ∃ message, fillSlot code slots key v = .error (.typeError message) := by
  unfold fillSlot
  split
  · exact ⟨_, rfl⟩
  · rename_i i found
    obtain ⟨inside, same, -⟩ := List.findIdx?_eq_some_iff_getElem.1 found
    split
    · rename_i unfilled
      exact absurd ⟨i, _, List.getElem?_eq_getElem inside, beq_iff_eq.1 same, unfilled⟩ refused
    · exact ⟨_, rfl⟩

theorem held_set {i : Nat} (inside : i < slots.size) (v : Value) (j : Nat) :
    held (slots.setIfInBounds i (some v)) j = if i = j then some v else held slots j := by
  unfold held
  rw [Array.getElem?_setIfInBounds]
  split
  · simp
  · rfl

theorem Unfilled.of_set {params : List Param} {key : String} {i : Nat} {v : Value}
    (unfilled : Unfilled params (slots.setIfInBounds i (some v)) key) : Unfilled params slots key := by
  obtain ⟨j, p, at_j, named, empty⟩ := unfilled
  refine ⟨j, p, at_j, named, ?_⟩
  rw [Array.getElem?_setIfInBounds] at empty
  split at empty
  · split at empty <;> cases empty
  · exact empty

/-- The keywords fill the slots of the parameters that they name. -/
theorem fillSlots_unfilled (distinct : (code.params.map (·.name)).Nodup) {keywords : Keywords}
    (once : (keywords.map (·.1)).Nodup) (unfilled : ∀ keyword ∈ keywords, Unfilled code.params slots keyword.1) :
    ∃ filled, fillSlots code slots keywords = .ok filled ∧ filled.size = slots.size ∧
      ∀ i p, code.params[i]? = some p → held filled i = (held slots i).or (keywords.lookup p.name) := by
  induction keywords generalizing slots with
  | nil => exact ⟨slots, rfl, rfl, fun i p _ => (Option.or_none).symm⟩
  | cons keyword rest ih =>
    obtain ⟨key, v⟩ := keyword
    rw [List.forall_mem_cons] at unfilled
    rw [List.map_cons, List.nodup_cons] at once
    obtain ⟨⟨i, p, at_i, rfl, empty⟩, others⟩ := unfilled
    have inside : i < slots.size := (Array.getElem?_eq_some_iff.1 empty).1
    -- the other keywords have other names, so their slots are still empty
    have still : ∀ keyword ∈ rest, Unfilled code.params (slots.setIfInBounds i (some v)) keyword.1 := by
      intro keyword mem
      obtain ⟨j, q, at_j, named, empty'⟩ := others keyword mem
      refine ⟨j, q, at_j, named, ?_⟩
      rw [Array.getElem?_setIfInBounds_ne, empty']
      rintro rfl
      obtain rfl := Option.some.inj (at_i.symm.trans at_j)
      exact once.1 (List.mem_map.2 ⟨keyword, mem, named.symm⟩)
    obtain ⟨filled, done, size, values⟩ := ih once.2 still
    refine ⟨filled, ?_, size.trans Array.size_setIfInBounds, ?_⟩
    · rw [fillSlots, fillSlot_unfilled distinct at_i empty]
      exact done
    · intro j q at_j
      rw [values j q at_j, held_set inside]
      by_cases same : i = j
      · subst same
        obtain rfl := Option.some.inj (at_i.symm.trans at_j)
        simp [held, empty]
      · have other : q.name ≠ p.name := fun eq => same (index_of_name distinct at_i at_j eq.symm)
        simp [same, List.lookup_cons, beq_eq_false_iff_ne.2 other]

/-- A keyword that names no parameter, or one that has a value, is refused. -/
theorem fillSlots_refused (distinct : (code.params.map (·.name)).Nodup) {keywords : Keywords}
    (refused : ¬∀ keyword ∈ keywords, Unfilled code.params slots keyword.1) :
    ∃ message, fillSlots code slots keywords = .error (.typeError message) := by
  induction keywords generalizing slots with
  | nil => exact absurd (List.forall_mem_nil _) refused
  | cons keyword rest ih =>
    obtain ⟨key, v⟩ := keyword
    by_cases unfilled : Unfilled code.params slots key
    · obtain ⟨i, p, at_i, rfl, empty⟩ := unfilled
      have later : ¬∀ keyword ∈ rest, Unfilled code.params (slots.setIfInBounds i (some v)) keyword.1 :=
        fun all => refused (List.forall_mem_cons.2
          ⟨⟨i, p, at_i, rfl, empty⟩, fun keyword mem => (all keyword mem).of_set⟩)
      obtain ⟨message, failed⟩ := ih later
      refine ⟨message, ?_⟩
      rw [fillSlots, fillSlot_unfilled distinct at_i empty]
      exact failed
    · obtain ⟨message, failed⟩ := fillSlot_refused unfilled v
      refine ⟨message, ?_⟩
      rw [fillSlots, failed]
      rfl

end

/-! ### Values of parameters -/

theorem settle_complete {params : List Param} {slots defaults : List (Option Value)}
    (slots_all : slots.length = params.length) (defaults_all : defaults.length = params.length)
    (complete : ∀ i < params.length, (slots[i]?.join.or defaults[i]?.join).isSome) :
    ∃ values : List Value, values.length = params.length ∧
      settle params slots defaults = (⟨(params.map (·.name)).zip values⟩, []) ∧
      ∀ i < params.length, values[i]? = slots[i]?.join.or defaults[i]?.join := by
  induction params generalizing slots defaults with
  | nil => exact ⟨[], rfl, rfl, nofun⟩
  | cons p params ih =>
    obtain ⟨slot, slots, rfl⟩ := List.exists_cons_of_length_eq_add_one slots_all
    obtain ⟨default, defaults, rfl⟩ := List.exists_cons_of_length_eq_add_one defaults_all
    obtain ⟨v, here⟩ := Option.isSome_iff_exists.1 (complete 0 (Nat.zero_lt_succ _))
    simp only [List.length_cons, Nat.add_right_cancel_iff] at slots_all defaults_all
    obtain ⟨values, length, settled, each⟩ := ih slots_all defaults_all fun i inside =>
      complete (i + 1) (Nat.succ_lt_succ inside)
    have first : slot.or default = some v := here
    refine ⟨v :: values, congrArg (· + 1) length, ?_, ?_⟩
    · simp only [settle, settled, first, List.map_cons, List.zip_cons_cons]
    · intro i inside
      cases i with
      | zero => exact here.symm
      | succ i => exact each i (Nat.lt_of_succ_lt_succ inside)

theorem settle_incomplete {params : List Param} {slots defaults : List (Option Value)}
    (slots_all : slots.length = params.length) (defaults_all : defaults.length = params.length) {i : Nat}
    (inside : i < params.length) (lacks : slots[i]?.join.or defaults[i]?.join = none) :
    ∃ locals name missing, settle params slots defaults = (locals, name :: missing) := by
  induction params generalizing slots defaults i with
  | nil => cases inside
  | cons p params ih =>
    obtain ⟨slot, slots, rfl⟩ := List.exists_cons_of_length_eq_add_one slots_all
    obtain ⟨default, defaults, rfl⟩ := List.exists_cons_of_length_eq_add_one defaults_all
    simp only [settle]
    cases i with
    | zero =>
      have first : slot.or default = none := lacks
      rw [first]
      exact ⟨_, _, _, rfl⟩
    | succ i =>
      simp only [List.length_cons, Nat.add_right_cancel_iff] at slots_all defaults_all
      obtain ⟨locals, name, missing, later⟩ := ih slots_all defaults_all (Nat.lt_of_succ_lt_succ inside) lacks
      rw [later]
      cases slot.or default with
      | some v => exact ⟨_, _, _, rfl⟩
      | none => exact ⟨_, _, _, rfl⟩

/-! ### Arguments of a call -/

/-- The arguments of a call can be bound: there are not too many, each keyword names a parameter after those that they
are for, and each of the others there has a default. -/
structure Bindable (params : List Param) (given : Nat) (keywords : Keywords) : Prop where
  few : given ≤ params.length
  named : ∀ keyword ∈ keywords, ∃ p ∈ params.drop given, p.name = keyword.1
  complete : ∀ p ∈ params.drop given, p.name ∉ keywords.map (·.1) → p.default.isSome

/-- The names of a call are the parameters, and each is bound to its argument, its keyword's value or its default. -/
structure Bound (params : List Param) (defaults : List (Option Value)) (args : List Value) (keywords : Keywords)
    (locals : Namespace Value) : Prop where
  names : locals.names = params.map (·.name)
  positional : ∀ (i : Nat) p v, params[i]? = some p → args[i]? = some v → locals.find? p.name = some v
  named : ∀ p ∈ params, ∀ v, (p.name, v) ∈ keywords → locals.find? p.name = some v
  default : ∀ (i : Nat) p, params[i]? = some p → args.length ≤ i → p.name ∉ keywords.map (·.1) →
    ∃ v, defaults[i]? = some (some v) ∧ locals.find? p.name = some v

/-- The parameters that have a default are those that have one in the list. -/
def DefaultsFor (params : List Param) (defaults : List (Option Value)) : Prop :=
  defaults.map (·.isSome) = params.map (·.default.isSome)

theorem DefaultsFor.length {params : List Param} {defaults : List (Option Value)} (fits : DefaultsFor params defaults) :
    defaults.length = params.length := by
  simpa using congrArg List.length fits

theorem DefaultsFor.isSome {params : List Param} {defaults : List (Option Value)} (fits : DefaultsFor params defaults)
    {i : Nat} {p : Param} (at_i : params[i]? = some p) : defaults[i]?.join.isSome = p.default.isSome := by
  have here : (defaults.map (·.isSome))[i]? = (params.map (·.default.isSome))[i]? := by rw [fits]
  rw [List.getElem?_map, List.getElem?_map, at_i] at here
  obtain ⟨d, found, same⟩ := Option.map_eq_some_iff.1 here
  rw [found]
  exact same

section

variable {code : Code} {args : List Value} {keywords : Keywords}

/-- The slots before the keywords are looked at. -/
def firstSlots (params : List Param) (args : List Value) : Array (Option Value) :=
  (args.map some).toArray ++ Array.replicate (params.length - args.length) none

theorem size_firstSlots {params : List Param} (few : args.length ≤ params.length) :
    (firstSlots params args).size = params.length := by
  simp only [firstSlots, Array.size_append, List.size_toArray, List.length_map, Array.size_replicate]
  omega

theorem getElem?_firstSlots {params : List Param} {i : Nat} (inside : i < params.length) :
    (firstSlots params args)[i]? = some args[i]? := by
  unfold firstSlots
  rw [Array.getElem?_append]
  simp only [List.size_toArray, List.length_map]
  by_cases given : i < args.length
  · simp [given]
  · have inside : i - args.length < params.length - args.length := by omega
    simp [given, inside]

theorem index_drop {params : List Param} {p : Param} {given : Nat} (mem : p ∈ params.drop given) :
    ∃ i, given ≤ i ∧ params[i]? = some p := by
  obtain ⟨i, at_i⟩ := List.getElem?_of_mem mem
  rw [List.getElem?_drop] at at_i
  exact ⟨given + i, Nat.le_add_right _ _, at_i⟩

theorem mem_drop {params : List Param} {p : Param} {given i : Nat} (after : given ≤ i) (at_i : params[i]? = some p) :
    p ∈ params.drop given := by
  apply List.mem_of_getElem? (i := i - given)
  rw [List.getElem?_drop, Nat.add_sub_cancel' after, at_i]

theorem unfilled_firstSlots {params : List Param} {key : String} :
    Unfilled params (firstSlots params args) key ↔ ∃ p ∈ params.drop args.length, p.name = key := by
  constructor
  · rintro ⟨i, p, at_i, named, empty⟩
    rw [getElem?_firstSlots (List.getElem?_eq_some_iff.1 at_i).1, Option.some_inj, List.getElem?_eq_none_iff] at empty
    exact ⟨p, mem_drop empty at_i, named⟩
  · rintro ⟨p, mem, named⟩
    obtain ⟨i, after, at_i⟩ := index_drop mem
    refine ⟨i, p, at_i, named, ?_⟩
    rw [getElem?_firstSlots (List.getElem?_eq_some_iff.1 at_i).1, List.getElem?_eq_none after]

/-- Where the value of a parameter comes from: an argument, a keyword, a default. -/
def source (defaults : List (Option Value)) (args : List Value) (keywords : Keywords) (i : Nat) (p : Param) :
    Option Value :=
  (args[i]?.or (keywords.lookup p.name)).or defaults[i]?.join

variable {defaults : List (Option Value)}

/-- Every parameter has a value exactly if each that no argument and no keyword is for has a default. -/
theorem source_isSome (fits : DefaultsFor code.params defaults) :
    (∀ i p, code.params[i]? = some p → (source defaults args keywords i p).isSome) ↔
      ∀ p ∈ code.params.drop args.length, p.name ∉ keywords.map (·.1) → p.default.isSome := by
  constructor
  · intro all p mem unnamed
    obtain ⟨i, after, at_i⟩ := index_drop mem
    have here := all i p at_i
    rw [source, List.getElem?_eq_none after, Namespace.not_mem_iff_lookup.1 unnamed] at here
    exact (fits.isSome at_i).symm.trans here
  · intro complete i p at_i
    rw [source, Option.isSome_or, Option.isSome_or, fits.isSome at_i, Bool.or_eq_true, Bool.or_eq_true]
    by_cases given : i < args.length
    · simp [given]
    · cases by_name : keywords.lookup p.name with
      | some v => exact .inl (.inr rfl)
      | none => exact .inr (complete p (mem_drop (Nat.le_of_not_lt given) at_i) (Namespace.not_mem_iff_lookup.2 by_name))

theorem find?_zip {params : List Param} (distinct : (params.map (·.name)).Nodup) {values : List Value}
    (length : values.length = params.length) {i : Nat} {p : Param} (at_i : params[i]? = some p) {v : Value}
    (value : values[i]? = some v) : (⟨(params.map (·.name)).zip values⟩ : Namespace Value).find? p.name = some v := by
  have names : ((params.map (·.name)).zip values).map (·.1) = params.map (·.name) :=
    List.map_fst_zip (by rw [List.length_map, length])
  have once : (((params.map (·.name)).zip values).map (·.1)).Nodup := by rwa [names]
  apply Namespace.lookup_of_mem once
  apply List.mem_of_getElem? (i := i)
  rw [List.getElem?_zip_eq_some]
  exact ⟨by simp [at_i], value⟩

/-- Names that get their values where these come from are bound as they should be. -/
theorem bound_of_source (distinct : (code.params.map (·.name)).Nodup) (once : (keywords.map (·.1)).Nodup)
    (named : ∀ keyword ∈ keywords, ∃ p ∈ code.params.drop args.length, p.name = keyword.1) {values : List Value}
    (length : values.length = code.params.length)
    (each : ∀ i p, code.params[i]? = some p → values[i]? = source defaults args keywords i p) :
    Bound code.params defaults args keywords ⟨(code.params.map (·.name)).zip values⟩ where
  names := List.map_fst_zip (by rw [List.length_map, length])
  positional i p v at_i given := by
    apply find?_zip distinct length at_i
    rw [each i p at_i, source, given]
    rfl
  named p mem v keyword := by
    obtain ⟨i, at_i⟩ := List.getElem?_of_mem mem
    obtain ⟨q, mem_q, same⟩ := named _ keyword
    obtain ⟨j, after, at_j⟩ := index_drop mem_q
    obtain rfl := index_of_name distinct at_i at_j same.symm
    apply find?_zip distinct length at_i
    rw [each i p at_i, source, List.getElem?_eq_none after, Namespace.lookup_of_mem once keyword]
    rfl
  default i p at_i after unnamed := by
    have inside : i < values.length := length ▸ (List.getElem?_eq_some_iff.1 at_i).1
    have value := List.getElem?_eq_getElem inside
    refine ⟨_, ?_, find?_zip distinct length at_i value⟩
    rw [each i p at_i, source, List.getElem?_eq_none after, Namespace.not_mem_iff_lookup.1 unnamed] at value
    exact Option.join_eq_some_iff.1 value

/-- What is done once it is known that there are not too many arguments. -/
theorem bindArguments_few (few : args.length ≤ code.params.length) :
    bindArguments code defaults args keywords = (do
      let slots ← fillSlots code (firstSlots code.params args) keywords
      match settle code.params slots.toList defaults with
      | (locals, []) => return locals
      | (_, missing) =>
        throw (.typeError (code.name ++ "() missing " ++ toString missing.length
          ++ " required positional argument" ++ plural missing.length ++ ": " ++ listing missing))) := by
  unfold bindArguments
  simp only [Nat.not_lt.2 few, if_false]
  rfl

/-- Whether the arguments are bound, and how, once the keywords have been looked at. -/
theorem settle_filled (distinct : (code.params.map (·.name)).Nodup) (once : (keywords.map (·.1)).Nodup)
    (few : args.length ≤ code.params.length)
    (named : ∀ keyword ∈ keywords, ∃ p ∈ code.params.drop args.length, p.name = keyword.1) :
    ∃ filled, fillSlots code (firstSlots code.params args) keywords = .ok filled ∧
      filled.toList.length = code.params.length ∧
      ∀ i p, code.params[i]? = some p →
        filled.toList[i]?.join.or defaults[i]?.join = source defaults args keywords i p := by
  obtain ⟨filled, done, size, values⟩ := fillSlots_unfilled distinct once fun keyword mem =>
    unfilled_firstSlots.2 (named keyword mem)
  refine ⟨filled, done, Array.length_toList.trans (size.trans (size_firstSlots few)), fun i p at_i => ?_⟩
  have slot : filled[i]?.join = args[i]?.or (keywords.lookup p.name) := by
    refine (values i p at_i).trans ?_
    rw [held, getElem?_firstSlots (List.getElem?_eq_some_iff.1 at_i).1, Option.join_some]
  rw [Array.getElem?_toList, slot, source]

theorem bindArguments_bindable (distinct : (code.params.map (·.name)).Nodup) (once : (keywords.map (·.1)).Nodup)
    (fits : DefaultsFor code.params defaults) (bindable : Bindable code.params args.length keywords) :
    ∃ locals, bindArguments code defaults args keywords = .ok locals ∧
      Bound code.params defaults args keywords locals := by
  obtain ⟨few, named, complete⟩ := bindable
  obtain ⟨filled, done, slots_all, each⟩ := settle_filled distinct once few named
  have all (i : Nat) (inside : i < code.params.length) : (filled.toList[i]?.join.or defaults[i]?.join).isSome := by
    have at_i := List.getElem?_eq_getElem inside
    rw [each i _ at_i]
    exact (source_isSome fits).2 complete i _ at_i
  obtain ⟨values, length, settled, value⟩ := settle_complete slots_all fits.length all
  refine ⟨_, ?_, bound_of_source distinct once named length fun i p at_i => ?_⟩
  · rw [bindArguments_few few, done]
    simp only [settled, bind, Except.bind]
    rfl
  · rw [value i (List.getElem?_eq_some_iff.1 at_i).1, each i p at_i]

theorem bindArguments_refused (distinct : (code.params.map (·.name)).Nodup) (once : (keywords.map (·.1)).Nodup)
    (fits : DefaultsFor code.params defaults) (refused : ¬Bindable code.params args.length keywords) :
    ∃ message, bindArguments code defaults args keywords = .error (.typeError message) := by
  by_cases few : args.length ≤ code.params.length
  · rw [bindArguments_few few]
    by_cases named : ∀ keyword ∈ keywords, ∃ p ∈ code.params.drop args.length, p.name = keyword.1
    · obtain ⟨filled, done, slots_all, each⟩ := settle_filled distinct once few named
      obtain ⟨i, p, at_i, lacks⟩ : ∃ i p, code.params[i]? = some p ∧ source defaults args keywords i p = none := by
        by_contra none_lacks
        simp only [not_exists, not_and] at none_lacks
        refine refused ⟨few, named, (source_isSome fits).1 fun i p at_i => ?_⟩
        exact Option.isSome_iff_ne_none.2 (none_lacks i p at_i)
      obtain ⟨locals, name, missing, settled⟩ := settle_incomplete slots_all fits.length
        (List.getElem?_eq_some_iff.1 at_i).1 ((each i p at_i).trans lacks)
      rw [done]
      simp only [bind, Except.bind, settled]
      exact ⟨_, rfl⟩
    · simp only [← unfilled_firstSlots] at named
      obtain ⟨message, failed⟩ := fillSlots_refused distinct named
      refine ⟨message, ?_⟩
      rw [failed]
      rfl
  · unfold bindArguments
    simp only [Nat.lt_of_not_le few, if_true]
    exact ⟨_, rfl⟩

end

/-! ### Definitions and calls -/

/-- The defaults of a function are evaluated for the parameters that have one. -/
theorem defaultsFor_of_ok {call : ValueCaller} {params : List Param} {defaults : List (Option Value)} {m n : Machine}
    (evaluated : Exec.defaults call params m = .ok defaults n) : DefaultsFor params defaults := by
  induction params generalizing m defaults with
  | nil =>
    cases evaluated
    rfl
  | cons p params ih =>
    have whole {d : Option Value} {rest : List (Option Value)} (here : d.isSome = p.default.isSome)
        (later : DefaultsFor params rest) : DefaultsFor (p :: params) (d :: rest) := by
      simp only [DefaultsFor, List.map_cons, here]
      exact congrArg _ later
    cases given : p.default with
    | none =>
      simp only [Exec.defaults, given, pure_bind] at evaluated
      obtain ⟨rest, n', later, evaluated⟩ := Run.ok_of_bind evaluated
      cases evaluated
      exact whole (given ▸ rfl) (ih later)
    | some e =>
      simp only [Exec.defaults, given] at evaluated
      obtain ⟨d, m', first, evaluated⟩ := Run.ok_of_bind evaluated
      obtain ⟨v, m'', -, done⟩ := Run.ok_of_bind first
      obtain ⟨rest, n', later, evaluated⟩ := Run.ok_of_bind evaluated
      cases done
      cases evaluated
      exact whole (given ▸ rfl) (ih later)

end Call

/-- The value is a function of this code, with these defaults. -/
def Machine.Defines (m : Machine) (v : Value) (code : Code) (defaults : List (Option Value)) : Prop :=
  ∃ id ref, v = .function id code.name ref defaults ∧ m.heap.codes[ref]? = some code

namespace Machine

theorem binding?_bind (m : Machine) (name : String) (v : Value) : (m.bind name v).binding? name = some v := by
  obtain ⟨names, heap, _ | ⟨frame, outer⟩, handling, writes, clock⟩ := m
  · simp only [bind, binding?, localFrame?, Namespace.find?_set, if_true]
  · unfold bind
    simp only
    by_cases declared : frame.globals.contains name
    · simp only [declared, if_true, binding?, localFrame?, Namespace.find?_set]
    · simp only [declared, if_false, binding?, localFrame?, Namespace.find?_set, if_true, Bool.false_eq_true]

theorem Defines.code {m : Machine} {v : Value} {code : Code} {defaults : List (Option Value)}
    (defines : m.Defines v code defaults) :
    ∃ id ref, v = .function id code.name ref defaults ∧ m.heap.code ref = code := by
  obtain ⟨id, ref, rfl, there⟩ := defines
  refine ⟨id, ref, rfl, ?_⟩
  rw [Heap.code, there]
  rfl

end Machine

/-- A definition evaluates the defaults, and binds the name to a function that has them. -/
theorem Exec.define_ok {call : ValueCaller} {code : Code} {m n : Machine} (defined : define call code m = .ok () n) :
    ∃ f values m', defaults call code.params m = .ok values m' ∧ n.binding? code.name = some f ∧
      n.Defines f code values := by
  obtain ⟨values, m', evaluated, defined⟩ := Run.ok_of_bind defined
  obtain ⟨id, l, -, defined⟩ := Run.ok_of_bind defined
  cases defined
  refine ⟨_, values, m', evaluated, Machine.binding?_bind _ _ _, id, _, rfl, ?_⟩
  rw [Machine.heap_bind]
  exact Array.getElem?_push_size

namespace Call

/-- The body of a function runs, with these names bound. -/
def enter (turns room : Nat) (code : Code) (locals : Namespace Value) : Run Value := do
  let flow ← Run.inFrame ⟨code.name, locals, []⟩ (Exec.block ⟨value (function turns room), turns⟩ code.body)
  match flow with
  | .ret v => return v
  | _ => return .none

variable {code : Code} {defaults : List (Option Value)} {f : Value} {m : Machine} {args : List Value}
  {keywords : Keywords} {turns room : Nat}

/-- A call binds the arguments first. -/
theorem value_of_defines (defines : m.Defines f code defaults) :
    value (function turns (room + 1)) f args keywords m =
      (Run.ofWork (Work.ofExcept (bindArguments code defaults args keywords)) >>= enter turns room code) m := by
  obtain ⟨id, ref, rfl, rfl⟩ := defines.code
  rfl

theorem value_of_bound (defines : m.Defines f code defaults) {locals : Namespace Value}
    (bound : bindArguments code defaults args keywords = .ok locals) :
    value (function turns (room + 1)) f args keywords m = enter turns room code locals m := by
  rw [value_of_defines defines, bound]
  exact Run.bind_of_ok (Run.ofWork_ofExcept locals)

theorem value_of_refused (defines : m.Defines f code defaults) {message : String}
    (refused : bindArguments code defaults args keywords = .error (.typeError message)) :
    value (function turns (room + 1)) f args keywords m = .error (.fault (.raised .type message)) m := by
  rw [value_of_defines defines, refused]
  exact Run.bind_of_error (Run.ofWork_ofExcept_error _)

end Call

/-- A call of a function of a program binds its arguments exactly if there are not too many, each keyword names a
parameter after those that they are for, and each of the others there has a default. Then the body runs with the
parameters bound, to the arguments, the keywords' values, and the defaults that the definition evaluated; otherwise
nothing changes, and that is a `TypeError`. -/
theorem Call.arguments_bound {source : String} {body : List Stmt} {outer : List StmtKind} {code : Code}
    (read : parse source = .ok body) (within : Within body outer (.define code.name code.params code.body)) :
    ParamsFit code.params ∧ ∀ (call : ValueCaller) (m₀ m₁ : Machine), Exec.define call code m₀ = .ok () m₁ →
      ∃ f defaults n, Exec.defaults call code.params m₀ = .ok defaults n ∧ m₁.binding? code.name = some f ∧
        m₁.Defines f code defaults ∧ ∀ m : Machine, m.Defines f code defaults →
          (∀ limits more, ((Run.program limits more).leaves m).Defines f code defaults) ∧
          ∀ (args : List Value) (keywords : Keywords), (keywords.map (·.1)).Nodup →
            ((∃ locals, bindArguments code defaults args keywords = .ok locals) ↔
              Bindable code.params args.length keywords) ∧
            ∀ turns room : Nat,
              (Bindable code.params args.length keywords → ∃ locals, Bound code.params defaults args keywords locals ∧
                value (function turns (room + 1)) f args keywords m = enter turns room code locals m) ∧
              (¬Bindable code.params args.length keywords → ∃ message,
                value (function turns (room + 1)) f args keywords m = .error (.fault (.raised .type message)) m) := by
  have fit := within.paramsFit read
  refine ⟨fit, fun call m₀ m₁ defined => ?_⟩
  obtain ⟨f, defaults, n, evaluated, named, defines⟩ := Exec.define_ok defined
  have fits := defaultsFor_of_ok evaluated
  refine ⟨f, defaults, n, evaluated, named, defines, fun m defines => ⟨?stays, fun args keywords once => ?_⟩⟩
  case stays =>
    intro limits more
    obtain ⟨id, ref, same, there⟩ := defines
    exact ⟨id, ref, same, Run.program_codes limits more there⟩
  have binds := @bindArguments_bindable code args keywords defaults fit.distinct once fits
  have refuses := @bindArguments_refused code args keywords defaults fit.distinct once fits
  refine ⟨⟨?_, fun bindable => ?_⟩, fun turns room => ⟨fun bindable => ?_, fun refused => ?_⟩⟩
  · rintro ⟨locals, bound⟩
    by_contra refused
    obtain ⟨message, failed⟩ := refuses refused
    cases bound.symm.trans failed
  · obtain ⟨locals, done, -⟩ := binds bindable
    exact ⟨locals, done⟩
  · obtain ⟨locals, done, bound⟩ := binds bindable
    exact ⟨locals, bound, value_of_bound defines done⟩
  · obtain ⟨message, failed⟩ := refuses refused
    exact ⟨message, value_of_refused defines failed⟩

/-- `def f(a, b=1): return b`, called as `f(5)` and as `f(b=2)`. -/
theorem Call.arguments_bound_of_default :
    let code : Code := ⟨"f", [⟨"a", none⟩, ⟨"b", some (.literal (.int 1))⟩], [.mk 2 (.ret (some (.name "b")))]⟩
    ∃ m f, Exec.define (value (function 1 1)) code (.start .empty ⟨.empty, #[]⟩ ⟨⟨0⟩, ⟨0⟩⟩) = .ok () m ∧
      m.binding? "f" = some f ∧
      (∃ locals, Bound code.params [none, some (.int 1)] [.int 5] [] locals ∧
        value (function 1 1) f [.int 5] [] m = enter 1 0 code locals m) ∧
      ∃ message, value (function 1 1) f [] [("b", .int 2)] m = .error (.fault (.raised .type message)) m := by
  intro code
  have tokens : tokenize "def f(a, b=1):\n  return b" = .ok [⟨.name "def", 1⟩, ⟨.name "f", 1⟩, ⟨.symbol .openParen, 1⟩,
      ⟨.name "a", 1⟩, ⟨.symbol .comma, 1⟩, ⟨.name "b", 1⟩, ⟨.symbol .assign, 1⟩, ⟨.int 1, 1⟩, ⟨.symbol .closeParen, 1⟩,
      ⟨.symbol .colon, 1⟩, ⟨.newline, 1⟩, ⟨.indent, 2⟩, ⟨.name "return", 2⟩, ⟨.name "b", 2⟩, ⟨.newline, 2⟩, ⟨.dedent, 2⟩,
      ⟨.eof, 2⟩] := by decide +kernel
  have read : parse "def f(a, b=1):\n  return b" = .ok [.mk 1 (.define code.name code.params code.body)] := by
    rw [parse, tokens]
    cbv
  obtain ⟨-, calls⟩ := arguments_bound read (.here (List.mem_singleton_self _))
  obtain ⟨m, defined⟩ : ∃ m,
      Exec.define (value (function 1 1)) code (.start .empty ⟨.empty, #[]⟩ ⟨⟨0⟩, ⟨0⟩⟩) = .ok () m := ⟨_, rfl⟩
  obtain ⟨f, defaults, n, evaluated, named, defines, calls⟩ := calls (value (function 1 1)) _ _ defined
  obtain ⟨-, calls⟩ := calls m defines
  cases evaluated
  refine ⟨m, f, defined, named, ?_, ?_⟩
  · obtain ⟨-, calls⟩ := calls [.int 5] [] List.nodup_nil
    refine (calls 1 0).1 ⟨by decide, List.forall_mem_nil _, ?_⟩
    intro p mem _
    cases List.mem_singleton.1 mem
    rfl
  · obtain ⟨-, calls⟩ := calls [] [("b", .int 2)] (List.nodup_singleton _)
    refine (calls 1 0).2 fun bindable => ?_
    exact absurd (bindable.complete ⟨"a", none⟩ List.mem_cons_self (by decide)) Bool.false_ne_true

end SnippetKernel
