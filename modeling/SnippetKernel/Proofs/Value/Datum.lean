import SnippetKernel.Value.Repr

/-! Plain data: what can be written down as a literal. A value that is plain data may share its parts, but it
cannot contain itself, so there is one tree that it stands for. `repr` writes that tree. -/
namespace SnippetKernel

/-- `None`, truth values, integers and texts, in lists, tuples and dicts. -/
inductive Datum where
  | none
  | bool (b : Bool)
  | int (i : Int64)
  | str (text : String)
  | list (items : List Datum)
  | tuple (items : List Datum)
  | dict (entries : List (Datum × Datum))

namespace Datum

mutual

/-- How many containers are around the innermost datum. -/
def depth : Datum → Nat
  | none | bool _ | int _ | str _ => 0
  | list items | tuple items => depthOfAll items + 1
  | dict entries => depthOfEntries entries + 1

def depthOfAll : List Datum → Nat
  | [] => 0
  | d :: rest => max d.depth (depthOfAll rest)

def depthOfEntries : List (Datum × Datum) → Nat
  | [] => 0
  | (key, value) :: rest => max (max key.depth value.depth) (depthOfEntries rest)

end

mutual

/-- The integers in it. -/
def ints : Datum → List Int64
  | none | bool _ | str _ => []
  | int i => [i]
  | list items | tuple items => intsOfAll items
  | dict entries => intsOfEntries entries

def intsOfAll : List Datum → List Int64
  | [] => []
  | d :: rest => d.ints ++ intsOfAll rest

def intsOfEntries : List (Datum × Datum) → List Int64
  | [] => []
  | (key, value) :: rest => key.ints ++ value.ints ++ intsOfEntries rest

end

/-- What stands between items, before all but the first. -/
def comma (first : Bool) : List Char := if first then [] else [',', ' ']

mutual

/-- The datum, written down. -/
def chars : Datum → List Char
  | none => "None".toList
  | bool true => "True".toList
  | bool false => "False".toList
  | int i => (toString i.toInt).toList
  | str text => Text.quoteChars text.toList
  | list items => '[' :: (charsOfAll true items ++ [']'])
  | tuple items => '(' :: (charsOfAll true items ++ if items.length = 1 then [',', ')'] else [')'])
  | dict entries => '\x7b' :: (charsOfEntries true entries ++ ['\x7d'])

def charsOfAll (first : Bool) : List Datum → List Char
  | [] => []
  | d :: rest => comma first ++ d.chars ++ charsOfAll false rest

def charsOfEntries (first : Bool) : List (Datum × Datum) → List Char
  | [] => []
  | (key, value) :: rest => comma first ++ key.chars ++ [':', ' '] ++ value.chars ++ charsOfEntries false rest

end

/-- What holds of a container if it holds of what is in it, and of all else, holds of every datum. -/
theorem induct {motive : Datum → Prop} (none : motive .none) (bool : ∀ b, motive (.bool b))
    (int : ∀ i, motive (.int i)) (str : ∀ text, motive (.str text))
    (list : ∀ items, (∀ d ∈ items, motive d) → motive (.list items))
    (tuple : ∀ items, (∀ d ∈ items, motive d) → motive (.tuple items))
    (dict : ∀ entries, (∀ entry ∈ entries, motive entry.1 ∧ motive entry.2) → motive (.dict entries))
    (d : Datum) : motive d := by
  induction size : sizeOf d using Nat.strongRecOn generalizing d with
  | ind n ih =>
    subst size
    cases d with
    | none => exact none
    | bool b => exact bool b
    | int i => exact int i
    | str text => exact str text
    | list items =>
      refine list items fun d mem => ih _ ?_ d rfl
      have := List.sizeOf_lt_of_mem mem
      simp only [Datum.list.sizeOf_spec]
      omega
    | tuple items =>
      refine tuple items fun d mem => ih _ ?_ d rfl
      have := List.sizeOf_lt_of_mem mem
      simp only [Datum.tuple.sizeOf_spec]
      omega
    | dict entries =>
      refine dict entries fun (key, value) mem => ?_
      have := List.sizeOf_lt_of_mem mem
      simp only [Prod.mk.sizeOf_spec] at this
      exact ⟨ih _ (by simp only [Datum.dict.sizeOf_spec]; omega) key rfl,
        ih _ (by simp only [Datum.dict.sizeOf_spec]; omega) value rfl⟩

variable {d : Datum} {items : List Datum} {entries : List (Datum × Datum)} {entry : Datum × Datum}

theorem depth_le_of_mem (mem : d ∈ items) : d.depth ≤ depthOfAll items := by
  induction mem with
  | head => exact Nat.le_max_left _ _
  | tail _ _ ih => exact Nat.le_trans ih (Nat.le_max_right _ _)

theorem depth_le_of_mem_entries (mem : entry ∈ entries) :
    entry.1.depth ≤ depthOfEntries entries ∧ entry.2.depth ≤ depthOfEntries entries := by
  induction mem with
  | head => exact ⟨by rw [depthOfEntries]; omega, by rw [depthOfEntries]; omega⟩
  | tail _ _ ih => exact ih.imp (Nat.le_trans · (Nat.le_max_right _ _)) (Nat.le_trans · (Nat.le_max_right _ _))

theorem ints_subset_of_mem (mem : d ∈ items) : d.ints ⊆ intsOfAll items := by
  induction mem with
  | head => exact List.subset_append_left _ _
  | tail _ _ ih => exact List.Subset.trans ih (List.subset_append_right _ _)

theorem ints_subset_of_mem_entries (mem : entry ∈ entries) :
    entry.1.ints ⊆ intsOfEntries entries ∧ entry.2.ints ⊆ intsOfEntries entries := by
  induction mem with
  | head => exact ⟨by simp [intsOfEntries], by simp [intsOfEntries]⟩
  | tail _ _ ih =>
    exact ih.imp (List.Subset.trans · (List.subset_append_right _ _))
      (List.Subset.trans · (List.subset_append_right _ _))

end Datum

/-- All of the values can be keys of one dict. -/
def DistinctKeys (keys : List Value) : Prop := ∃ ks : List Key, keys.map Value.key = ks.map Except.ok ∧ ks.Nodup

mutual

/-- In these cells the value stands for the datum. -/
inductive Stands (h : Cells) : Value → Datum → Prop
  | none : Stands h .none .none
  | bool (b : Bool) : Stands h (.bool b) (.bool b)
  | int (i : Int64) : Stands h (.int i) (.int i)
  | str (text : String) : Stands h (.str text) (.str text)
  | list {ref : Nat} {items : List Datum} (inside : ref < h.lists.size)
    (all : StandAll h (h.list ref).toList items) : Stands h (.list ref) (.list items)
  | tuple {id : Nat} {vs : List Value} {items : List Datum} (all : StandAll h vs items) :
    Stands h (.tuple id vs) (.tuple items)
  | dict {ref : Nat} {entries : List (Datum × Datum)} (inside : ref < h.dicts.size)
    (keyed : DistinctKeys (h.dict ref).keys) (all : StandEntries h (h.dict ref).toList entries) :
    Stands h (.dict ref) (.dict entries)

inductive StandAll (h : Cells) : List Value → List Datum → Prop
  | nil : StandAll h [] []
  | cons {v : Value} {d : Datum} {vs : List Value} {ds : List Datum} (first : Stands h v d)
    (rest : StandAll h vs ds) : StandAll h (v :: vs) (d :: ds)

inductive StandEntries (h : Cells) : List (Value × Value) → List (Datum × Datum) → Prop
  | nil : StandEntries h [] []
  | cons {key value : Value} {key' value' : Datum} {vs : List (Value × Value)} {ds : List (Datum × Datum)}
    (key_stands : Stands h key key') (value_stands : Stands h value value') (rest : StandEntries h vs ds) :
    StandEntries h ((key, value) :: vs) ((key', value') :: ds)

end

variable {h : Cells}

mutual

/-- A value stands for one datum at most. -/
theorem Stands.unique {v : Value} {d e : Datum} (first : Stands h v d) (second : Stands h v e) : d = e := by
  match first, second with
  | .none, .none => rfl
  | .bool _, .bool _ => rfl
  | .int _, .int _ => rfl
  | .str _, .str _ => rfl
  | .list _ all, .list _ all' => rw [all.unique all']
  | .tuple all, .tuple all' => rw [all.unique all']
  | .dict _ _ all, .dict _ _ all' => rw [all.unique all']

theorem StandAll.unique {vs : List Value} {ds es : List Datum} (first : StandAll h vs ds)
    (second : StandAll h vs es) : ds = es := by
  match first, second with
  | .nil, .nil => rfl
  | .cons first rest, .cons first' rest' => rw [first.unique first', rest.unique rest']

theorem StandEntries.unique {vs : List (Value × Value)} {ds es : List (Datum × Datum)}
    (first : StandEntries h vs ds) (second : StandEntries h vs es) : ds = es := by
  match first, second with
  | .nil, .nil => rfl
  | .cons key value rest, .cons key' value' rest' =>
    rw [key.unique key', value.unique value', rest.unique rest']

end

/-! ### Writing -/

def Container.value : Container → Value
  | .list ref => .list ref
  | .dict ref => .dict ref

/-- Every open container stands for a datum that is deeper than `depth`. -/
def OpenAround (h : Cells) (depth : Nat) (around : List Container) : Prop :=
  ∀ c ∈ around, ∃ e, Stands h c.value e ∧ depth < e.depth

theorem OpenAround.mono {depth depth' : Nat} {around : List Container} (apart : OpenAround h depth around)
    (le : depth' ≤ depth) : OpenAround h depth' around := by
  intro c mem
  obtain ⟨e, stands, lt⟩ := apart c mem
  exact ⟨e, stands, Nat.lt_of_le_of_lt le lt⟩

/-- What stands for a datum that is not deeper is not open. -/
theorem OpenAround.not_mem {d : Datum} {around : List Container} (apart : OpenAround h d.depth around)
    {c : Container} (stands : Stands h c.value d) : around.contains c = false := by
  rw [List.contains_eq_mem, decide_eq_false_iff_not]
  intro mem
  obtain ⟨e, stands', lt⟩ := apart c mem
  rw [stands.unique stands'] at lt
  exact Nat.lt_irrefl _ lt

theorem OpenAround.cons {d : Datum} {around : List Container} (apart : OpenAround h d.depth around)
    {c : Container} (stands : Stands h c.value d) {depth : Nat} (lt : depth < d.depth) :
    OpenAround h depth (c :: around) :=
  List.forall_mem_cons.2 ⟨⟨d, stands, lt⟩, apart.mono (Nat.le_of_lt lt)⟩

theorem StandAll.length {vs : List Value} {ds : List Datum} (all : StandAll h vs ds) :
    vs.length = ds.length := by
  match all with
  | .nil => rfl
  | .cons _ rest => exact congrArg (· + 1) rest.length

/-- The text of a value that holds no others. -/
theorem write_scalar {v : Value} (scalar : ∀ ref id items, v ≠ .list ref ∧ v ≠ .dict ref ∧ v ≠ .tuple id items)
    (room : Nat) (around : List Container) (text : String) :
    v.write h Option.none room around text = text ++ v.scalarText := by
  unfold Value.write
  rw [if_neg (by simp [Value.overfull])]
  cases v with
  | list ref => exact absurd rfl (scalar ref 0 []).1
  | dict ref => exact absurd rfl (scalar ref 0 []).2.1
  | tuple id items => exact absurd rfl (scalar 0 id items).2.2
  | _ => cases room <;> rfl

mutual

/-- A value is written as the datum that it stands for. -/
theorem Stands.write {v : Value} {d : Datum} (stands : Stands h v d) {room : Nat} (fits : d.depth ≤ room)
    {around : List Container} (apart : OpenAround h d.depth around) (text : String) :
    (v.write h Option.none room around text).toList = text.toList ++ d.chars := by
  match stands with
  | .none =>
    have written : Value.none.write h Option.none room around text = text ++ "None" :=
      write_scalar (by simp) room around text
    rw [written, String.toList_append, Datum.chars]
  | .bool true =>
    have written : (Value.bool true).write h Option.none room around text = text ++ "True" :=
      write_scalar (by simp) room around text
    rw [written, String.toList_append, Datum.chars]
  | .bool false =>
    have written : (Value.bool false).write h Option.none room around text = text ++ "False" :=
      write_scalar (by simp) room around text
    rw [written, String.toList_append, Datum.chars]
  | .int i =>
    have written : (Value.int i).write h Option.none room around text = text ++ toString i.toInt :=
      write_scalar (by simp) room around text
    rw [written, String.toList_append, Datum.chars]
  | .str t =>
    have written : (Value.str t).write h Option.none room around text = text ++ Text.quoted t :=
      write_scalar (by simp) room around text
    rw [written, String.toList_append, Datum.chars, Text.quoted, String.toList_ofList]
  | @Stands.list _ ref items inside all =>
    rw [Datum.depth] at fits
    obtain ⟨room, rfl⟩ := Nat.exists_eq_succ_of_ne_zero (Nat.ne_zero_of_lt fits)
    have whole : Stands h (Container.list ref).value (.list items) := .list inside all
    have closed := apart.not_mem whole
    have inner := all.write (Nat.le_of_succ_le_succ fits) (apart.cons whole (Nat.lt_succ_self _)) true
      (text.push '[')
    rw [Value.write, if_neg (by simp [Value.overfull])]
    simp only [closed, Bool.false_eq_true, if_false, String.toList_append, inner, String.toList_push, Datum.chars]
    simp
  | @Stands.tuple _ _ vs items all =>
    rw [Datum.depth] at fits
    obtain ⟨room, rfl⟩ := Nat.exists_eq_succ_of_ne_zero (Nat.ne_zero_of_lt fits)
    have inner := all.write (Nat.le_of_succ_le_succ fits) (apart.mono (Nat.le_succ _)) true (text.push '(')
    rw [Value.write, if_neg (by simp [Value.overfull])]
    simp only [String.toList_append, inner, String.toList_push, Datum.chars, all.length]
    split <;> simp
  | @Stands.dict _ ref entries inside keyed all =>
    rw [Datum.depth] at fits
    obtain ⟨room, rfl⟩ := Nat.exists_eq_succ_of_ne_zero (Nat.ne_zero_of_lt fits)
    have whole : Stands h (Container.dict ref).value (.dict entries) := .dict inside keyed all
    have closed := apart.not_mem whole
    have inner := all.write (Nat.le_of_succ_le_succ fits) (apart.cons whole (Nat.lt_succ_self _)) true
      (text.push '\x7b')
    rw [Value.write, if_neg (by simp [Value.overfull])]
    simp only [closed, Bool.false_eq_true, if_false, String.toList_append, inner, String.toList_push, Datum.chars]
    simp

theorem StandAll.write {vs : List Value} {ds : List Datum} (all : StandAll h vs ds) {room : Nat}
    (fits : Datum.depthOfAll ds ≤ room) {around : List Container}
    (apart : OpenAround h (Datum.depthOfAll ds) around) (first : Bool) (text : String) :
    (Value.writeItems (Value.write h Option.none room around) Option.none first text vs).toList =
      text.toList ++ Datum.charsOfAll first ds := by
  match all with
  | .nil => rw [Value.writeItems, Datum.charsOfAll, List.append_nil]
  | .cons one rest =>
    have one' := one.write (Nat.le_trans (Nat.le_max_left _ _) fits) (apart.mono (Nat.le_max_left _ _))
    have rest' := rest.write (Nat.le_trans (Nat.le_max_right _ _) fits) (apart.mono (Nat.le_max_right _ _)) false
    rw [Value.writeItems, if_neg (by simp [Value.overfull]), rest', one', Datum.charsOfAll]
    cases first <;> simp [Datum.comma]

theorem StandEntries.write {vs : List (Value × Value)} {ds : List (Datum × Datum)}
    (all : StandEntries h vs ds) {room : Nat} (fits : Datum.depthOfEntries ds ≤ room)
    {around : List Container} (apart : OpenAround h (Datum.depthOfEntries ds) around) (first : Bool)
    (text : String) :
    (Value.writeEntries (Value.write h Option.none room around) Option.none first text vs).toList =
      text.toList ++ Datum.charsOfEntries first ds := by
  match all with
  | .nil => rw [Value.writeEntries, Datum.charsOfEntries, List.append_nil]
  | .cons key value rest =>
    rw [Datum.depthOfEntries, Nat.max_le, Nat.max_le] at fits
    rw [Datum.depthOfEntries] at apart
    have key' := key.write fits.1.1 (apart.mono (by omega))
    have value' := value.write fits.1.2 (apart.mono (by omega))
    have rest' := rest.write fits.2 (apart.mono (by omega)) false
    rw [Value.writeEntries, if_neg (by simp [Value.overfull])]
    simp only [rest', value', key', String.toList_append, Datum.charsOfEntries]
    cases first <;> simp [Datum.comma]

end

/-- The text of a value that is not too deep is the datum, written down. -/
theorem Stands.repr {v : Value} {d : Datum} (stands : Stands h v d) (fits : d.depth ≤ Value.maxOpen) :
    v.repr h = String.ofList d.chars := by
  have written := stands.write fits (List.forall_mem_nil _) ""
  rw [String.toList_empty, List.nil_append] at written
  rw [Value.repr, ← written, String.ofList_toList]

end SnippetKernel
