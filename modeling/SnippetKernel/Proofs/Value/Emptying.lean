import Mathlib.Data.Prod.Lex
import Mathlib.Logic.Relation
import Mathlib.Tactic.Tauto
import SnippetKernel.Proofs.Value.Region
import SnippetKernel.Value.Release

/-! Emptying all that can be reached. The walk keeps no account of the lists and dicts that it has seen: it empties them,
and an empty one leads nowhere. Whichever of the pending values is taken next, and whether or not a tuple, function or
method that was seen before is followed again, the walk comes to an end, and what it has emptied then is what could be
reached before it began. -/
namespace SnippetKernel

/-! ### The walk -/

/-- The cell that a list or dict is kept in. -/
def Value.cell? : Value → Option Cell
  | list ref => some (.list ref)
  | dict ref => some (.dict ref)
  | _ => Option.none

def Cell.value : Cell → Value
  | list ref => .list ref
  | dict ref => .dict ref

namespace Cells

/-- What a value leads to. -/
def referents (h : Cells) : Value → List Value
  | .list ref => h.contents (.list ref)
  | .dict ref => h.contents (.dict ref)
  | .tuple _ items => items
  | .function _ _ _ defaults => defaults.filterMap id
  | .listMethod ref _ => [.list ref]
  | .dictMethod ref _ => [.dict ref]
  | .tupleMethod id items _ => [.tuple id items]
  | .strMethod text _ => [.str text]
  | .streamMethod s _ => [.stream s]
  | _ => []

/-- The cells once a value was taken: a list or dict is empty then. -/
def emptied (h : Cells) (v : Value) : Cells :=
  match v.cell? with
  | some c => h.clearCell c
  | none => h

end Cells

/-- The cells, the values that are pending and those that were followed. -/
structure Walk where
  cells : Cells
  pending : List Value
  visited : List Value

/-- One of the pending values is taken. What is not in a cell may be left aside if it was followed before. -/
inductive Walk.Step : Walk → Walk → Prop where
  | follow {cells : Cells} {pending visited rest : List Value} {v : Value} (picked : pending.Perm (v :: rest)) :
    Step ⟨cells, pending, visited⟩ ⟨cells.emptied v, cells.referents v ++ rest, v :: visited⟩
  | skip {cells : Cells} {pending visited rest : List Value} {v : Value} (picked : pending.Perm (v :: rest))
    (seen : v ∈ visited) (still : v.cell? = none) :
    Step ⟨cells, pending, visited⟩ ⟨cells, rest, visited⟩

/-- What emptying is to come to: what can be reached is empty, and all else is as it was. -/
structure Cells.Released (h : Cells) (roots : List Value) (after : Cells) : Prop where
  lists : ∀ ref, h.Reachable (· ∈ roots) (.list ref) → after.list ref = #[]
  dicts : ∀ ref, h.Reachable (· ∈ roots) (.dict ref) → (after.dict ref).entries = #[]
  otherLists : ∀ ref, ¬ h.Reachable (· ∈ roots) (.list ref) → after.list ref = h.list ref
  otherDicts : ∀ ref, ¬ h.Reachable (· ∈ roots) (.dict ref) → after.dict ref = h.dict ref
  sizes : after.lists.size = h.lists.size ∧ after.dicts.size = h.dicts.size

variable {h cells : Cells} {roots pending visited rest : List Value} {v w : Value}

/-! ### The walk ends -/

/-- How large the values are together. -/
noncomputable def weight : List Value → Nat
  | [] => 0
  | v :: rest => sizeOf v + weight rest

theorem weight_cons (v : Value) (rest : List Value) : weight (v :: rest) = sizeOf v + weight rest := rfl

theorem weight_append (xs ys : List Value) : weight (xs ++ ys) = weight xs + weight ys := by
  induction xs with
  | nil => exact (Nat.zero_add _).symm
  | cons v xs ih => rw [List.cons_append, weight_cons, weight_cons, ih, Nat.add_assoc]

theorem weight_perm {xs ys : List Value} (same : xs.Perm ys) : weight xs = weight ys := by
  induction same with
  | nil => rfl
  | cons v _ ih => rw [weight_cons, weight_cons, ih]
  | swap v w rest => exact Nat.add_left_comm _ _ _
  | trans _ _ first second => exact first.trans second

theorem weight_items (items : List Value) : weight items < sizeOf items := by
  induction items with
  | nil => simp [weight]
  | cons v rest ih =>
    rw [weight_cons, List.cons.sizeOf_spec]
    omega

theorem weight_defaults (defaults : List (Option Value)) : weight (defaults.filterMap id) < sizeOf defaults := by
  induction defaults with
  | nil => simp [weight]
  | cons v? rest ih =>
    rw [List.cons.sizeOf_spec]
    cases v? with
    | none =>
      rw [List.filterMap_cons_none rfl]
      omega
    | some v =>
      rw [List.filterMap_cons_some (f := id) (a := some v) rfl, weight_cons, Option.some.sizeOf_spec]
      omega

theorem Value.sizeOf_pos (v : Value) : 0 < sizeOf v := by
  refine Nat.pos_of_ne_zero ?_
  cases v <;> simp

namespace Cells

/-- What is in no cell is larger than all that it leads to. -/
theorem weight_referents (h : Cells) (still : v.cell? = none) : weight (h.referents v) < sizeOf v := by
  cases v with
  | list ref => simp [Value.cell?] at still
  | dict ref => simp [Value.cell?] at still
  | tuple id items =>
    have parts := weight_items items
    rw [Value.tuple.sizeOf_spec]
    exact Nat.lt_add_left _ parts
  | function id name code defaults =>
    have parts := weight_defaults defaults
    rw [Value.function.sizeOf_spec]
    exact Nat.lt_add_left _ parts
  | listMethod ref m => cases m <;> simp [referents, weight]
  | dictMethod ref m => cases m <;> simp [referents, weight]
  | tupleMethod id items m => cases m <;> simp [referents, weight]
  | strMethod text m => cases m <;> simp [referents, weight]
  | streamMethod s m => cases m <;> simp [referents, weight]
  | _ => exact Value.sizeOf_pos _

theorem filled_clearCell_of_empty (h : Cells) (c : Cell) (empty : h.isEmptyCell c) :
    (h.clearCell c).filled = h.filled := by
  cases c with
  | list ref =>
    by_cases inside : ref < h.lists.size
    · have counted : (h.lists[ref]).isEmpty := by simpa [isEmptyCell, list, inside] using empty
      simp only [clearCell, setList, filled, Array.setIfInBounds, inside, dite_true]
      rw [Array.countP_set, counted]
      simp
    · simp only [clearCell, setList, filled, Array.setIfInBounds, inside, dite_false]
  | dict ref =>
    by_cases inside : ref < h.dicts.size
    · have counted : (h.dicts[ref]).entries.isEmpty := by simpa [isEmptyCell, dict, inside] using empty
      simp only [clearCell, setDict, filled, Array.setIfInBounds, inside, dite_true]
      rw [Array.countP_set, counted]
      simp [Dict.empty]
    · simp only [clearCell, setDict, filled, Array.setIfInBounds, inside, dite_false]

theorem contents_of_empty (h : Cells) (c : Cell) (empty : h.isEmptyCell c) : h.contents c = [] := by
  cases c with
  | list ref => simpa [isEmptyCell, contents] using empty
  | dict ref =>
    have none : (h.dict ref).entries = #[] := by simpa [isEmptyCell] using empty
    simp [contents, Dict.toList, none]

theorem emptied_of_cell (h : Cells) {c : Cell} (here : v.cell? = some c) : h.emptied v = h.clearCell c := by
  rw [emptied, here]

theorem emptied_of_still (h : Cells) (still : v.cell? = none) : h.emptied v = h := by
  rw [emptied, still]

theorem referents_of_cell (h : Cells) {c : Cell} (here : v.cell? = some c) : h.referents v = h.contents c := by
  cases v <;> cases here <;> rfl

end Cells

namespace Walk

/-- Fewer cells are filled, or what is pending is smaller. -/
noncomputable def measure (w : Walk) : Nat ×ₗ Nat := toLex (w.cells.filled, weight w.pending)

theorem Step.measure_lt {before after : Walk} (step : before.Step after) : after.measure < before.measure := by
  cases step with
  | @follow cells pending visited rest v picked =>
    have weighs : weight pending = sizeOf v + weight rest := (weight_perm picked).trans (weight_cons v rest)
    rw [measure, measure, Prod.Lex.toLex_lt_toLex]
    cases here : v.cell? with
    | none =>
      have less := cells.weight_referents here
      rw [cells.emptied_of_still here, weighs, weight_append]
      exact .inr ⟨rfl, by simp; omega⟩
    | some c =>
      rw [cells.emptied_of_cell here, cells.referents_of_cell here]
      cases full : cells.isEmptyCell c with
      | false => exact .inl (cells.filled_clearCell_lt c full)
      | true =>
        have positive := v.sizeOf_pos
        rw [cells.contents_of_empty c full, List.nil_append, weighs]
        exact .inr ⟨cells.filled_clearCell_of_empty c full, by simp; omega⟩
  | @skip cells pending visited rest v picked seen still =>
    have positive := v.sizeOf_pos
    rw [measure, measure, Prod.Lex.toLex_lt_toLex, weight_perm picked, weight_cons]
    exact .inr ⟨rfl, by simp; omega⟩

/-- No walk goes on for ever. -/
theorem step_wellFounded : WellFounded fun after before : Walk => before.Step after :=
  Subrelation.wf (fun step => step.measure_lt) (InvImage.wf measure wellFounded_lt)

theorem exists_step (w : Walk) (more : w.pending ≠ []) : ∃ next, w.Step next := by
  obtain ⟨cells, _ | ⟨v, rest⟩, visited⟩ := w
  · exact absurd rfl more
  · exact ⟨_, .follow (.refl _)⟩

end Walk

/-! ### What the walk keeps -/

namespace Cells

/-- The value can be reached, or it is a text or a stream that a method belongs to, and leads nowhere. -/
def Met (h : Cells) (roots : List Value) (v : Value) : Prop :=
  h.Reachable (· ∈ roots) v ∨ v.cell? = none ∧ h.referents v = []

/-- The entries of dicts come as their keys and values. -/
theorem mem_contents_dict {ref : Nat} :
    v ∈ h.contents (.dict ref) ↔
      ∃ key value, some (key, value) ∈ (h.dict ref).entries ∧ (v = key ∨ v = value) := by
  simp only [contents, Dict.toList, List.mem_flatMap, List.mem_filterMap, id_eq, Array.mem_toList_iff, Prod.exists,
    List.mem_cons, List.not_mem_nil, or_false]
  constructor
  · rintro ⟨key, value, ⟨_, mem, rfl⟩, is⟩
    exact ⟨key, value, mem, is⟩
  · rintro ⟨key, value, mem, is⟩
    exact ⟨key, value, ⟨_, mem, rfl⟩, is⟩

theorem Met.referents (met : h.Met roots v) (next : w ∈ h.referents v) : h.Met roots w := by
  obtain reached | ⟨-, nowhere⟩ := met
  · cases v with
    | list ref => exact .inl (.item reached (by simpa [Cells.referents, contents] using next))
    | dict ref =>
      obtain ⟨key, value, mem, rfl | rfl⟩ := mem_contents_dict.mp next
      · exact .inl (.key reached mem)
      · exact .inl (.value reached mem)
    | tuple id items => exact .inl (.part reached next)
    | function id name code defaults => exact .inl (.default reached (by simpa [Cells.referents] using next))
    | listMethod ref m =>
      obtain rfl := List.mem_singleton.mp next
      exact .inl (.ofListMethod reached)
    | dictMethod ref m =>
      obtain rfl := List.mem_singleton.mp next
      exact .inl (.ofDictMethod reached)
    | tupleMethod id items m =>
      obtain rfl := List.mem_singleton.mp next
      exact .inl (.ofTupleMethod reached)
    | strMethod text m =>
      obtain rfl := List.mem_singleton.mp next
      exact .inr ⟨rfl, rfl⟩
    | streamMethod s m =>
      obtain rfl := List.mem_singleton.mp next
      exact .inr ⟨rfl, rfl⟩
    | _ => simp [Cells.referents] at next
  · rw [nowhere] at next
    exact absurd next List.not_mem_nil

/-- Values that include the roots and all that they lead to themselves are all that can be reached. -/
theorem reachable_of_closed {S : Value → Prop} (base : ∀ v ∈ roots, S v)
    (closed : ∀ v, S v → ∀ w ∈ h.referents v, S w) (reached : h.Reachable (· ∈ roots) v) : S v := by
  induction reached with
  | root mem => exact base _ mem
  | item _ mem ih => exact closed _ ih _ (by simpa [referents, contents] using mem)
  | ofListMethod _ ih => exact closed _ ih _ (List.mem_singleton_self _)
  | part _ mem ih => exact closed _ ih _ mem
  | ofTupleMethod _ ih => exact closed _ ih _ (List.mem_singleton_self _)
  | key _ mem ih => exact closed _ ih _ (mem_contents_dict.mpr ⟨_, _, mem, .inl rfl⟩)
  | value _ mem ih => exact closed _ ih _ (mem_contents_dict.mpr ⟨_, _, mem, .inr rfl⟩)
  | ofDictMethod _ ih => exact closed _ ih _ (List.mem_singleton_self _)
  | default _ mem ih => exact closed _ ih _ (by simpa [referents] using mem)

/-- Taking the value empties its cell, if it is a list or dict, and touches no other. -/
structure Empties (v : Value) (before after : Cells) : Prop where
  list : ∀ ref, v = .list ref → after.list ref = #[]
  dict : ∀ ref, v = .dict ref → (after.dict ref).entries = #[]
  otherList : ∀ ref, v ≠ .list ref → after.list ref = before.list ref
  otherDict : ∀ ref, v ≠ .dict ref → after.dict ref = before.dict ref
  sizes : after.lists.size = before.lists.size ∧ after.dicts.size = before.dicts.size

theorem empties_of_still (h : Cells) (still : v.cell? = none) : Empties v h h := by
  constructor
  · rintro ref rfl
    cases still
  · rintro ref rfl
    cases still
  · exact fun _ _ => rfl
  · exact fun _ _ => rfl
  · exact ⟨rfl, rfl⟩

/-- An empty cell may as well be left as it is. -/
theorem empties_of_empty (h : Cells) {c : Cell} (empty : h.isEmptyCell c) : Empties c.value h h := by
  constructor
  · intro ref is
    cases c <;> cases is
    simpa [isEmptyCell] using empty
  · intro ref is
    cases c <;> cases is
    simpa [isEmptyCell] using empty
  · exact fun _ _ => rfl
  · exact fun _ _ => rfl
  · exact ⟨rfl, rfl⟩

theorem empties_clearCell (h : Cells) (c : Cell) : Empties c.value h (h.clearCell c) := by
  cases c with
  | list ref =>
    constructor
    · rintro _ ⟨⟩
      by_cases inside : ref < h.lists.size
      · exact h.list_setList #[] inside
      · simp [clearCell, setList, Cells.list, inside]
    · rintro _ ⟨⟩
    · exact fun other apart => h.list_setList_of_ne #[] fun same => apart (same ▸ rfl)
    · exact fun _ _ => rfl
    · exact ⟨Array.size_setIfInBounds, rfl⟩
  | dict ref =>
    constructor
    · rintro _ ⟨⟩
    · rintro _ ⟨⟩
      by_cases inside : ref < h.dicts.size
      · simp [clearCell, setDict, Cells.dict, inside, Dict.empty]
      · simp [clearCell, setDict, Cells.dict, inside, Dict.empty]
    · exact fun _ _ => rfl
    · intro other apart
      have ne : ref ≠ other := fun same => apart (same ▸ rfl)
      simp [clearCell, setDict, Cells.dict, ne]
    · exact ⟨rfl, Array.size_setIfInBounds⟩

theorem empties_emptied (h : Cells) (v : Value) : Empties v h (h.emptied v) := by
  cases here : v.cell? with
  | none =>
    rw [h.emptied_of_still here]
    exact h.empties_of_still here
  | some c =>
    obtain rfl : c.value = v := by cases v <;> cases here <;> rfl
    rw [h.emptied_of_cell here]
    exact h.empties_clearCell c

end Cells

open Cells

/-- How far the emptying has come. What was taken is empty, and what it led to was taken too or is pending; what was not
taken is as it was. -/
structure Halfway (h : Cells) (roots : List Value) (cells : Cells) (pending visited : List Value) : Prop where
  base : ∀ v ∈ roots, v ∈ visited ∨ v ∈ pending
  next : ∀ v ∈ visited, ∀ w ∈ h.referents v, w ∈ visited ∨ w ∈ pending
  met : ∀ v, v ∈ visited ∨ v ∈ pending → h.Met roots v
  lists : ∀ ref, .list ref ∈ visited → cells.list ref = #[]
  dicts : ∀ ref, .dict ref ∈ visited → (cells.dict ref).entries = #[]
  otherLists : ∀ ref, .list ref ∉ visited → cells.list ref = h.list ref
  otherDicts : ∀ ref, .dict ref ∉ visited → cells.dict ref = h.dict ref
  sizes : cells.lists.size = h.lists.size ∧ cells.dicts.size = h.dicts.size

namespace Halfway

theorem start (h : Cells) (roots : List Value) : Halfway h roots h roots [] := by
  constructor <;> simp
  exact fun v mem => .inl (.root mem)

/-- Which of the pending values comes first does not matter. -/
theorem of_perm {pending' : List Value} (halfway : Halfway h roots cells pending visited)
    (same : pending.Perm pending') : Halfway h roots cells pending' visited := by
  constructor
  · simpa only [same.mem_iff] using halfway.base
  · simpa only [same.mem_iff] using halfway.next
  · simpa only [same.mem_iff] using halfway.met
  · exact halfway.lists
  · exact halfway.dicts
  · exact halfway.otherLists
  · exact halfway.otherDicts
  · exact halfway.sizes

/-- A value that was not taken leads to what it led to at first; one that was, and is a list or dict, leads nowhere. -/
theorem referents_eq (halfway : Halfway h roots cells pending visited) (new : v ∉ visited) :
    cells.referents v = h.referents v := by
  cases v with
  | list ref => simp only [referents, contents, halfway.otherLists ref new]
  | dict ref => simp only [referents, contents, halfway.otherDicts ref new]
  | _ => rfl

theorem referents_subset (halfway : Halfway h roots cells pending visited) (next : w ∈ cells.referents v) :
    w ∈ h.referents v := by
  by_cases seen : v ∈ visited
  · cases v with
    | list ref => simp [referents, contents, halfway.lists ref seen] at next
    | dict ref => simp [referents, contents, Dict.toList, halfway.dicts ref seen] at next
    | _ => exact next
  · rwa [← halfway.referents_eq seen]

/-- Taking a value: what it leads to now is pending. -/
theorem take {after : Cells} (halfway : Halfway h roots cells (v :: rest) visited) (taken : Empties v cells after) :
    Halfway h roots after (cells.referents v ++ rest) (v :: visited) := by
  have covered {w : Value} (was : w ∈ visited ∨ w ∈ v :: rest) : w ∈ v :: visited ∨ w ∈ cells.referents v ++ rest := by
    simp only [List.mem_cons, List.mem_append] at was ⊢
    tauto
  constructor
  · exact fun w mem => covered (halfway.base w mem)
  · intro u mem w next
    obtain rfl | seen := List.mem_cons.mp mem
    · by_cases seen : u ∈ visited
      · exact covered (halfway.next u seen w next)
      · rw [← halfway.referents_eq seen] at next
        exact .inr (List.mem_append_left _ next)
    · exact covered (halfway.next u seen w next)
  · have here : h.Met roots v := halfway.met v (.inr List.mem_cons_self)
    rintro w (seen | mem)
    · obtain rfl | seen := List.mem_cons.mp seen
      · exact here
      · exact halfway.met w (.inl seen)
    · obtain next | mem := List.mem_append.mp mem
      · exact here.referents (halfway.referents_subset next)
      · exact halfway.met w (.inr (List.mem_cons_of_mem _ mem))
  · intro ref mem
    by_cases is : v = .list ref
    · exact taken.list ref is
    · rw [taken.otherList ref is]
      exact halfway.lists ref (List.mem_of_ne_of_mem (Ne.symm is) mem)
  · intro ref mem
    by_cases is : v = .dict ref
    · exact taken.dict ref is
    · rw [taken.otherDict ref is]
      exact halfway.dicts ref (List.mem_of_ne_of_mem (Ne.symm is) mem)
  · intro ref new
    rw [List.mem_cons, not_or] at new
    rw [taken.otherList ref (Ne.symm new.1), halfway.otherLists ref new.2]
  · intro ref new
    rw [List.mem_cons, not_or] at new
    rw [taken.otherDict ref (Ne.symm new.1), halfway.otherDicts ref new.2]
  · rw [taken.sizes.1, taken.sizes.2]
    exact halfway.sizes

/-- What was taken before need not be taken again. -/
theorem leave (halfway : Halfway h roots cells (v :: rest) visited) (seen : v ∈ visited) :
    Halfway h roots cells rest visited := by
  have covered {w : Value} (was : w ∈ visited ∨ w ∈ v :: rest) : w ∈ visited ∨ w ∈ rest := by
    obtain mem | mem := was
    · exact .inl mem
    · obtain rfl | mem := List.mem_cons.mp mem
      · exact .inl seen
      · exact .inr mem
  constructor
  · exact fun w mem => covered (halfway.base w mem)
  · exact fun u mem w next => covered (halfway.next u mem w next)
  · exact fun w was => halfway.met w (was.imp_right (List.mem_cons_of_mem _))
  · exact halfway.lists
  · exact halfway.dicts
  · exact halfway.otherLists
  · exact halfway.otherDicts
  · exact halfway.sizes

/-- With nothing pending, what was taken is what can be reached. -/
theorem released (halfway : Halfway h roots cells [] visited) : h.Released roots cells := by
  have taken {v : Value} (reached : h.Reachable (· ∈ roots) v) : v ∈ visited :=
    reachable_of_closed (S := (· ∈ visited)) (by simpa using halfway.base) (by simpa using halfway.next) reached
  have reached {v : Value} {c : Cell} (here : v.cell? = some c) (seen : v ∈ visited) : h.Reachable (· ∈ roots) v := by
    obtain reached | ⟨still, -⟩ := halfway.met v (.inl seen)
    · exact reached
    · simp [still] at here
  constructor
  · exact fun ref there => halfway.lists ref (taken there)
  · exact fun ref there => halfway.dicts ref (taken there)
  · exact fun ref apart => halfway.otherLists ref fun seen => apart (reached rfl seen)
  · exact fun ref apart => halfway.otherDicts ref fun seen => apart (reached rfl seen)
  · exact halfway.sizes

end Halfway

theorem Walk.Step.halfway {before after : Walk} (step : before.Step after)
    (halfway : Halfway h roots before.cells before.pending before.visited) :
    Halfway h roots after.cells after.pending after.visited := by
  cases step with
  | follow picked => exact (halfway.of_perm picked).take (empties_emptied _ _)
  | skip picked seen => exact (halfway.of_perm picked).leave seen

theorem Walk.halfway {w : Walk} (walked : Relation.ReflTransGen Walk.Step ⟨h, roots, []⟩ w) :
    Halfway h roots w.cells w.pending w.visited := by
  induction walked with
  | refl => exact .start h roots
  | tail _ step ih => exact step.halfway ih

/-! ### Emptying cell by cell -/

namespace Value

theorem cellsOf_append (xs ys : List Value) : cellsOf (xs ++ ys) = cellsOf xs ++ cellsOf ys := by
  induction xs with
  | nil => rfl
  | cons v rest ih => rw [List.cons_append, cellsOf, cellsOf, ih, List.append_assoc]

theorem cellsOf_defaults (defaults : List (Option Value)) :
    cellsOf (defaults.filterMap id) = cellsOfDefaults defaults := by
  induction defaults with
  | nil => rfl
  | cons v? rest ih =>
    cases v? with
    | none => exact ih
    | some v => exact congrArg (v.cells ++ ·) ih

/-- A value that is in no cell refers to the cells of what it leads to. -/
theorem cellsOf_referents (h : Cells) (still : v.cell? = Option.none) : cellsOf (h.referents v) = v.cells := by
  cases v with
  | list ref => simp [cell?] at still
  | dict ref => simp [cell?] at still
  | function id name code defaults => exact cellsOf_defaults defaults
  | tupleMethod id items m => exact List.append_nil _
  | _ => rfl

end Value

theorem Cell.cell?_value (c : Cell) : c.value.cell? = some c := by
  cases c <;> rfl

namespace Halfway

/-- Instead of values their cells can be pending. -/
theorem toCells (halfway : Halfway h roots cells (pending ++ rest) visited) :
    ∃ visited, Halfway h roots cells ((Value.cellsOf pending).map Cell.value ++ rest) visited := by
  induction size : weight pending using Nat.strong_induction_on generalizing pending rest visited with
  | _ n ih =>
    subst size
    cases pending with
    | nil => exact ⟨_, halfway⟩
    | cons v pending =>
      rw [List.cons_append] at halfway
      have positive := v.sizeOf_pos
      have split := weight_cons v pending
      cases here : v.cell? with
      | none =>
        have passed := halfway.take (cells.empties_of_still here)
        have less := cells.weight_referents here
        rw [← List.append_assoc] at passed
        obtain ⟨visited, halfway⟩ := ih _ (by rw [weight_append]; omega) passed rfl
        rw [Value.cellsOf_append, Value.cellsOf_referents cells here] at halfway
        exact ⟨visited, halfway⟩
      | some c =>
        obtain rfl : c.value = v := by cases v <;> cases here <;> rfl
        -- the cell stays pending, behind those values that are not looked at yet
        obtain ⟨visited, halfway⟩ := ih _ (by omega) (halfway.of_perm List.perm_middle.symm) rfl
        have only : c.value.cells = [c] := by cases c <;> rfl
        refine ⟨visited, halfway.of_perm ?_⟩
        rw [Value.cellsOf, only]
        exact List.perm_middle

theorem releaseCells {cs : List Cell} (halfway : Halfway h roots cells (cs.map Cell.value) visited) :
    ∃ visited, Halfway h roots (cells.releaseCells cs) [] visited := by
  induction cells, cs using Cells.releaseCells.induct generalizing visited with
  | case1 cells =>
    rw [Cells.releaseCells]
    exact ⟨visited, halfway⟩
  | case2 cells c pending full _ ih =>
    have taken := halfway.take (cells.empties_clearCell c)
    rw [cells.referents_of_cell c.cell?_value] at taken
    obtain ⟨visited, halfway⟩ := taken.toCells
    rw [Cells.releaseCells, dif_pos full]
    rw [← List.map_append] at halfway
    exact ih halfway
  | case3 cells c pending empty ih =>
    have taken := halfway.take (cells.empties_of_empty (Bool.eq_true_of_not_eq_false empty))
    rw [cells.referents_of_cell c.cell?_value,
      cells.contents_of_empty c (Bool.eq_true_of_not_eq_false empty), List.nil_append] at taken
    rw [Cells.releaseCells, dif_neg empty]
    exact ih taken

end Halfway

namespace Cells

/-- Emptying what can be reached from some values comes to an end, whatever refers to what: no walk goes on for ever,
and none is stuck while values are pending. All lists and dicts that could be reached are empty then, and no others have
changed. -/
theorem release_reachable (h : Cells) (roots : List Value) :
    (WellFounded fun after before : Walk => before.Step after) ∧
    (∀ w, Relation.ReflTransGen Walk.Step ⟨h, roots, []⟩ w →
      (w.pending ≠ [] → ∃ next, w.Step next) ∧ (w.pending = [] → h.Released roots w.cells)) ∧
    h.Released roots (h.release roots) := by
  refine ⟨Walk.step_wellFounded, ?_, ?_⟩
  · intro w walked
    constructor
    · exact w.exists_step
    · intro none
      have halfway := Walk.halfway walked
      rw [none] at halfway
      exact halfway.released
  -- the function looks at cells only, and follows what is in no cell at once
  · have begun : Halfway h roots h (roots ++ []) [] := by
      rw [List.append_nil]
      exact .start h roots
    obtain ⟨visited, halfway⟩ := begun.toCells
    rw [List.append_nil] at halfway
    obtain ⟨visited, halfway⟩ := halfway.releaseCells
    exact halfway.released

end Cells

end SnippetKernel
