import Mathlib.Data.Fintype.Card
import Mathlib.Data.Set.Finite.List
import Mathlib.Logic.Relation
import SnippetKernel.Value.Release

/-! What is inside a container, and inside the containers in it. A tuple has its items in itself, a list or a dict has
them in the heap, so a container can be inside itself. One that is not, and has no such container inside, can be
taken apart again and again only so often. -/
namespace SnippetKernel

namespace Value

/-- What a container holds: the items of a list or tuple, the keys and the values of a dict. -/
def parts (h : Cells) : Value → List Value
  | list ref => h.contents (.list ref)
  | tuple _ items => items
  | dict ref => h.contents (.dict ref)
  | _ => []

/-- The first value holds the second. -/
def Holds (h : Cells) (v part : Value) : Prop := part ∈ v.parts h

/-- Something is true of the value, of what it holds, of what that holds, and so on. -/
def Throughout (h : Cells) (good : Value → Prop) (v : Value) : Prop :=
  ∀ inner, Relation.ReflTransGen (Holds h) v inner → good inner

/-- Neither the value nor anything inside it is a container that is inside itself. -/
def Acyclic (h : Cells) : Value → Prop := Throughout h fun v => ¬ Relation.TransGen (Holds h) v v

def NotFloat (v : Value) : Prop := ∀ d, v ≠ float d

def NotMethod (v : Value) : Prop := v.valueType ≠ .method

variable {h : Cells} {good : Value → Prop} {v part : Value}

@[simp] theorem parts_none : none.parts h = [] := rfl

@[simp] theorem parts_bool (b : Bool) : (bool b).parts h = [] := rfl

@[simp] theorem parts_int (i : Int64) : (int i).parts h = [] := rfl

@[simp] theorem parts_str (text : String) : (str text).parts h = [] := rfl

theorem Throughout.here (all : Throughout h good v) : good v := all v .refl

theorem Throughout.held (all : Throughout h good v) (held : part ∈ v.parts h) : Throughout h good part :=
  fun inner within => all inner (.head held within)

theorem throughout_iff : Throughout h good v ↔ good v ∧ ∀ part ∈ v.parts h, Throughout h good part := by
  constructor
  · intro all
    exact ⟨all.here, fun part held => all.held held⟩
  · rintro ⟨here, parts⟩ inner within
    obtain rfl | ⟨part, held, within⟩ := within.cases_head
    · exact here
    · exact parts part held inner within

theorem throughout_int (i : Int64) : Throughout h NotFloat (int i) := throughout_iff.mpr (by simp [NotFloat])

/-- Values that hold nothing but each other. -/
theorem throughout_of_closed {vs : List Value} (all : ∀ v ∈ vs, good v)
    (closed : ∀ v ∈ vs, ∀ part ∈ v.parts h, part ∈ vs) (mem : v ∈ vs) : Throughout h good v := by
  intro inner within
  have still : inner ∈ vs := by
    induction within with
    | refl => exact mem
    | tail _ held ih => exact closed _ ih _ held
  exact all inner still

/-! ### The finitely many values inside a value -/

mutual

/-- A value and the items of tuples in it, without a look at the heap. -/
def pieces : Value → List Value
  | tuple id items => tuple id items :: piecesOf items
  | v => [v]

def piecesOf : List Value → List Value
  | [] => []
  | v :: rest => v.pieces ++ piecesOf rest

end

theorem mem_piecesOf {items : List Value} : part ∈ piecesOf items ↔ ∃ item ∈ items, part ∈ item.pieces := by
  induction items with
  | nil => simp [piecesOf]
  | cons v rest ih => simp [piecesOf, ih]

theorem self_mem_pieces (v : Value) : v ∈ v.pieces := by cases v <;> simp [pieces]

mutual

theorem item_mem_pieces {id : Nat} {items : List Value} {item : Value} (mem : item ∈ items) (v : Value)
    (within : tuple id items ∈ v.pieces) : item ∈ v.pieces := by
  match v with
  | tuple _ outer =>
    rw [pieces, List.mem_cons] at within ⊢
    obtain ⟨rfl, rfl⟩ | within := within
    · exact .inr (mem_piecesOf.mpr ⟨item, mem, self_mem_pieces item⟩)
    · exact .inr (item_mem_piecesOf mem outer within)
  | none | bool _ | int _ | float _ | str _ | list _ | dict _ | range _ => simp [pieces] at within
  | function .. | builtin _ | listMethod .. | tupleMethod .. | dictMethod .. => simp [pieces] at within
  | strMethod .. | streamMethod .. | module _ | type _ | exception .. | stream _ => simp [pieces] at within

theorem item_mem_piecesOf {id : Nat} {items : List Value} {item : Value} (mem : item ∈ items) (outer : List Value)
    (within : tuple id items ∈ piecesOf outer) : item ∈ piecesOf outer := by
  match outer with
  | [] => simp [piecesOf] at within
  | v :: rest =>
    rw [piecesOf, List.mem_append] at within ⊢
    exact within.imp (item_mem_pieces mem v) (item_mem_piecesOf mem rest)

end

/-- All that lists and dicts on the heap hold. -/
def stored (h : Cells) : List Value :=
  h.lists.toList.flatMap (·.toList) ++
    h.dicts.toList.flatMap fun d => d.toList.flatMap fun (key, value) => [key, value]

theorem contents_stored {c : Cell} (mem : part ∈ h.contents c) : part ∈ stored h := by
  cases c with
  | list ref =>
    rw [Cells.contents, Cells.list] at mem
    cases there : h.lists[ref]? with
    | none => simp [there] at mem
    | some items =>
      rw [there] at mem
      have listed := Array.mem_toList_iff.mpr (Array.mem_of_getElem? there)
      exact List.mem_append_left _ (List.mem_flatMap.mpr ⟨items, listed, mem⟩)
  | dict ref =>
    rw [Cells.contents, Cells.dict] at mem
    cases there : h.dicts[ref]? with
    | none => simp [there, Dict.empty, Dict.toList] at mem
    | some d =>
      rw [there] at mem
      have listed := Array.mem_toList_iff.mpr (Array.mem_of_getElem? there)
      exact List.mem_append_right _ (List.mem_flatMap.mpr ⟨d, listed, mem⟩)

/-- Whatever is inside the value is a piece of it or of something on the heap. -/
theorem within_pieces {inner : Value} (within : Relation.ReflTransGen (Holds h) v inner) :
    inner ∈ piecesOf (v :: stored h) := by
  induction within with
  | refl => exact mem_piecesOf.mpr ⟨v, List.mem_cons_self, self_mem_pieces v⟩
  | @tail outer part _ held ih =>
    have onHeap {c : Cell} (mem : part ∈ h.contents c) : part ∈ piecesOf (v :: stored h) :=
      mem_piecesOf.mpr ⟨part, List.mem_cons_of_mem _ (contents_stored mem), self_mem_pieces part⟩
    cases outer with
    | list ref => exact onHeap (c := .list ref) held
    | dict ref => exact onHeap (c := .dict ref) held
    | tuple id items => exact item_mem_piecesOf held _ ih
    | _ => cases held

/-- The value and what is inside it. -/
abbrev Inner (h : Cells) (v : Value) := {inner : Value // Relation.ReflTransGen (Holds h) v inner}

instance : Finite (Inner h v) := ((piecesOf (v :: stored h)).finite_toSet.subset fun _ => within_pieces).to_subtype

/-- The first is inside the second. -/
def Inner.Below (a b : Inner h v) : Prop := Relation.TransGen (Holds h) b.1 a.1

/-- No value without cycles can be taken apart for ever. -/
theorem Acyclic.acc (acyclic : Acyclic h v) : Acc (fun part v => Holds h v part) v := by
  have : IsTrans (Inner h v) Inner.Below := ⟨fun _ _ _ first second => second.trans first⟩
  have : Std.Irrefl (Inner.Below (h := h) (v := v)) := ⟨fun a => acyclic a.1 a.2⟩
  have descent : WellFounded (Inner.Below (h := h) (v := v)) := Finite.wellFounded_of_trans_of_irrefl _
  have all (inner : Inner h v) : Acc (fun part v => Holds h v part) inner.1 := by
    induction inner using descent.induction with
    | _ inner ih => exact .intro _ fun part held => ih ⟨part, inner.2.tail held⟩ (.single held)
  exact all ⟨v, .refl⟩

/-- A container has no cycle if nothing in it has one: a way back to it leads through one of its parts. -/
theorem acyclic_of_parts (parts : ∀ part ∈ v.parts h, Acyclic h part) : Acyclic h v := by
  refine throughout_iff.mpr ⟨fun cycle => ?_, parts⟩
  obtain ⟨part, held, back⟩ := Relation.TransGen.head'_iff.mp cycle
  exact (parts part held).here (.tail' back held)

/-- Containers are nested at most so deep in the value. -/
def Shallow (h : Cells) : Nat → Value → Prop
  | 0, v =>
    match v with
    | list _ | tuple .. | dict _ => False
    | _ => True
  | depth + 1, v => ∀ part ∈ v.parts h, Shallow h depth part

theorem Shallow.deeper {depth more : Nat} (shallow : Shallow h depth v) (le : depth ≤ more) : Shallow h more v := by
  induction depth generalizing v more with
  | zero =>
    cases more with
    | zero => exact shallow
    | succ more => cases v <;> first | exact False.elim shallow | exact nofun
  | succ depth ih =>
    cases more with
    | zero => exact absurd le (Nat.not_succ_le_zero depth)
    | succ more => exact fun part held => ih (shallow part held) (Nat.le_of_succ_le_succ le)

end Value

end SnippetKernel
