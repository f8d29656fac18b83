import SnippetKernel.Proofs.Program.Guarantee
import SnippetKernel.Proofs.Program.SortCalls

/-! Operations on lists and dicts that fail. Everything that can fail comes before the first change, so an operation
that raises an exception leaves the heap as it was. Only `update` can stop half way. -/
namespace SnippetKernel

section

variable {ε σ α β : Type}

/-- The work leaves the state as it was, however it ends. -/
structure Still (work : EStateM ε σ α) : Prop where
  ok : ∀ {s a t}, work s = .ok a t → t = s
  error : ∀ {s e t}, work s = .error e t → t = s

/-- If the work fails, it leaves the state as it was. -/
def Atomic (work : EStateM ε σ α) : Prop := ∀ s e t, work s = .error e t → t = s

def Unfailing (work : EStateM ε σ α) : Prop := ∀ s e t, work s ≠ .error e t

variable {work : EStateM ε σ α} {next : α → EStateM ε σ β}

@[simp] theorem Still.done (a : α) : Still (pure a : EStateM ε σ α) where
  ok ended := by
    cases ended
    rfl
  error := nofun

@[simp] theorem Still.thrown (e : ε) : Still (throw e : EStateM ε σ α) where
  ok := nofun
  error ended := by
    cases ended
    rfl

theorem Still.look : Still (get : EStateM ε σ σ) where
  ok ended := by
    cases ended
    rfl
  error := nofun

/-- How two pieces of work fail one after the other. -/
theorem error_of_bind {s t : σ} {e : ε} (failed : (work >>= next) s = .error e t) :
    work s = .error e t ∨ ∃ a s', work s = .ok a s' ∧ next a s' = .error e t := by
  change EStateM.bind work next s = .error e t at failed
  unfold EStateM.bind at failed
  cases ended : work s with
  | ok a s' =>
    rw [ended] at failed
    exact .inr ⟨a, s', rfl, failed⟩
  | error e' s' =>
    rw [ended] at failed
    cases failed
    exact .inl rfl

theorem Still.andThen (first : Still work) (second : ∀ a, Still (next a)) : Still (work >>= next) where
  ok {s b t} ended := by
    change EStateM.bind work next s = .ok b t at ended
    unfold EStateM.bind at ended
    cases began : work s with
    | ok a s' =>
      rw [began] at ended
      exact ((second a).ok ended).trans (first.ok began)
    | error e' s' =>
      rw [began] at ended
      cases ended
  error failed := by
    obtain failed | ⟨a, s', began, failed⟩ := error_of_bind failed
    · exact first.error failed
    · exact ((second a).error failed).trans (first.ok began)

theorem Still.error_of_bind (first : Still work) {s t : σ} {e : ε} (failed : (work >>= next) s = .error e t) :
    t = s ∨ ∃ a, work s = .ok a s ∧ next a s = .error e t := by
  obtain failed | ⟨a, s', began, later⟩ := SnippetKernel.error_of_bind failed
  · exact .inl (first.error failed)
  · cases first.ok began
    exact .inr ⟨a, began, later⟩

theorem Still.atomic (still : Still work) : Atomic work := fun _ _ _ => still.error

theorem Unfailing.atomic (unfailing : Unfailing work) : Atomic work :=
  fun s e t failed => absurd failed (unfailing s e t)

/-- What only looks at the state may come before. -/
theorem Still.andAtomic (first : Still work) (second : ∀ a, Atomic (next a)) : Atomic (work >>= next) := by
  intro s e t failed
  obtain same | ⟨a, -, failed⟩ := first.error_of_bind failed
  · exact same
  · exact second a _ _ _ failed

/-- What cannot fail may come after. -/
theorem Atomic.andUnfailing (first : Atomic work) (second : ∀ a, Unfailing (next a)) : Atomic (work >>= next) := by
  intro s e t failed
  obtain failed | ⟨a, s', -, failed⟩ := error_of_bind failed
  · exact first _ _ _ failed
  · exact absurd failed (second a _ _ _)

@[simp] theorem Unfailing.done (a : α) : Unfailing (pure a : EStateM ε σ α) := nofun

@[simp] theorem Unfailing.change (f : σ → σ) : Unfailing (modify f : EStateM ε σ Unit) := nofun

@[simp] theorem Unfailing.changeGet (f : σ → α × σ) : Unfailing (modifyGet f : EStateM ε σ α) := nofun

theorem Unfailing.andThen (first : Unfailing work) (second : ∀ a, Unfailing (next a)) : Unfailing (work >>= next) := by
  intro s e t failed
  obtain failed | ⟨a, s', -, failed⟩ := error_of_bind failed
  · exact first _ _ _ failed
  · exact second a _ _ _ failed

theorem Still.choose {c : Prop} [Decidable c] {yes no : EStateM ε σ α} (first : Still yes) (second : Still no) :
    Still (if c then yes else no) := by
  split
  · exact first
  · exact second

theorem Atomic.choose {c : Prop} [Decidable c] {yes no : EStateM ε σ α} (first : Atomic yes) (second : Atomic no) :
    Atomic (if c then yes else no) := by
  split
  · exact first
  · exact second

end

/-! ### Work -/

namespace Work

variable {α : Type}

@[simp] theorem still_reading (read : Cells → α) : Still (Work.reading read) where
  ok ended := by
    cases ended
    rfl
  error := nofun

@[simp] theorem still_readingExcept (read : Cells → Except Exception α) : Still (Work.readingExcept read) := by
  constructor <;> intro r _ t ended <;> unfold Work.readingExcept at ended <;> split at ended <;> cases ended <;> rfl

@[simp] theorem still_ofExcept (result : Except Exception α) : Still (Work.ofExcept result) := by
  cases result with
  | ok a => exact .done a
  | error e => exact .thrown _

@[simp] theorem still_raise (kind : ExceptionKind) (message : String) : Still (Work.raise kind message : Work α) :=
  .thrown _

theorem atomic_onHeap {work : HeapM α} (atomic : Atomic work) : Atomic (Work.onHeap work) := by
  rintro ⟨cells, clock, writes⟩ e t failed
  simp only [Work.onHeap] at failed
  cases ended : work cells with
  | ok a after =>
    rw [ended] at failed
    cases failed
  | error e after =>
    rw [ended] at failed
    cases failed
    rw [atomic _ _ _ ended]

theorem unfailing_onHeap {work : HeapM α} (unfailing : Unfailing work) : Unfailing (Work.onHeap work) := by
  rintro ⟨cells, clock, writes⟩ e t failed
  simp only [Work.onHeap] at failed
  cases ended : work cells with
  | ok a after =>
    rw [ended] at failed
    cases failed
  | error e after => exact unfailing _ _ _ ended

@[simp] theorem unfailing_modifyList (ref : Nat) (change : Array Value → Array Value) :
    Unfailing (Work.onHeap (HeapM.modifyList ref change)) := unfailing_onHeap (.change _)

@[simp] theorem unfailing_modifyDict (ref : Nat) (change : Dict → Dict) :
    Unfailing (Work.onHeap (HeapM.modifyDict ref change)) := unfailing_onHeap (.change _)

@[simp] theorem unfailing_newList (items : List Value) : Unfailing (Work.onHeap (HeapM.newList items)) :=
  unfailing_onHeap (.changeGet _)

/-- Checks of arguments come first. -/
theorem atomic_checked {c : Prop} [Decidable c] {refuse : Work Unit} {next : Unit → Work α} (refused : Still refuse)
    (passed : ∀ u, Atomic (next u)) : Atomic (if c then do next (← refuse) else next ()) := by
  split
  · exact refused.andAtomic passed
  · exact passed ()

end Work

namespace Run

variable {α : Type} {work : Work α}

theorem atomic_ofWork (atomic : Atomic work) : Atomic (Run.ofWork work) := by
  rintro ⟨names, ⟨cells, codes⟩, frames, handling, writes, clock⟩ halt n failed
  simp only [Run.ofWork] at failed
  cases ended : work ⟨cells, clock, #[]⟩ with
  | ok a r =>
    rw [ended] at failed
    cases failed
  | error refusal r =>
    rw [ended] at failed
    obtain rfl := atomic _ _ _ ended
    cases refusal <;> cases failed <;> simp

theorem still_ofWork (still : Still work) : Still (Run.ofWork work) where
  ok {m a n} ended := by
    obtain ⟨names, ⟨cells, codes⟩, frames, handling, writes, clock⟩ := m
    simp only [Run.ofWork] at ended
    cases began : work ⟨cells, clock, #[]⟩ with
    | ok a r =>
      rw [began] at ended
      obtain rfl := still.ok began
      cases ended
      simp
    | error refusal r =>
      rw [began] at ended
      cases refusal <;> cases ended
  error := atomic_ofWork still.atomic _ _ _

theorem unfailing_ofWork (unfailing : Unfailing work) : Unfailing (Run.ofWork work) := by
  rintro ⟨names, ⟨cells, codes⟩, frames, handling, writes, clock⟩ halt n failed
  simp only [Run.ofWork] at failed
  cases ended : work ⟨cells, clock, #[]⟩ with
  | ok a r =>
    rw [ended] at failed
    cases failed
  | error refusal r => exact unfailing _ _ _ ended

theorem ok_of_ofWork {m n : Machine} {a : α} (ended : Run.ofWork work m = .ok a n) : ∃ r r', work r = .ok a r' := by
  obtain ⟨names, ⟨cells, codes⟩, frames, handling, writes, clock⟩ := m
  simp only [Run.ofWork] at ended
  cases began : work ⟨cells, clock, #[]⟩ with
  | ok b r =>
    rw [began] at ended
    cases ended
    exact ⟨_, _, began⟩
  | error refusal r =>
    rw [began] at ended
    cases refusal <;> cases ended

end Run

/-! ### Arguments -/

namespace Arguments

@[simp] theorem still_arity (name : String) (args : List Value) (least : Nat) (most : Option Nat) :
    Still (arity name args least most) := .choose (.done _) (Work.still_raise _ _)

@[simp] theorem still_exactly (name : String) (args : List Value) (n : Nat) : Still (exactly name args n) :=
  still_arity _ _ _ _

@[simp] theorem still_noKeywords (name : String) (keywords : Keywords) : Still (noKeywords name keywords) := by
  cases keywords with
  | nil => exact .done _
  | cons => exact Work.still_raise _ _

@[simp] theorem still_int (name : String) (v : Value) : Still (int name v) := by
  unfold int
  split
  · exact .done _
  · exact Work.still_raise _ _

end Arguments

open Arguments

/-! ### Lists -/

namespace ListMethods

@[simp] theorem unfailing_modify (ref : Nat) (change : Array Value → Array Value) : Unfailing (modify ref change) :=
  .andThen (Work.unfailing_modifyList _ _) fun _ => .done _

theorem still_index (typeName : String) (items args : List Value) : Still (index typeName items args) := by
  refine (still_exactly _ _ _).andThen fun _ => (Work.still_readingExcept _).andThen fun found => ?_
  cases found with
  | none => exact Work.still_raise _ _
  | some i => exact .done _

theorem still_count (items args : List Value) : Still (count items args) :=
  (still_exactly _ _ _).andThen fun _ => (Work.still_readingExcept _).andThen fun _ => .done _

theorem atomic_pop (ref : Nat) (args : List Value) : Atomic (pop ref args) := by
  refine (still_arity _ _ _ _).andAtomic fun _ => (Work.still_reading _).andAtomic fun length => ?_
  refine Work.atomic_checked (Work.still_raise _ _) fun _ => ?_
  extract_lets take
  have taken (index : Int64) : Atomic (take index) := by
    unfold take
    split
    · exact (Work.still_raise _ _).atomic
    · refine (Work.still_reading _).andAtomic fun removed => ?_
      exact (Work.unfailing_modifyList _ _).atomic.andUnfailing fun _ => .done _
  cases args with
  | nil => exact taken _
  | cons v rest => exact (still_int _ _).andAtomic taken

theorem atomic_remove (ref : Nat) (args : List Value) : Atomic (remove ref args) := by
  refine (still_exactly _ _ _).andAtomic fun _ => (Work.still_readingExcept _).andAtomic fun found => ?_
  cases found with
  | none => exact (Work.still_raise _ _).atomic
  | some i => exact (unfailing_modify _ _).atomic

theorem atomic_withoutKeys (m : ListMethod) (ref : Nat) (args : List Value) (keywords : Keywords) :
    Atomic (withoutKeys m ref args keywords) := by
  refine (still_noKeywords _ _).andAtomic fun _ => ?_
  have changed (n : Nat) (change : Array Value → Array Value) : Atomic (do
      exactly m.text args n
      modify ref change) := (still_exactly _ _ _).andAtomic fun _ => (unfailing_modify _ _).atomic
  cases m with
  | sort => exact (Still.done _).atomic
  | append | reverse | clear => exact changed _ _
  | extend =>
    refine (still_exactly _ _ _).andAtomic fun _ => (Work.still_readingExcept _).andAtomic fun new => ?_
    exact (unfailing_modify _ _).atomic
  | insert =>
    refine (still_exactly _ _ _).andAtomic fun _ => (still_int _ _).andAtomic fun index => ?_
    exact (unfailing_modify _ _).atomic
  | pop => exact atomic_pop ref args
  | remove => exact atomic_remove ref args
  | copy =>
    refine (still_exactly _ _ _).andAtomic fun _ => (Work.still_reading _).andAtomic fun items => ?_
    exact (Work.unfailing_newList _).atomic
  | index => exact (Work.still_reading _).andAtomic fun items => (still_index _ _ _).atomic
  | count => exact (Work.still_reading _).andAtomic fun items => (still_count _ _).atomic

end ListMethods

/-! ### Dicts -/

namespace DictMethods

theorem atomic_put (ref : Nat) (key value : Value) : Atomic (put ref key value) :=
  (Work.still_ofExcept _).andAtomic fun _ => (Work.unfailing_modifyDict _ _).atomic

theorem atomic_pop (ref : Nat) (args : List Value) : Atomic (DictMethods.pop ref args) := by
  refine (still_arity _ _ _ _).andAtomic fun _ => (Work.still_readingExcept _).andAtomic fun found => ?_
  split
  · refine (Work.still_ofExcept _).andAtomic fun k => ?_
    exact (Work.unfailing_modifyDict _ _).atomic.andUnfailing fun _ => .done _
  · exact (Still.done _).atomic
  · exact ((Work.still_reading _).andThen fun _ => Work.still_raise _ _).atomic

theorem atomic_setdefault (ref : Nat) (args : List Value) : Atomic (setdefault ref args) := by
  refine (still_arity _ _ _ _).andAtomic fun _ => (Work.still_readingExcept _).andAtomic fun found => ?_
  cases found with
  | some v => exact (Still.done _).atomic
  | none => exact (atomic_put _ _ _).andUnfailing fun _ => .done _

theorem unfailing_newPairs (entries : List (Value × Value)) : Unfailing (HeapM.newPairs entries) := by
  induction entries with
  | nil => exact .done _
  | cons entry rest ih =>
    have tuple : Unfailing (HeapM.newTuple [entry.1, entry.2]) := .andThen (.changeGet _) fun _ => .done _
    exact tuple.andThen fun _ => ih.andThen fun _ => .done _

theorem atomic_apply {m : DictMethod} (other : m ≠ .update) (ref : Nat) (args : List Value) (keywords : Keywords) :
    Atomic (DictMethods.apply m ref args keywords) := by
  unfold DictMethods.apply
  apply Work.atomic_checked (still_noKeywords _ _)
  intro _
  have listed (list : List (Value × Value) → List Value) : Atomic (do
      exactly m.text args 0
      Work.onHeap (HeapM.newList (list (← entries ref)))) :=
    (still_exactly _ _ _).andAtomic fun _ => (Work.still_reading _).andAtomic fun _ => (Work.unfailing_newList _).atomic
  cases m with
  | get =>
    exact ((still_arity _ _ _ _).andThen fun _ => (Work.still_readingExcept _).andThen fun _ => .done _).atomic
  | keys => exact listed (·.map (·.1))
  | values => exact listed (·.map (·.2))
  | items =>
    refine (still_exactly _ _ _).andAtomic fun _ => (Work.still_reading _).andAtomic fun entries => ?_
    exact (Work.unfailing_onHeap ((unfailing_newPairs _).andThen fun _ => .changeGet _)).atomic
  | pop => exact atomic_pop ref args
  | setdefault => exact atomic_setdefault ref args
  | update => exact absurd rfl other
  | copy =>
    refine (still_exactly _ _ _).andAtomic fun _ => (Work.still_reading _).andAtomic fun d => ?_
    exact (Work.unfailing_onHeap (.changeGet _)).atomic
  | clear =>
    refine (still_exactly _ _ _).andAtomic fun _ => ?_
    exact (Work.unfailing_modifyDict _ _).atomic.andUnfailing fun _ => .done _

end DictMethods

/-! ### Places in brackets -/

theorem HeapM.still_ofExcept {α : Type} (result : Except Exception α) : Still (HeapM.ofExcept result) := by
  cases result with
  | ok a => exact .done a
  | error e => exact .thrown e

namespace Value

theorem atomic_setItem (v index x : Value) : Atomic (v.setItem index x) := by
  refine Still.look.andAtomic fun h => ?_
  cases v with
  | list | dict => exact (HeapM.still_ofExcept _).andAtomic fun _ => (Unfailing.change _).atomic
  | _ => exact (Still.thrown _).atomic

theorem atomic_setSlice (v : Value) (s : Slice) (new : Value) : Atomic (v.setSlice s new) := by
  refine Still.look.andAtomic fun h => ?_
  cases v with
  | list ref =>
    refine (HeapM.still_ofExcept _).andAtomic fun new => (HeapM.still_ofExcept _).andAtomic fun places => ?_
    refine .choose (Unfailing.change _).atomic (.choose (Still.thrown _).atomic ?_)
    exact (Unfailing.change _).atomic
  | _ => exact (Still.thrown _).atomic

theorem atomic_deleteItem (v index : Value) : Atomic (v.deleteItem index) := by
  refine Still.look.andAtomic fun h => ?_
  cases v with
  | list => exact (HeapM.still_ofExcept _).andAtomic fun _ => (Unfailing.change _).atomic
  | dict =>
    refine (HeapM.still_ofExcept _).andAtomic fun k => .choose (Unfailing.change _).atomic ?_
    exact (Still.thrown _).atomic
  | _ => exact (Still.thrown _).atomic

theorem atomic_deleteSlice (v : Value) (s : Slice) : Atomic (v.deleteSlice s) := by
  refine Still.look.andAtomic fun h => ?_
  cases v with
  | list => exact (HeapM.still_ofExcept _).andAtomic fun _ => (Unfailing.change _).atomic
  | _ => exact (Still.thrown _).atomic

end Value

/-! ### Containers -/

/-- The list, if there is one, holds the same items afterwards. -/
def Cells.KeepsList (ref : Nat) (h h' : Cells) : Prop :=
  ref < h.lists.size → ref < h'.lists.size ∧ h'.list ref = h.list ref

/-- The dict, if there is one, holds the same entries afterwards. -/
def Cells.KeepsDict (ref : Nat) (h h' : Cells) : Prop :=
  ref < h.dicts.size → ref < h'.dicts.size ∧ h'.dict ref = h.dict ref

namespace Cells

variable {ref : Nat} {h h' h'' : Cells}

theorem KeepsList.refl (ref : Nat) (h : Cells) : KeepsList ref h h := fun inside => ⟨inside, rfl⟩

theorem KeepsDict.refl (ref : Nat) (h : Cells) : KeepsDict ref h h := fun inside => ⟨inside, rfl⟩

theorem KeepsList.trans (first : KeepsList ref h h') (second : KeepsList ref h' h'') : KeepsList ref h h'' := by
  intro inside
  obtain ⟨inside', same⟩ := first inside
  obtain ⟨inside'', same'⟩ := second inside'
  exact ⟨inside'', same'.trans same⟩

theorem KeepsDict.trans (first : KeepsDict ref h h') (second : KeepsDict ref h' h'') : KeepsDict ref h h'' := by
  intro inside
  obtain ⟨inside', same⟩ := first inside
  obtain ⟨inside'', same'⟩ := second inside'
  exact ⟨inside'', same'.trans same⟩

end Cells

/-! ### Sorting

The only operation that runs code of the program is `sort`, for the keys. What it leaves when it fails is what the calls
for the keys have left. -/

namespace Run

/-- The keys of some of the items are asked for, from the first one on; that makes `n` of the machine `m`. -/
inductive Asks (keyOf : KeyOf) : List Value → Machine → Machine → Prop
  | stop (items : List Value) (m : Machine) : Asks keyOf items m m
  | next {item key : Value} {rest : List Value} {m n l : Machine} : keyOf item m = .ok key n → Asks keyOf rest n l →
    Asks keyOf (item :: rest) m l
  | fail {item : Value} {rest : List Value} {m n : Machine} {halt : Halt} : keyOf item m = .error halt n →
    Asks keyOf (item :: rest) m n

variable {keyOf : KeyOf} {items : List Value} {m n : Machine}

/-- What all calls for keys keep is kept. -/
theorem Asks.keeps (kept : Machine → Machine → Prop) (refl : ∀ m, kept m m)
    (trans : ∀ l m n, kept l m → kept m n → kept l n) (calls : ∀ item m, kept m ((keyOf item).leaves m))
    (asks : Asks keyOf items m n) : kept m n := by
  have leaves (item : Value) (m : Machine) := calls item m
  unfold Run.leaves at leaves
  induction asks with
  | stop _ m => exact refl m
  | @next item _ _ m _ _ found _ ih =>
    have step := leaves item m
    rw [found] at step
    exact trans _ _ _ step ih
  | @fail item _ m _ _ failed =>
    have step := leaves item m
    rw [failed] at step
    exact step

theorem Asks.of_pure (asks : Asks pure items m n) : n = m :=
  asks.keeps (fun m n => n = m) (fun _ => rfl) (fun _ _ _ first second => second.trans first) fun _ _ => rfl

theorem asks_keyed : (∀ xs, keyed keyOf items m = .ok xs n → Asks keyOf items m n) ∧
    ∀ halt, keyed keyOf items m = .error halt n → Asks keyOf items m n := by
  induction items generalizing m with
  | nil =>
    constructor
    · rintro xs ⟨⟩
      exact .stop _ _
    · rintro halt ⟨⟩
  | cons item rest ih =>
    constructor
    · intro xs found
      obtain ⟨key, m', first, found⟩ := ok_of_bind found
      obtain ⟨more, m'', rest, found⟩ := ok_of_bind found
      cases found
      exact .next first (ih.1 _ rest)
    · intro halt failed
      obtain failed | ⟨key, m', first, failed⟩ := error_of_bind failed
      · exact .fail failed
      · obtain failed | ⟨more, m'', -, failed⟩ := error_of_bind failed
        · exact .next first (ih.2 _ failed)
        · cases failed

theorem asks_of_sorted {reverse : Bool} {halt : Halt} (failed : sorted keyOf reverse items m = .error halt n) :
    Asks keyOf items m n := by
  obtain failed | ⟨xs, m', found, failed⟩ := error_of_bind failed
  · exact asks_keyed.2 _ failed
  · rw [(still_ofWork (Work.still_readingExcept _)).error failed]
    exact asks_keyed.1 _ found

end Run

namespace ListMethods

theorem still_sortKeywords (keywords : Keywords) : Still (sortKeywords keywords) := by
  unfold sortKeywords
  simp only
  split
  · exact (Work.still_reading _).andThen fun _ => .done _
  · exact .done _

theorem key_of_sortKeywords {keywords others : Keywords} {key : Option Value} {reverse : Bool} {r r' : Reach}
    (found : sortKeywords keywords r = .ok (key, reverse, others) r') : key = keywords.lookup "key" := by
  simp only [sortKeywords, take] at found
  generalize (keywords.eraseP (·.1 == "key")).lookup "reverse" = given at found
  cases given <;> cases found <;> rfl

theorem asks_of_sort {callKey : Value → Value → Run Value} {ref : Nat} {args : List Value} {keywords : Keywords}
    {m n : Machine} {halt : Halt} (failed : sort callKey ref args keywords m = .error halt n) :
    Run.Asks (keyOf callKey (keywords.lookup "key")) (m.heap.list ref).toList m n := by
  have stop (same : n = m) : Run.Asks (keyOf callKey (keywords.lookup "key")) (m.heap.list ref).toList m n :=
    same ▸ .stop _ _
  -- nothing has changed when the keys are asked for
  obtain same | ⟨⟨key, reverse, others⟩, found, failed⟩ :=
    (Run.still_ofWork (still_sortKeywords _)).error_of_bind failed
  · exact stop same
  obtain ⟨r, r', found⟩ := Run.ok_of_ofWork found
  obtain rfl := key_of_sortKeywords found
  obtain same | ⟨_, -, failed⟩ := (Run.still_ofWork (still_noKeywords _ _)).error_of_bind failed
  · exact stop same
  obtain same | ⟨_, -, failed⟩ := (Run.still_ofWork (still_exactly _ _ _)).error_of_bind failed
  · exact stop same
  have listed : Run.ofWork (items ref) m = .ok (m.heap.list ref).toList m :=
    Run.ofWork_of_still fun r same => same ▸ rfl
  replace failed := (Run.bind_of_ok listed).symm.trans failed
  obtain failed | ⟨sorted, m', -, failed⟩ := error_of_bind failed
  · exact Run.asks_of_sorted failed
  · exact absurd failed (Run.unfailing_ofWork (unfailing_modify _ _) _ _ _)

end ListMethods

/-! ### Operations -/

/-- An operation on a list or a dict: a method, or what assigns to a place in brackets or deletes there. -/
inductive Operation where
  | listMethod (ref : Nat) (m : ListMethod) (args : List Value) (keywords : Keywords)
  | dictMethod (ref : Nat) (m : DictMethod) (args : List Value) (keywords : Keywords)
  | setItem (v index x : Value)
  | setSlice (v : Value) (s : Slice) (new : Value)
  | deleteItem (v index : Value)
  | deleteSlice (v : Value) (s : Slice)

namespace Operation

def run (function : Call.FunctionCaller) : Operation → Run Unit
  | listMethod ref m args keywords => do let _ ← Call.value function (.listMethod ref m) args keywords
  | dictMethod ref m args keywords => do let _ ← Call.value function (.dictMethod ref m) args keywords
  | setItem v index x => Work.onHeap (v.setItem index x)
  | setSlice v s new => Work.onHeap (v.setSlice s new)
  | deleteItem v index => Work.onHeap (v.deleteItem index)
  | deleteSlice v s => Work.onHeap (v.deleteSlice s)

def isUpdate : Operation → Bool
  | dictMethod _ .update _ _ => true
  | _ => false

/-- The list that the operation sorts, and the function that it asks for the keys of the items. -/
def keyed? : Operation → Option (Nat × Value)
  | listMethod ref .sort _ keywords =>
    match keywords.lookup "key" with
    | none | some .none => none
    | some f => some (ref, f)
  | _ => none

variable {function : Call.FunctionCaller} {m n : Machine} {halt : Halt}

theorem sort_untouched {ref : Nat} {args : List Value} {keywords : Keywords}
    (failed : ListMethods.sort (Call.keyCall function) ref args keywords m = .error halt n) :
    match keyed? (.listMethod ref .sort args keywords) with
    | none => n = m
    | some (ref, f) => Run.Asks (Call.keyCall function f) (m.heap.list ref).toList m n := by
  have asks := ListMethods.asks_of_sort failed
  unfold keyed?
  simp only
  cases given : keywords.lookup "key" with
  | none =>
    rw [given] at asks
    exact asks.of_pure
  | some f =>
    rw [given] at asks
    cases f with
    | none => exact asks.of_pure
    | _ => exact asks

variable {op : Operation}

theorem asks_of_failed (not_update : op.isUpdate = false) (failed : op.run function m = .error halt n) :
    match op.keyed? with
    | none => n = m
    | some (ref, f) => Run.Asks (Call.keyCall function f) (m.heap.list ref).toList m n := by
  cases op with
  | listMethod ref method args keywords =>
    obtain failed | ⟨_, _, -, failed⟩ := error_of_bind failed
    · cases method with
      | sort => exact sort_untouched failed
      | _ => exact Run.atomic_ofWork (ListMethods.atomic_withoutKeys _ ref args keywords) _ _ _ failed
    · cases failed
  | dictMethod ref method args keywords =>
    have other : method ≠ .update := by
      rintro rfl
      cases not_update
    obtain failed | ⟨_, _, -, failed⟩ := error_of_bind failed
    · exact Run.atomic_ofWork (DictMethods.atomic_apply other _ _ _) _ _ _ failed
    · cases failed
  | setItem v index x => exact Run.atomic_ofWork (Work.atomic_onHeap (v.atomic_setItem _ _)) _ _ _ failed
  | setSlice v s new => exact Run.atomic_ofWork (Work.atomic_onHeap (v.atomic_setSlice _ _)) _ _ _ failed
  | deleteItem v index => exact Run.atomic_ofWork (Work.atomic_onHeap (v.atomic_deleteItem _)) _ _ _ failed
  | deleteSlice v s => exact Run.atomic_ofWork (Work.atomic_onHeap (v.atomic_deleteSlice _)) _ _ _ failed

/-- An operation on a list or a dict that fails leaves everything as it was, `update` apart. Only a `sort` that is given
a function for keys may leave something else: what the calls of the function have left, one for each of the first items.
So a list or a dict that none of these calls changes holds what it held. -/
theorem failed_untouched (not_update : op.isUpdate = false) (failed : op.run function m = .error halt n) :
    match op.keyed? with
    | none => n = m
    | some (ref, f) => Run.Asks (Call.keyCall function f) (m.heap.list ref).toList m n ∧
      ∀ other,
        ((∀ item (l : Machine), Cells.KeepsList other l.heap.toCells
            ((Call.keyCall function f item).leaves l).heap.toCells) →
          Cells.KeepsList other m.heap.toCells n.heap.toCells) ∧
        ((∀ item (l : Machine), Cells.KeepsDict other l.heap.toCells
            ((Call.keyCall function f item).leaves l).heap.toCells) →
          Cells.KeepsDict other m.heap.toCells n.heap.toCells) := by
  have asks := asks_of_failed not_update failed
  match op.keyed?, asks with
  | none, same => exact same
  | some (ref, f), asks =>
    refine ⟨asks, fun other => ⟨?_, ?_⟩⟩
    · exact asks.keeps (fun m n => Cells.KeepsList other m.heap.toCells n.heap.toCells) (fun _ => .refl _ _)
        fun _ _ _ => .trans
    · exact asks.keeps (fun m n => Cells.KeepsDict other m.heap.toCells n.heap.toCells) (fun _ => .refl _ _)
        fun _ _ _ => .trans

/-- `xs[::2] = xs`, for a list of four items. -/
theorem failed_untouched_of_itself :
    ∃ halt n, (setSlice (.list 0) ⟨none, none, some 2⟩ (.list 0)).run (Call.function 1 1) Call.distances =
      .error halt n ∧ n = Call.distances := by
  let op := setSlice (.list 0) ⟨none, none, some 2⟩ (.list 0)
  obtain ⟨halt, n, failed⟩ : ∃ halt n, op.run (Call.function 1 1) Call.distances = .error halt n := ⟨_, _, rfl⟩
  have same : n = Call.distances := @failed_untouched _ _ _ _ op rfl failed
  exact ⟨halt, n, failed, same⟩

end Operation

end SnippetKernel
