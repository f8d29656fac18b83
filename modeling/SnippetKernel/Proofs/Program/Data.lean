import SnippetKernel.Kernel.Engine
import SnippetKernel.Proofs.Source.Literals

/-! Data in programs. The expression of a datum makes a new value that stands for the datum, so what `repr`
writes for plain data is read back. -/
namespace SnippetKernel

/-! ### Growing cells -/

/-- The cells have been added to, and what was there has not changed. -/
structure Cells.Extends (h h' : Cells) : Prop where
  lists : ∀ ref < h.lists.size, ref < h'.lists.size ∧ h'.list ref = h.list ref
  dicts : ∀ ref < h.dicts.size, ref < h'.dicts.size ∧ h'.dict ref = h.dict ref

namespace Cells.Extends

theorem refl (h : Cells) : h.Extends h := ⟨fun _ inside => ⟨inside, rfl⟩, fun _ inside => ⟨inside, rfl⟩⟩

theorem trans {h h' h'' : Cells} (first : h.Extends h') (second : h'.Extends h'') : h.Extends h'' := by
  constructor
  · intro ref inside
    obtain ⟨inside', same⟩ := first.lists ref inside
    exact ⟨(second.lists ref inside').1, (second.lists ref inside').2.trans same⟩
  · intro ref inside
    obtain ⟨inside', same⟩ := first.dicts ref inside
    exact ⟨(second.dicts ref inside').1, (second.dicts ref inside').2.trans same⟩

theorem list (h : Cells) (items : Array Value) : h.Extends { h with lists := h.lists.push items } := by
  refine ⟨fun ref inside => ⟨?_, ?_⟩, fun _ inside => ⟨inside, rfl⟩⟩
  · rw [Array.size_push]
    omega
  · rw [Cells.list, Cells.list, Array.getElem?_push, if_neg (by omega)]

theorem dict (h : Cells) (d : Dict) : h.Extends { h with dicts := h.dicts.push d } := by
  refine ⟨fun _ inside => ⟨inside, rfl⟩, fun ref inside => ⟨?_, ?_⟩⟩
  · rw [Array.size_push]
    omega
  · rw [Cells.dict, Cells.dict, Array.getElem?_push, if_neg (by omega)]

end Cells.Extends

section

variable {h h' : Cells}

mutual

theorem Stands.extend (more : h.Extends h') {v : Value} {d : Datum} (stands : Stands h v d) : Stands h' v d := by
  match stands with
  | .none => exact .none
  | .bool b => exact .bool b
  | .int i => exact .int i
  | .str text => exact .str text
  | @Stands.list _ ref items inside all =>
    obtain ⟨inside', same⟩ := more.lists ref inside
    exact .list inside' (same ▸ all.extend more)
  | .tuple all => exact .tuple (all.extend more)
  | @Stands.dict _ ref entries inside keyed all =>
    obtain ⟨inside', same⟩ := more.dicts ref inside
    exact .dict inside' (same ▸ keyed) (same ▸ all.extend more)

theorem StandAll.extend (more : h.Extends h') {vs : List Value} {ds : List Datum} (all : StandAll h vs ds) :
    StandAll h' vs ds := by
  match all with
  | .nil => exact .nil
  | .cons first rest => exact .cons (first.extend more) (rest.extend more)

theorem StandEntries.extend (more : h.Extends h') {vs : List (Value × Value)} {ds : List (Datum × Datum)}
    (all : StandEntries h vs ds) : StandEntries h' vs ds := by
  match all with
  | .nil => exact .nil
  | .cons key value rest => exact .cons (key.extend more) (value.extend more) (rest.extend more)

end

mutual

/-- What a value is found by depends only on the datum. -/
theorem Stands.key_eq {v v' : Value} {d : Datum} (first : Stands h v d) (second : Stands h' v' d) :
    v.key = v'.key := by
  match first, second with
  | .none, .none => rfl
  | .bool _, .bool _ => rfl
  | .int _, .int _ => rfl
  | .str _, .str _ => rfl
  | .list _ _, .list _ _ => rfl
  | .tuple all, .tuple all' => rw [Value.key, Value.key, all.keys_eq all', all.length, all'.length]
  | .dict _ _ _, .dict _ _ _ => rfl

theorem StandAll.keys_eq {vs vs' : List Value} {ds : List Datum} (first : StandAll h vs ds)
    (second : StandAll h' vs' ds) : Value.keys vs = Value.keys vs' := by
  match first, second with
  | .nil, .nil => rfl
  | .cons one rest, .cons one' rest' => rw [Value.keys, Value.keys, one.key_eq one', rest.keys_eq rest']

end

end

/-! ### Making dicts -/

/-- An entry with a new key comes last. -/
theorem Dict.toList_put {d : Dict} {k : Key} (new : d.index[k]? = none) (key value : Value) :
    (d.put k key value).toList = d.toList ++ [(key, value)] := by
  simp [put, new, toList]

theorem Dict.index_put {d : Dict} {k k' : Key} (new : d.index[k]? = none) (other : k ≠ k')
    (unbound : d.index[k']? = none) (key value : Value) : (d.put k key value).index[k']? = none := by
  simp only [put, new]
  rw [Std.HashMap.getElem?_insert]
  simp [other, unbound]

/-! ### Evaluation -/

/-- The machine with these cells. -/
def Machine.withCells (m : Machine) (cells : Cells) : Machine := { m with heap := { m.heap with toCells := cells } }

theorem Run.bind_of_ok {α β : Type} {run : Run α} {next : α → Run β} {m n : Machine} {a : α}
    (h : run m = .ok a n) : (run >>= next) m = next a n := by
  change EStateM.bind run next m = _
  rw [EStateM.bind, h]

theorem Run.bind_of_error {α β : Type} {run : Run α} {next : α → Run β} {m n : Machine} {halt : Halt}
    (h : run m = .error halt n) : (run >>= next) m = .error halt n := by
  change EStateM.bind run next m = _
  rw [EStateM.bind, h]

theorem Run.ok_of_bind {α β : Type} {run : Run α} {next : α → Run β} {m n : Machine} {b : β}
    (h : (run >>= next) m = .ok b n) : ∃ a m', run m = .ok a m' ∧ next a m' = .ok b n := by
  cases ran : run m with
  | ok a m' => exact ⟨a, m', rfl, (bind_of_ok ran).symm.trans h⟩
  | error halt m' => cases (bind_of_error ran).symm.trans h

/-- Work that looks at the cells and leaves everything as it is. -/
theorem Run.ofWork_of_still {α : Type} {work : Work α} {m : Machine} {a : α}
    (h : ∀ r, r.cells = m.heap.toCells → work r = .ok a r) : Run.ofWork work m = .ok a m := by
  obtain ⟨names, ⟨cells, codes⟩, frames, handling, writes, clock⟩ := m
  simp [Run.ofWork, h ⟨cells, clock, #[]⟩ rfl]

theorem Run.ofWork_readingExcept {α : Type} {read : Cells → Except Exception α} {m : Machine} {a : α}
    (h : read m.heap.toCells = .ok a) : Run.ofWork (Work.readingExcept read) m = .ok a m := by
  refine ofWork_of_still fun r same => ?_
  rw [Work.readingExcept, same, h]

theorem Run.ofWork_items {v : Value} {items : List Value} {m : Machine} (listed : v.items m.heap.toCells = .ok items) :
    Run.ofWork (Work.items v) m = .ok items m := by
  refine ofWork_of_still fun r same => ?_
  rw [Work.items, Work.readingExcept, same, listed]

theorem Run.ofWork_readingExcept_error {α : Type} {read : Cells → Except Exception α} {m : Machine} {e : Exception}
    (h : read m.heap.toCells = .error e) :
    Run.ofWork (Work.readingExcept read) m = .error (.fault (.ofException e none)) m := by
  obtain ⟨names, ⟨cells, codes⟩, frames, handling, writes, clock⟩ := m
  simp only at h
  simp [Run.ofWork, Work.readingExcept, h]

/-- Work on the cells that succeeds changes nothing else. -/
theorem Run.ofWork_onHeap {α : Type} {work : HeapM α} {m : Machine} {a : α} {cells : Cells}
    (h : work m.heap.toCells = .ok a cells) : Run.ofWork (Work.onHeap work) m = .ok a (m.withCells cells) := by
  obtain ⟨names, ⟨h₀, codes⟩, frames, handling, writes, clock⟩ := m
  simp only at h
  simp only [Run.ofWork, Work.onHeap, h]
  simp [Machine.withCells]

theorem Run.ofWork_ofExcept {α : Type} {m : Machine} (a : α) :
    Run.ofWork (Work.ofExcept (.ok a)) m = .ok a m := by
  obtain ⟨names, ⟨h₀, codes⟩, frames, handling, writes, clock⟩ := m
  simp [Run.ofWork, Work.ofExcept, pure, EStateM.pure]

theorem Run.ofWork_ofExcept_error {α : Type} {m : Machine} (e : Exception) :
    Run.ofWork (Work.ofExcept (.error e) : Work α) m = .error (.fault (.ofException e none)) m := by
  obtain ⟨names, ⟨h₀, codes⟩, frames, handling, writes, clock⟩ := m
  change EStateM.Result.error _ (Machine.mk names _ frames handling (writes ++ #[]) clock) = _
  rw [Array.append_empty]

open Source

variable {h : Cells} {call : ValueCaller}

mutual

/-- The expression of a datum for which some value stands makes another one that does. -/
theorem Stands.eval {v : Value} {d : Datum} (stands : Stands h v d) (m : Machine) :
    ∃ w cells, Eval.expr call d.expr m = .ok w (m.withCells cells) ∧ m.heap.Extends cells ∧
      Stands cells w d := by
  match stands with
  | .none => exact ⟨.none, m.heap, by rw [Datum.expr, Eval.expr]; rfl, .refl _, .none⟩
  | .bool b => exact ⟨.bool b, m.heap, by rw [Datum.expr, Eval.expr]; rfl, .refl _, .bool b⟩
  | .int i => exact ⟨.int i, m.heap, by rw [Datum.expr, Eval.expr]; rfl, .refl _, .int i⟩
  | .str text => exact ⟨.str text, m.heap, by rw [Datum.expr, Eval.expr]; rfl, .refl _, .str text⟩
  | @Stands.list _ _ items _ all =>
    obtain ⟨ws, cells, ran, more, stand⟩ := all.eval m
    have pushed := Cells.Extends.list cells ws.toArray
    have made : Run.ofWork (Work.onHeap (HeapM.newList ws)) (m.withCells cells) =
        .ok (.list cells.lists.size) ((m.withCells cells).withCells { cells with lists := cells.lists.push ws.toArray }) :=
      Run.ofWork_onHeap rfl
    refine ⟨.list cells.lists.size, _, ?_, more.trans pushed, .list (by simp) ?_⟩
    · rw [Datum.expr, Eval.expr]
      exact (Run.bind_of_ok ran).trans made
    · have found : ({ cells with lists := cells.lists.push ws.toArray } : Cells).list cells.lists.size = ws.toArray := by
        simp [Cells.list]
      rw [found]
      exact stand.extend pushed
  | @Stands.tuple _ _ _ items all =>
    obtain ⟨ws, cells, ran, more, stand⟩ := all.eval m
    have counted : cells.Extends { cells with fresh := cells.fresh + 1 } :=
      ⟨fun _ inside => ⟨inside, rfl⟩, fun _ inside => ⟨inside, rfl⟩⟩
    have made : Run.ofWork (Work.onHeap (HeapM.newTuple ws)) (m.withCells cells) =
        .ok (.tuple cells.fresh ws) ((m.withCells cells).withCells { cells with fresh := cells.fresh + 1 }) :=
      Run.ofWork_onHeap rfl
    refine ⟨.tuple cells.fresh ws, _, ?_, more.trans counted, .tuple (stand.extend counted)⟩
    rw [Datum.expr, Eval.expr]
    exact (Run.bind_of_ok ran).trans made
  | @Stands.dict _ ref entries _ keyed all =>
    obtain ⟨ks, keys, distinct⟩ := keyed
    rw [Dict.keys, List.map_map] at keys
    have new (k : Key) (_ : k ∈ ks) : Dict.empty.index[k]? = Option.none := Std.HashMap.getElem?_empty
    obtain ⟨d, ws, cells, ran, more, listed, keys', stand⟩ := all.eval keys distinct new m
    have pushed := Cells.Extends.dict cells d
    have made : Run.ofWork (Work.onHeap (HeapM.newDict d)) (m.withCells cells) =
        .ok (.dict cells.dicts.size) ((m.withCells cells).withCells { cells with dicts := cells.dicts.push d }) :=
      Run.ofWork_onHeap rfl
    have found : ({ cells with dicts := cells.dicts.push d } : Cells).dict cells.dicts.size = d := by
      simp [Cells.dict]
    have listed' : d.toList = ws := listed
    refine ⟨.dict cells.dicts.size, _, ?_, more.trans pushed, .dict (by simp) ?_ ?_⟩
    · rw [Datum.expr, Eval.expr]
      exact (Run.bind_of_ok ran).trans made
    · rw [found, Dict.keys, listed']
      refine ⟨ks, ?_, distinct⟩
      rw [List.map_map]
      exact keys'
    · rw [found, listed']
      exact stand.extend pushed

theorem StandAll.eval {vs : List Value} {ds : List Datum} (all : StandAll h vs ds) (m : Machine) :
    ∃ ws cells, Eval.all call (Datum.exprs ds) m = .ok ws (m.withCells cells) ∧ m.heap.Extends cells ∧
      StandAll cells ws ds := by
  match all with
  | .nil => exact ⟨[], m.heap, by rw [Datum.exprs, Eval.all]; rfl, .refl _, .nil⟩
  | .cons first rest =>
    obtain ⟨w, cells, ran, more, stands⟩ := first.eval m
    obtain ⟨ws, cells', ran', more', stands'⟩ := rest.eval (m.withCells cells)
    refine ⟨w :: ws, cells', ?_, more.trans more', .cons (stands.extend more') stands'⟩
    rw [Datum.exprs, Eval.all]
    exact (Run.bind_of_ok ran).trans ((Run.bind_of_ok ran').trans rfl)

/-- New keys are added one by one. -/
theorem StandEntries.eval {vs : List (Value × Value)} {ds : List (Datum × Datum)} (all : StandEntries h vs ds)
    {ks : List Key} (keys : vs.map (·.1.key) = ks.map Except.ok) (distinct : ks.Nodup) {built : Dict}
    (new : ∀ k ∈ ks, built.index[k]? = none) (m : Machine) :
    ∃ result ws cells, Eval.entries call built (Datum.exprsOfEntries ds) m = .ok result (m.withCells cells) ∧
      m.heap.Extends cells ∧ result.toList = built.toList ++ ws ∧ ws.map (·.1.key) = ks.map Except.ok ∧
      StandEntries cells ws ds := by
  match all with
  | .nil =>
    exact ⟨built, [], m.heap, by rw [Datum.exprsOfEntries, Eval.entries]; rfl, .refl _, by simp, keys, .nil⟩
  | @StandEntries.cons _ v x v' x' vs ds key_stands value_stands rest =>
    obtain ⟨k, ks, rfl⟩ := List.exists_cons_of_ne_nil (l := ks) (by rintro rfl; cases keys)
    obtain ⟨here, later⟩ := List.cons.inj keys
    obtain ⟨apart, distinct⟩ := List.nodup_cons.1 distinct
    rw [List.forall_mem_cons] at new
    obtain ⟨key, cells₁, ran₁, more₁, stands₁⟩ := key_stands.eval m
    obtain ⟨value, cells₂, ran₂, more₂, stands₂⟩ := value_stands.eval (m.withCells cells₁)
    have keyed : key.key = .ok k := (stands₁.key_eq key_stands).trans here
    have inserted (n : Machine) : Run.ofWork (Work.ofExcept (built.insert key value)) n =
        .ok (built.put k key value) n := by
      rw [Dict.insert, keyed]
      exact Run.ofWork_ofExcept _
    have new' (k' : Key) (mem : k' ∈ ks) : (built.put k key value).index[k']? = Option.none :=
      Dict.index_put new.1 (fun same => apart (same ▸ mem)) (new.2 k' mem) key value
    obtain ⟨result, ws, cells₃, ran₃, more₃, listed, keys₃, stands₃⟩ :=
      rest.eval later distinct new' (m.withCells cells₂)
    refine ⟨result, (key, value) :: ws, cells₃, ?_, more₁.trans (more₂.trans more₃), ?_, ?_, ?_⟩
    · rw [Datum.exprsOfEntries, Eval.entries]
      refine (Run.bind_of_ok ran₁).trans ((Run.bind_of_ok ran₂).trans ?_)
      exact (Run.bind_of_ok (inserted _)).trans ran₃
    · rw [listed, Dict.toList_put new.1, List.append_assoc]
      rfl
    · rw [List.map_cons, List.map_cons, keyed, keys₃]
    · exact .cons (stands₁.extend (more₂.trans more₃)) (stands₂.extend more₃) stands₃

end

/-! ### Reading back -/

/-- Running the assignment binds `y` to a value that stands for the datum. -/
theorem Stands.perform {v : Value} {d : Datum} (stands : Stands h v d) (m : Machine) (limits : Limits) :
    ∃ w cells, m.perform limits [.mk 1 (.assign [.name "y"] d.expr)] =
        ⟨Option.none, (m.withCells cells).bind "y" w⟩ ∧ Stands cells w d := by
  let call := Call.value (Call.function limits.turns limits.depth)
  obtain ⟨w, cells, ran, -, stands'⟩ := @Stands.eval h call v d stands m
  have statement : Exec.statement ⟨call, limits.turns⟩ (.assign [.name "y"] d.expr) m =
      .ok .normal ((m.withCells cells).bind "y" w) := by
    rw [Exec.statement]
    refine (Run.bind_of_ok ran).trans ?_
    rfl
  have program : Run.program limits [.mk 1 (.assign [.name "y"] d.expr)] m =
      .ok () ((m.withCells cells).bind "y" w) := by
    have traced : Run.tracing 1 (Exec.statement ⟨call, limits.turns⟩ (.assign [.name "y"] d.expr)) m =
        .ok .normal ((m.withCells cells).bind "y" w) := by
      rw [Run.tracing, statement]
    have block : Exec.block ⟨call, limits.turns⟩ [.mk 1 (.assign [.name "y"] d.expr)] m =
        .ok .normal ((m.withCells cells).bind "y" w) := by
      rw [Exec.block]
      refine (Run.bind_of_ok traced).trans ?_
      simp only [Exec.block]
      rfl
    exact (Run.bind_of_ok block).trans rfl
  refine ⟨w, cells, ?_, stands'⟩
  rw [Machine.perform, program]

/-- What `repr` writes for plain data is read back as the same data, if the least integer is not in it. -/
theorem Engine.execute_repr {v : Value} {d : Datum} (stands : Stands h v d) (shallow : d.depth ≤ 40)
    (limits : Limits) (clock : Clock) :
    let ran := (Engine.start limits clock).execute ("y = " ++ v.repr h)
    (ran.1.success = true ∧ ∃ w, ran.2.names.entries = [("y", w)] ∧ Stands ran.2.heap w d) ↔
      Int64.minValue ∉ d.ints := by
  intro ran
  have text : "y = " ++ v.repr h = String.ofList d.assignment := by
    rw [stands.repr (Nat.le_trans shallow (by decide)), ← String.toList_inj, String.toList_append]
    simp [Datum.assignment]
  have run : ran = (Engine.start limits clock).settle
      ((Engine.start limits clock).machine.interpret limits (String.ofList d.assignment)) := by
    rw [← text]
    rfl
  by_cases least : Int64.minValue ∈ d.ints
  · have refused : ran.1.success = false := by
      rw [run, Machine.interpret, d.parse_least least]
      rfl
    simp [refused, least]
  · have small : 2 * d.depth + 2 ≤ 82 := by omega
    obtain ⟨w, cells, performed, stands'⟩ := stands.perform (Engine.start limits clock).machine limits
    have ended : ran = (Engine.start limits clock).settle
        ⟨none, ((Engine.start limits clock).machine.withCells cells).bind "y" w⟩ := by
      rw [run, Machine.interpret, d.parse_assignment least (Nat.le_trans small (by decide))]
      exact congrArg _ performed
    rw [ended]
    exact iff_of_true ⟨rfl, w, rfl, stands'⟩ least

theorem Engine.execute_repr_of_nested :
    let h : Cells := ⟨#[#[.int (-7), .dict 0]], #[Dict.empty.put [.str "it's"] (.str "it's") (.tuple 0 [.none])], 1⟩
    let d : Datum := .list [.int (-7), .dict [(.str "it's", .tuple [.none])]]
    let ran := (Engine.start .default ⟨.ofInt64 0, .ofInt64 0⟩).execute ("y = " ++ (Value.list 0).repr h)
    ran.1.success = true ∧ ∃ w, ran.2.names.entries = [("y", w)] ∧ Stands ran.2.heap w d := by
  intro h d ran
  have listed : (h.dict 0).toList = [(.str "it's", .tuple 0 [.none])] :=
    Dict.toList_put Std.HashMap.getElem?_empty _ _
  have keyed : DistinctKeys (h.dict 0).keys := by
    rw [Dict.keys, listed]
    exact ⟨[[.str "it's"]], rfl, List.nodup_cons.2 ⟨List.not_mem_nil, .nil⟩⟩
  have entries : StandEntries h (h.dict 0).toList [(.str "it's", .tuple [.none])] := by
    rw [listed]
    exact .cons (.str _) (.tuple (.cons .none .nil)) .nil
  have stands : Stands h (.list 0) d :=
    .list (by decide) (.cons (.int _) (.cons (.dict (by decide) keyed entries) .nil))
  exact (Engine.execute_repr stands (by decide) _ _).2 (by decide)

/-- The least integer is written as a sign and a number that is too large. -/
theorem Engine.execute_repr_least :
    Stands .empty (.int Int64.minValue) (.int Int64.minValue) ∧
      ((Engine.start .default ⟨.ofInt64 0, .ofInt64 0⟩).execute
        ("y = " ++ (Value.int Int64.minValue).repr .empty)).1 =
      ⟨false, "", "", some "Traceback (most recent call last):\n  File \"<kernel>\", line 1\nSyntaxError: integer literal too large (integers are 64-bit)\n"⟩ := by
  have text : "y = " ++ (Value.int Int64.minValue).repr .empty =
      String.ofList (Datum.int Int64.minValue).assignment := by
    rw [(Stands.int _).repr (by decide), ← String.toList_inj, String.toList_append]
    simp [Datum.assignment]
  refine ⟨.int _, ?_⟩
  have rendered : (Fault.ofSyntaxError (tooLarge 1)).render = "Traceback (most recent call last):\n  File \"<kernel>\", line 1\nSyntaxError: integer literal too large (integers are 64-bit)\n" := by
    decide +kernel
  rw [text, Engine.execute, Machine.interpret, Datum.parse_least _ (by decide), ← rendered]
  rfl

end SnippetKernel
