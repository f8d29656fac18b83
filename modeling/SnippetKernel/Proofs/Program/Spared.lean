import SnippetKernel.Proofs.Program.Balance
import SnippetKernel.Proofs.Program.Restoring

/-! Expressions spare the namespace. Where no function that can be reached declares names to be those of the namespace,
an expression leaves the namespace as it was, however it ends: calls bind names in their own frames, and a comprehension
gives its names their bindings back. -/
namespace SnippetKernel

open Source

/-! ### What can be reached -/

namespace Machine

/-- The value is bound to a name, in the namespace or in a call that is running. -/
def Binds (m : Machine) (v : Value) : Prop :=
  (∃ entry ∈ m.names.entries, entry.2 = v) ∨ ∃ frame ∈ m.frames, ∃ entry ∈ frame.locals.entries, entry.2 = v

def Reaches (m : Machine) (v : Value) : Prop := m.heap.toCells.Reachable m.Binds v

/-- No function that can be reached has a `global` statement, and no call that is running has come to one. -/
structure WithoutGlobals (m : Machine) : Prop where
  running : ∀ frame ∈ m.frames, frame.globals = []
  reached : ∀ id name code defaults, m.Reaches (.function id name code defaults) →
    blockHasGlobal (m.heap.code code).body = false

/-- What can be reached, and all that does not exist yet. -/
def region (m : Machine) : Region where
  lists ref := m.Reaches (.list ref) ∨ m.heap.lists.size ≤ ref
  dicts ref := m.Reaches (.dict ref) ∨ m.heap.dicts.size ≤ ref
  codes ref := (∃ id name defaults, m.Reaches (.function id name ref defaults)) ∨ m.heap.codes.size ≤ ref

variable {m : Machine}

mutual

theorem within_region (v : Value) (reached : m.Reaches v) : v.Within m.region := by
  match v with
  | .list ref => exact .inl reached
  | .listMethod ref _ => exact .inl (.ofListMethod reached)
  | .dict ref => exact .inl reached
  | .dictMethod ref _ => exact .inl (.ofDictMethod reached)
  | .tuple _ items => exact allWithin_region items fun v mem => .part reached mem
  | .tupleMethod _ items _ => exact allWithin_region items fun v mem => .part (.ofTupleMethod reached) mem
  | .function id name code defaults =>
    constructor
    · exact .inl ⟨id, name, defaults, reached⟩
    · exact defaultsWithin_region defaults fun v mem => .default reached mem
  | .none | .bool _ | .int _ | .float _ | .str _ | .range _ => simp
  | .builtin _ | .type _ | .module _ | .exception .. => simp
  | .strMethod .. | .streamMethod .. | .stream _ => simp [Value.Within]

theorem allWithin_region (items : List Value) (reached : ∀ v ∈ items, m.Reaches v) :
    Value.AllWithin m.region items := by
  match items with
  | [] => trivial
  | v :: rest =>
    rw [List.forall_mem_cons] at reached
    exact ⟨within_region v reached.1, allWithin_region rest reached.2⟩

theorem defaultsWithin_region (defaults : List (Option Value)) (reached : ∀ v, some v ∈ defaults → m.Reaches v) :
    Value.DefaultsWithin m.region defaults := by
  match defaults with
  | [] => trivial
  | Option.none :: rest => exact defaultsWithin_region rest fun v mem => reached v (.tail _ mem)
  | some v :: rest =>
    exact ⟨within_region v (reached v List.mem_cons_self),
      defaultsWithin_region rest fun v mem => reached v (.tail _ mem)⟩

end

/-! ### The invariant -/

/-- All that is bound is within the region, calls bind their names in their own frames, and no function of the region
has a `global` statement. -/
structure Within (R : Region) (m : Machine) : Prop where
  names : m.names.Within R
  locals : ∀ frame ∈ m.frames, frame.locals.Within R ∧ frame.globals = []
  cells : m.heap.toCells.Within R
  codes : ∀ ref, R.codes ref → blockHasGlobal (m.heap.code ref).body = false
  newCodes : ∀ ref, m.heap.codes.size ≤ ref → R.codes ref

theorem cells_within_region (m : Machine) : m.heap.toCells.Within m.region := by
  constructor
  · intro ref here v mem
    obtain reached | new := here
    · exact within_region v (.item reached mem)
    · have nothing : m.heap.toCells.list ref = #[] := by simp [Cells.list, new]
      simp [nothing] at mem
  · intro ref here key value mem
    obtain reached | new := here
    · exact ⟨within_region key (.key reached mem), within_region value (.value reached mem)⟩
    · have nothing : m.heap.toCells.dict ref = .empty := by simp [Cells.dict, new]
      simp [nothing, Dict.empty] at mem
  · exact fun ref new => .inr new
  · exact fun ref new => .inr new

theorem WithoutGlobals.within_region (clean : m.WithoutGlobals) : m.Within m.region := by
  constructor
  · exact fun entry mem => Machine.within_region _ (.root (.inl ⟨entry, mem, rfl⟩))
  · intro frame mem
    constructor
    · exact fun entry among => Machine.within_region _ (.root (.inr ⟨frame, mem, entry, among, rfl⟩))
    · exact clean.running frame mem
  · exact m.cells_within_region
  · intro ref here
    obtain ⟨id, name, defaults, reached⟩ | new := here
    · exact clean.reached id name ref defaults reached
    · have none : m.heap.code ref = default := by simp [Heap.code, new]
      rw [none]
      rfl
  · exact fun ref new => .inr new

variable {R : Region}

/-- Whatever can be reached is within the region. -/
theorem Within.reached (within : m.Within R) {v : Value} (reached : m.Reaches v) : v.Within R := by
  induction reached with
  | root bound =>
    obtain ⟨entry, mem, rfl⟩ | ⟨frame, running, entry, mem, rfl⟩ := bound
    · exact within.names entry mem
    · exact (within.locals frame running).1 entry mem
  | item _ mem ih => exact within.cells.list _ (by simpa only [Value.Within] using ih) _ mem
  | part _ mem ih => exact Value.within_tuple.1 ih _ mem
  | key _ mem ih => exact (within.cells.dict _ (by simpa only [Value.Within] using ih) _ _ mem).1
  | value _ mem ih => exact (within.cells.dict _ (by simpa only [Value.Within] using ih) _ _ mem).2
  | default _ mem ih => exact Value.defaultsWithin_iff.1 ih.2 _ mem
  | ofListMethod _ ih => simpa only [Value.Within] using ih
  | ofTupleMethod _ ih => simpa only [Value.Within] using ih
  | ofDictMethod _ ih => simpa only [Value.Within] using ih

theorem Within.withoutGlobals (within : m.Within R) : m.WithoutGlobals := by
  constructor
  · exact fun frame mem => (within.locals frame mem).2
  · exact fun id name code defaults reached => within.codes code (within.reached reached).1

/-! Binding names. -/

theorem Within.lookup? (within : m.Within R) {name : String} {v : Value} (found : m.lookup? name = some v) :
    v.Within R := by
  unfold Machine.lookup? at found
  obtain here | ⟨-, here⟩ := Option.or_eq_some_iff.1 found
  · obtain ⟨frame, inside, bound⟩ := Option.bind_eq_some_iff.1 here
    unfold localFrame? at inside
    split at inside
    · next first rest frames =>
      split at inside
      · cases inside
      · cases inside
        exact (within.locals frame (frames ▸ List.mem_cons_self)).1.find? bound
    · cases inside
  · exact within.names.find? here

theorem Within.binding? (within : m.Within R) {name : String} {v : Value} (found : m.binding? name = some v) :
    v.Within R := by
  unfold Machine.binding? at found
  split at found
  · next frame inside =>
    have meant : m.lookup? name = some v := by simp [Machine.lookup?, inside, found]
    exact within.lookup? meant
  · exact within.names.find? found

/-- Outside of all calls names are bound in the namespace. -/
theorem binding?_outside (outside : m.depth = 0) (name : String) : m.binding? name = m.names.find? name := by
  have none : m.frames = [] := List.length_eq_zero_iff.1 outside
  simp [Machine.binding?, localFrame?, none]

/-- Within a call names are bound in its frame. -/
theorem Within.bind (within : m.Within R) (name : String) {v : Value} (v_within : v.Within R) :
    (m.bind name v).Within R ∧ (m.bind name v).depth = m.depth ∧
      (m.bind name v).names = if m.depth = 0 then m.names.set name v else m.names := by
  obtain ⟨names, heap, frames, handling, writes, clock⟩ := m
  cases frames with
  | nil => exact ⟨⟨within.names.set v_within, within.locals, within.cells, within.codes, within.newCodes⟩, rfl, rfl⟩
  | cons frame outer =>
    have inner := within.locals frame List.mem_cons_self
    have plain : frame.globals.contains name = false := by simp [inner.2]
    simp only [Machine.bind, plain]
    refine ⟨⟨within.names, ?_, within.cells, within.codes, within.newCodes⟩, rfl, rfl⟩
    intro other mem
    obtain rfl | mem := List.mem_cons.1 mem
    · exact ⟨inner.1.set v_within, inner.2⟩
    · exact within.locals other (.tail _ mem)

theorem Within.unbind (within : m.Within R) (name : String) :
    (m.unbind name).Within R ∧ (m.unbind name).depth = m.depth ∧
      (m.unbind name).names = if m.depth = 0 then m.names.remove name else m.names := by
  obtain ⟨names, heap, frames, handling, writes, clock⟩ := m
  cases frames with
  | nil => exact ⟨⟨within.names.remove name, within.locals, within.cells, within.codes, within.newCodes⟩, rfl, rfl⟩
  | cons frame outer =>
    have inner := within.locals frame List.mem_cons_self
    have plain : frame.globals.contains name = false := by simp [inner.2]
    simp only [Machine.unbind, plain]
    refine ⟨⟨within.names, ?_, within.cells, within.codes, within.newCodes⟩, rfl, rfl⟩
    intro other mem
    obtain rfl | mem := List.mem_cons.1 mem
    · exact ⟨inner.1.remove name, inner.2⟩
    · exact within.locals other (.tail _ mem)

theorem Within.rebind (within : m.Within R) {saved : List (String × Option Value)}
    (inside : ∀ name v, (name, some v) ∈ saved → v.Within R) :
    (Run.rebind m saved).Within R ∧ (Run.rebind m saved).depth = m.depth ∧
      (Run.rebind m saved).names = if m.depth = 0 then m.names.restore saved else m.names := by
  induction saved generalizing m with
  | nil => exact ⟨within, rfl, by simp [Run.rebind, Namespace.restore]⟩
  | cons entry rest ih =>
    have others : ∀ name v, (name, some v) ∈ rest → v.Within R := fun name v mem => inside name v (.tail _ mem)
    obtain ⟨name, _ | v⟩ := entry
    · obtain ⟨within', depth, names⟩ := within.unbind name
      obtain ⟨whole, height, bound⟩ := ih within' others
      refine ⟨whole, height.trans depth, ?_⟩
      simp only [Run.rebind, bound, depth, names, Namespace.restore]
      split <;> rfl
    · obtain ⟨within', depth, names⟩ := within.bind name (inside name v List.mem_cons_self)
      obtain ⟨whole, height, bound⟩ := ih within' others
      refine ⟨whole, height.trans depth, ?_⟩
      simp only [Run.rebind, bound, depth, names, Namespace.restore]
      split <;> rfl

end Machine

/-! ### The guarantee -/

/-- What may become of the namespace. A piece that runs in a call leaves it as it was; outside of all calls a piece
binds the names that it may bind. -/
def Place.Spares (p : Place) (depth : Nat) (before after : Namespace Value) : Prop :=
  match depth, p with
  | 0, .call => True
  | 0, .only names => Namespace.Rebound names before after
  | _ + 1, _ => after = before

theorem Place.spares_of_same (p : Place) (depth : Nat) {before after : Namespace Value} (same : after = before) :
    p.Spares depth before after := by
  subst same
  match depth, p with
  | 0, .call => trivial
  | 0, .only _ => exact .refl
  | _ + 1, _ => exact rfl

/-- As many calls are running, and the namespace is spared. -/
structure Machine.Spared (p : Place) (m n : Machine) : Prop where
  depth : n.depth = m.depth
  names : p.Spares m.depth m.names n.names

theorem Machine.Spared.trans {p : Place} {l m n : Machine} (first : l.Spared p m) (second : m.Spared p n) :
    l.Spared p n := by
  refine ⟨second.depth.trans first.depth, ?_⟩
  have names := second.names
  rw [first.depth] at names
  match l.depth, p, first.names, names with
  | 0, .call, _, _ => trivial
  | 0, .only _, before, after => exact before.trans after
  | _ + 1, _, before, after => exact Eq.trans after before

variable {α : Type} {R : Region} {good : α → Prop} {p : Place}

/-- The namespace is spared, and the machine stays within the region. -/
def sparing (R : Region) (p : Place) : Guarantee where
  inv := Machine.Within R
  step := Machine.Spared p
  lost := Machine.Within R
  refl _ := ⟨rfl, p.spares_of_same _ rfl⟩
  trans := .trans
  lost_of_inv := id

namespace Run

variable {run : Run α}

theorem sparing_ofWork {work : Work α} (stays : Work.Stays R good work) :
    (sparing R p).Meets good (Run.ofWork work) := by
  apply Guarantee.Meets.ofWork stays
  · exact fun m within => within.cells
  · intro m cells writes clock within cells_within
    constructor
    · exact ⟨within.names, within.locals, cells_within, within.codes, within.newCodes⟩
    · exact ⟨rfl, p.spares_of_same _ rfl⟩

theorem sparing_bind {name : String} {v : Value} (allowed : p.Allows name) (v_within : v.Within R) :
    (sparing R p).Meets (fun _ => True) (Run.bind name v) := by
  apply Guarantee.Meets.change
  intro m inv
  obtain ⟨within, depth, names⟩ := Machine.Within.bind inv name v_within
  refine ⟨within, depth, ?_⟩
  rw [names]
  match m.depth, p, allowed with
  | 0, .call, _ => trivial
  | 0, .only _, allowed => exact .set v .refl allowed
  | _ + 1, _, _ => exact rfl

/-- Unbinding a name; only in a call it leaves the namespace as it was. -/
theorem sparing_unbound {m : Machine} (inv : m.Within R) (name : String) :
    (m.unbind name).Within R ∧ m.Spared .call (m.unbind name) := by
  obtain ⟨within, depth, names⟩ := inv.unbind name
  refine ⟨within, depth, ?_⟩
  rw [names]
  match m.depth with
  | 0 => trivial
  | _ + 1 => exact rfl

theorem sparing_unbind (name : String) : (sparing R .call).Meets (fun _ => True) (Run.unbind name) := by
  apply Guarantee.Meets.look
  intro m inv
  cases m.binding? name with
  | none => exact sparing_ofWork (.raise _ _) m inv
  | some _ => exact ⟨trivial, sparing_unbound inv name⟩

theorem sparing_unbinding (name : String) (inner : (sparing R .call).Meets good run) :
    (sparing R .call).Meets good (run.ensure (·.unbind name)) := by
  intro m inv
  apply Guarantee.Meets.enclosed id (fun _ n => n.unbind name) inner _ _ (fun _ lost => lost) m inv
  · exact fun m inv => inv
  · intro m n _ after step
    obtain ⟨within, more⟩ := sparing_unbound after name
    exact ⟨within, Machine.Spared.trans step more⟩

/-- Outside of all calls the names get back what they were bound to in the namespace; in a call the namespace was not
touched at all. -/
theorem sparing_keeping {names : List String} (inner : (sparing R (.only names)).Meets good run) :
    (sparing R p).Meets good (Run.keeping names run) := by
  apply Guarantee.Meets.look
  intro m inv
  let bindings (m : Machine) := names.map fun name => (name, m.binding? name)
  apply Guarantee.Meets.enclosed (G := sparing R p) id (fun m n => Run.rebind n (bindings m)) inner _ _
    (fun _ lost => lost) m inv
  · exact fun m inv => inv
  · intro m n before after step
    have inside : ∀ name v, (name, some v) ∈ bindings m → v.Within R := by
      intro name v mem
      obtain ⟨other, -, same⟩ := List.mem_map.1 mem
      exact Machine.Within.binding? before (Prod.mk.inj same).2
    obtain ⟨within, depth, bound⟩ := Machine.Within.rebind after inside
    refine ⟨within, depth.trans step.depth, p.spares_of_same _ ?_⟩
    have spared : (Place.only names).Spares m.depth m.names n.names := step.names
    rw [bound, show n.depth = m.depth from step.depth]
    by_cases outside : m.depth = 0
    · have saved : bindings m = m.names.saved names := by
        simp only [bindings, Namespace.saved, Machine.binding?_outside outside]
      rw [outside] at spared
      rw [if_pos outside, saved]
      exact Namespace.restore_saved spared
    · obtain ⟨k, inCall⟩ := Nat.exists_eq_succ_of_ne_zero outside
      rw [inCall] at spared
      rw [if_neg outside]
      exact spared

theorem sparing_whileHandling (handled : Handled) (inner : (sparing R .call).Meets good run) :
    (sparing R .call).Meets good (Run.whileHandling handled run) := by
  apply Guarantee.Meets.enclosed (fun m => { m with handling := handled :: m.handling })
    (fun _ n => { n with handling := n.handling.tail }) inner _ _ (fun _ lost => lost)
  · exact fun m within => ⟨within.names, within.locals, within.cells, within.codes, within.newCodes⟩
  · intro m n _ within step
    constructor
    · exact ⟨within.names, within.locals, within.cells, within.codes, within.newCodes⟩
    · exact ⟨step.depth, step.names⟩

theorem sparing_newCode {code : Code} (clean : blockHasGlobal code.body → False) :
    (sparing R .call).Meets R.codes (Run.newCode code) := by
  intro m within
  refine ⟨within.newCodes _ (Nat.le_refl _), ?_, rfl, Place.spares_of_same _ _ rfl⟩
  refine ⟨within.names, within.locals, within.cells, ?_, ?_⟩
  · intro ref here
    simp only [Heap.code, Array.getElem?_push]
    split
    · exact Bool.eq_false_iff.2 clean
    · exact within.codes ref here
  · intro ref new
    simp only [Array.size_push] at new
    exact within.newCodes ref (by omega)

/-- A call in a frame of its own, from anywhere. -/
theorem sparing_inFrame {frame : Frame} (locals : frame.locals.Within R) (undeclared : frame.globals = [])
    (inner : (sparing R .call).Meets good run) : (sparing R p).Meets good (Run.inFrame frame run) := by
  apply Guarantee.Meets.enclosed (G := sparing R p) (fun m => { m with frames := frame :: m.frames })
    (fun _ n => { n with frames := n.frames.tail }) inner _ _ (fun _ lost => lost)
  · intro m within
    have all : ∀ other ∈ frame :: m.frames, other.locals.Within R ∧ other.globals = [] :=
      List.forall_mem_cons.2 ⟨⟨locals, undeclared⟩, within.locals⟩
    exact ⟨within.names, all, within.cells, within.codes, within.newCodes⟩
  · intro m n before within step
    have depth : n.frames.tail.length = m.frames.length := by
      rw [List.length_tail]
      exact Nat.sub_eq_of_eq_add step.depth
    have rest : ∀ other ∈ n.frames.tail, other.locals.Within R ∧ other.globals = [] :=
      fun other mem => within.locals other (List.mem_of_mem_tail mem)
    have same : n.names = m.names := step.names
    constructor
    · exact ⟨within.names, rest, within.cells, within.codes, within.newCodes⟩
    · exact ⟨depth, p.spares_of_same _ same⟩

theorem sparing_watch (stop : Machine → Bool) : (sparing R p).Meets (fun _ => True) (Run.watch stop) := by
  intro m inv
  unfold Run.watch
  split
  · exact inv
  · exact ⟨trivial, inv, (sparing R p).refl m⟩

/-- The guarantee that the namespace is spared is closed, as long as there are no `global` statements. -/
theorem closed_sparing (R : Region) : Closed R False fun p => (sparing R p).Meets where
  done _ := .done
  halt _ := .halt
  andThen := .andThen
  ofWork _ := sparing_ofWork
  lookup _ := .lookup (fun _ within _ _ => Machine.Within.lookup? within) fun _ => sparing_ofWork
  bind := sparing_bind
  keeping _ _ _ _ _ := sparing_keeping
  unbind := sparing_unbind
  unbinding := sparing_unbinding
  attempt := .attempt
  tracing := .tracing
  whileHandling := sparing_whileHandling
  reraise := .reraise fun _ => sparing_ofWork
  newCode := sparing_newCode
  declareGlobal _ never := never.elim

end Run

/-- Calls of functions spare the namespace, from anywhere. -/
theorem Call.sparing_functionUntil (R : Region) (stop : Machine → Bool) (turns room : Nat) :
    Run.Closed.Functions R False (fun p => (sparing R p).Meets) (functionUntil stop turns room) := by
  have closed := Run.closed_sparing R
  induction room with
  | zero =>
    apply Run.Closed.Functions.mk closed
    intro p ref defaults args keywords _ _ _ _
    exact Run.sparing_ofWork (.raise _ _)
  | succ room ih =>
    have calls := closed_value ih
    apply Run.Closed.Functions.mk closed
    intro p ref defaults args keywords here defaults_within inside named
    apply Guarantee.Meets.look
    intro m within
    apply closed_entered closed (p := p) defaults_within inside named _ m within
    intro locals locals_within
    apply Run.sparing_inFrame locals_within rfl
    apply Guarantee.Meets.andThen (Run.sparing_watch stop)
    intro _ _
    apply Guarantee.Meets.andThen
    · apply Exec.closed_block calls turns
      simp [within.codes ref here]
    · intro flow flow_within
      exact Guarantee.Meets.andThen (Run.sparing_watch stop) fun _ _ => .done flow_within

/-- A program without `global` statements brings no machine about in which there are some. -/
theorem Run.programUntil_withoutGlobals (limits : Limits) {body : List Stmt} (plain : blockHasGlobal body = false)
    {m : Machine} (clean : m.WithoutGlobals) (stop : Machine → Bool) :
    ((Run.programUntil stop limits body).leaves m).WithoutGlobals := by
  have calls := Call.closed_value (Call.sparing_functionUntil m.region stop limits.turns limits.depth)
  have meets : (sparing m.region .call).Meets (fun _ => True) (Run.programUntil stop limits body) :=
    .andThen (Exec.closed_block calls limits.turns body (by simp [plain])) fun _ _ => .done trivial
  exact (meets.lost_leaves clean.within_region).withoutGlobals

/-- After `x = 1` and `def f(x): return x * x`. -/
def squaring : Machine :=
  .start ⟨[("x", .int 1), ("f", .function 0 "f" 0 [none])]⟩
    ⟨.empty, #[⟨"f", [⟨"x", none⟩], [.mk 2 (.ret (some (.binary .mul (.name "x") (.name "x"))))]⟩]⟩ ⟨⟨0⟩, ⟨0⟩⟩

/-- `[f(x) for x in [2, last]]` -/
def squaresTo (last : Literal) : Expr :=
  .comprehension (.call (.name "f") [.name "x"] []) (.name "x") (.list [.literal (.int 2), .literal last]) none

end SnippetKernel
