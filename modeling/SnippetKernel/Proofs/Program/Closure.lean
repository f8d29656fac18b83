import SnippetKernel.Program.Exec
import SnippetKernel.Proofs.Program.Library

/-! Properties of pieces of a program that are closed under putting pieces together. A property may depend on where
the piece runs and on what is said of its result. To show that all programs have it, it is enough to look at the
smallest pieces and at the ways of putting them together. -/
namespace SnippetKernel

namespace Source

mutual

/-- Some `global` statement stands there, be it in a function that is defined there. -/
def Stmt.hasGlobal : Stmt → Bool
  | .mk _ kind => kind.hasGlobal

def StmtKind.hasGlobal : StmtKind → Bool
  | .global _ => true
  | .cond branches orelse => branchesHaveGlobal branches || blockHasGlobal orelse
  | .loop _ body | .each _ _ body | .define _ _ body => blockHasGlobal body
  | .attempt body handlers orelse final =>
    blockHasGlobal body || handlersHaveGlobal handlers || blockHasGlobal orelse || blockHasGlobal final
  | _ => false

def Handler.hasGlobal : Handler → Bool
  | .mk _ _ body => blockHasGlobal body

def blockHasGlobal : List Stmt → Bool
  | [] => false
  | stmt :: rest => stmt.hasGlobal || blockHasGlobal rest

def branchesHaveGlobal : List (Expr × List Stmt) → Bool
  | [] => false
  | (_, body) :: rest => blockHasGlobal body || branchesHaveGlobal rest

def handlersHaveGlobal : List Handler → Bool
  | [] => false
  | handler :: rest => handler.hasGlobal || handlersHaveGlobal rest

end

end Source

open Source

/-- Where a piece of a program runs. -/
inductive Place where
  /-- In a call, where statements run. -/
  | call
  /-- Anywhere; but the piece binds no names other than these. -/
  | only (names : List String)

/-- The piece may bind the name. -/
def Place.Allows : Place → String → Prop
  | call, _ => True
  | only names, name => name ∈ names

/-- What a statement returns is within the region. -/
def Flow.Within (R : Region) : Flow → Prop
  | .ret v => v.Within R
  | _ => True

namespace Run

variable {α β : Type} {R : Region} {may : Prop}
  {P : Place → ∀ {α : Type}, (α → Prop) → Run α → Prop}

/-- The property is closed. `P p good run` says of a piece that runs at `p` what the property is about, and that
its result is `good`; values are within the region, and `may` says whether there are `global` statements. -/
structure Closed (R : Region) (may : Prop) (P : Place → ∀ {α : Type}, (α → Prop) → Run α → Prop) : Prop where
  done (p : Place) {α : Type} {good : α → Prop} {a : α} : good a → P p good (pure a)
  halt (p : Place) {α : Type} {good : α → Prop} (h : Halt) : P p good (throw h)
  andThen {p : Place} {α β : Type} {good : α → Prop} {best : β → Prop} {run : Run α} {next : α → Run β} :
    P p good run → (∀ a, good a → P p best (next a)) → P p best (run >>= next)
  ofWork (p : Place) {α : Type} {good : α → Prop} {work : Work α} :
    Work.Stays R good work → P p good (Run.ofWork work)
  lookup (p : Place) (name : String) : P p (Value.Within R) (Run.lookup name)
  bind {p : Place} {name : String} {v : Value} :
    p.Allows name → v.Within R → P p (fun _ => True) (Run.bind name v)
  keeping (p : Place) {α : Type} {good : α → Prop} {names : List String} {run : Run α} :
    P (.only names) good run → P p good (Run.keeping names run)
  unbind (name : String) : P .call (fun _ => True) (Run.unbind name)
  unbinding {α : Type} {good : α → Prop} {run : Run α} (name : String) :
    P .call good run → P .call good (run.ensure (·.unbind name))
  attempt {α : Type} {good : α → Prop} {run : Run α} :
    P .call good run → P .call (fun outcome => ∀ a, outcome = .ok a → good a) run.attempt
  tracing {α : Type} {good : α → Prop} {run : Run α} (line : Nat) :
    P .call good run → P .call good (Run.tracing line run)
  whileHandling {α : Type} {good : α → Prop} {run : Run α} (handled : Handled) :
    P .call good run → P .call good (Run.whileHandling handled run)
  reraise : P .call (Flow.Within R) Run.reraise
  newCode {code : Code} : (blockHasGlobal code.body → may) → P .call R.codes (Run.newCode code)
  declareGlobal (names : List String) : may → P .call (fun _ => True) (Run.declareGlobal names)

namespace Closed

variable (closed : Closed R may P) {p : Place}

include closed

theorem any {p : Place} {work : Work α} {next : α → Run β} {best : β → Prop}
    (first : Work.Stays R (fun _ => True) work) (second : ∀ a, P p best (next a)) :
    P p best (Run.ofWork work >>= next) := closed.andThen (closed.ofWork p first) fun a _ => second a

/-- The truth of a value decides how it goes on. -/
theorem test (v : Value) {good : α → Prop} {yes no : Run α} (first : P p good yes) (second : P p good no) :
    P p good (do if ← Work.truthy v then yes else no) := by
  apply closed.any (.truthy v)
  intro truth
  cases truth with
  | false => exact second
  | true => exact first

theorem map {good : α → Prop} {best : β → Prop} {run : Run α} {f : α → β} (first : P p good run)
    (h : ∀ a, good a → best (f a)) : P p best (f <$> run) := by
  rw [map_eq_pure_bind]
  exact closed.andThen first fun a good => closed.done p (h a good)

/-! ### Loops -/

/-- What a loop does after a turn. -/
theorem turn (flow : Flow) {rest : Run Flow} (goesOn : P p (Flow.Within R) rest) :
    flow.Within R → P p (Flow.Within R) (match flow with
      | .stop => return .normal
      | .ret v => return .ret v
      | _ => rest) := by
  intro here
  cases flow with
  | normal => exact goesOn
  | next => exact goesOn
  | stop => exact closed.done p trivial
  | ret v => exact closed.done p here

theorem whileTrue {cond : Run Bool} {body : Run Flow} (conds : P p (fun _ => True) cond)
    (bodies : P p (Flow.Within R) body) (turns : Nat) : P p (Flow.Within R) (Run.whileTrue cond body turns) := by
  induction turns with
  | zero => exact closed.halt p _
  | succ turns ih =>
    apply closed.andThen conds
    intro holds _
    cases holds with
    | false => exact closed.done p trivial
    | true => exact closed.andThen bodies fun flow => closed.turn flow ih

theorem forEach {body : Value → Run Flow} (bodies : ∀ v, v.Within R → P p (Flow.Within R) (body v))
    {items : List Value} (inside : ∀ v ∈ items, v.Within R) : P p (Flow.Within R) (Run.forEach body items) := by
  induction items with
  | nil => exact closed.done p trivial
  | cons item rest ih =>
    rw [List.forall_mem_cons] at inside
    apply closed.andThen (bodies item inside.1)
    intro flow
    exact closed.turn flow (ih inside.2)

theorem forRange {body : Value → Run Flow} (bodies : ∀ v, v.Within R → P p (Flow.Within R) (body v))
    (r : Range) (i left : Nat) : P p (Flow.Within R) (Run.forRange body r i left) := by
  induction left generalizing i with
  | zero => exact closed.done p trivial
  | succ left ih =>
    unfold Run.forRange
    split
    · exact closed.done p trivial
    · apply closed.andThen (bodies _ (Value.within_int _))
      intro flow
      exact closed.turn flow (ih _)

theorem collect {element : Value → Run (Option Value)}
    (elements : ∀ v, v.Within R → P p (fun found => ∀ w, found = some w → w.Within R) (element v))
    {items : List Value} (inside : ∀ v ∈ items, v.Within R) {found : Array Value}
    (already : ∀ v ∈ found, v.Within R) :
    P p (fun found => ∀ v ∈ found, v.Within R) (Run.collect element found items) := by
  induction items generalizing found with
  | nil => exact closed.done p already
  | cons item rest ih =>
    rw [List.forall_mem_cons] at inside
    apply closed.andThen (elements item inside.1)
    intro new new_within
    cases new with
    | none => exact ih inside.2 already
    | some v =>
      apply ih inside.2
      intro w mem
      obtain mem | rfl := Array.mem_push.1 mem
      · exact already w mem
      · exact new_within w rfl

/-! ### Modules, exceptions -/

theorem load (modules : List (String × Option String)) : P .call (fun _ => True) (Run.load modules) := by
  induction modules with
  | nil => exact closed.done _ trivial
  | cons entry rest ih =>
    unfold Run.load
    split
    · exact closed.andThen (closed.bind trivial (Value.within_module _)) fun _ _ => ih
    · exact closed.any (.raise _ _) fun _ => ih

theorem raiseValue (v : Value) : P p (Flow.Within R) (Run.raiseValue v) := by
  unfold Run.raiseValue
  split
  · exact closed.halt p _
  · exact closed.ofWork p (.raise _ _)
  · exact closed.ofWork p (.raiseTypeError _)

omit closed in
mutual

theorem isCaughtBy (closed : Closed R may P) (kind : ExceptionKind) (v : Value) :
    P p (fun _ => True) (Run.isCaughtBy kind v) := by
  unfold Run.isCaughtBy
  split
  · exact closed.done p trivial
  · exact isCaughtByAny closed kind _
  · exact closed.ofWork p (.raiseTypeError _)

theorem isCaughtByAny (closed : Closed R may P) (kind : ExceptionKind) (classes : List Value) :
    P p (fun _ => True) (Run.isCaughtByAny kind classes) := by
  cases classes with
  | nil =>
    simp only [Run.isCaughtByAny]
    exact closed.done p trivial
  | cons v rest =>
    simp only [Run.isCaughtByAny]
    apply closed.andThen (isCaughtBy closed kind v)
    intro caught _
    cases caught with
    | false => exact isCaughtByAny closed kind rest
    | true => exact closed.done p trivial

end

theorem handlingAs (handled : Handled) (name : Option String) {body : Run Flow}
    (inner : P .call (Flow.Within R) body) : P .call (Flow.Within R) (Run.handlingAs handled name body) := by
  have inside := closed.whileHandling handled inner
  cases name with
  | none => exact inside
  | some name =>
    have bound : P .call (fun _ => True) (Run.bind name (.exception handled.id handled.exception)) :=
      closed.bind trivial (Value.within_exception _ _)
    exact closed.andThen bound fun _ _ => closed.unbinding name inside

theorem handling (fault : Fault) (name : Option String) {body : Run Flow}
    (inner : P .call (Flow.Within R) body) : P .call (Flow.Within R) (Run.handling fault name body) := by
  unfold Run.handling
  split
  · exact closed.handlingAs _ name inner
  · exact closed.any (.onHeap HeapM.stays_freshId) fun id => closed.handlingAs _ name inner

theorem ofAttempt {good : α → Prop} {outcome : Except Fault α} (h : ∀ a, outcome = .ok a → good a) :
    P p good (Run.ofAttempt outcome) := by
  cases outcome with
  | ok a => exact closed.done p (h a rfl)
  | error f => exact closed.halt p _

end Closed

end Run

end SnippetKernel
