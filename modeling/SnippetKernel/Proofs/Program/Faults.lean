import SnippetKernel.Proofs.Program.Noting
import SnippetKernel.Proofs.Program.Refusals

/-! What pieces of a program raise. As long as no block has noted an exception, it comes from the statement that is
running; after that it comes from a statement inside or from a call. -/
namespace SnippetKernel

open Source

/-- The statement that is running raised it. -/
def Fault.Own (f : Fault) : Prop := f.trace = []

/-- A statement's own exception is no `SyntaxError`. -/
def Halt.Ordinary : Halt → Prop
  | .fault f => f.Own → f.exception.Ordinary
  | .crash _ | .turns => True

/-- An exception has been noted. -/
def Halt.Passed : Halt → Prop
  | .fault f => ¬f.Own
  | .crash _ | .turns => True

theorem Halt.Passed.ordinary {halt : Halt} (passed : halt.Passed) : halt.Ordinary := by
  cases halt with
  | fault f => exact fun own => absurd own passed
  | crash | turns => trivial

namespace Run

variable {α β : Type} {run : Run α}

/-- What the piece raises itself is no `SyntaxError`. -/
abbrev Ordinary (run : Run α) : Prop := FailsWith Halt.Ordinary run

theorem ordinary_ofWork {work : Work α} (ordinary : work.Ordinary) : Ordinary (Run.ofWork work) := by
  rintro ⟨names, ⟨cells, codes⟩, frames, handling, writes, clock⟩ halt n failed
  simp only [Run.ofWork] at failed
  cases ended : work ⟨cells, clock, #[]⟩ with
  | ok a r =>
    rw [ended] at failed
    cases failed
  | error refusal r =>
    rw [ended] at failed
    cases refusal with
    | exception e =>
      cases failed
      exact fun _ => ordinary _ _ _ ended
    | crash message =>
      cases failed
      trivial

theorem Ordinary.ensure {after : Machine → Machine} (ordinary : Ordinary run) : Ordinary (run.ensure after) := by
  intro m halt n failed
  unfold Run.ensure at failed
  cases ended : run m with
  | ok a n =>
    rw [ended] at failed
    cases failed
  | error other n =>
    rw [ended] at failed
    have allowed := ordinary m other n ended
    cases other <;> cases failed <;> exact allowed

/-- An exception that was caught can be raised again. -/
theorem Ordinary.attempt {next : Except Fault α → Run β} (ordinary : Ordinary run)
    (done : ∀ a, Ordinary (next (.ok a))) (caught : ∀ f, Halt.Ordinary (.fault f) → Ordinary (next (.error f))) :
    Ordinary (run.attempt >>= next) := by
  intro m halt n failed
  change EStateM.bind run.attempt next m = .error halt n at failed
  unfold EStateM.bind Run.attempt at failed
  cases ended : run m with
  | ok a n =>
    rw [ended] at failed
    exact done a _ _ _ failed
  | error other n =>
    rw [ended] at failed
    have allowed := ordinary m other n ended
    cases other with
    | fault f => exact caught f allowed _ _ _ failed
    | crash | turns =>
      cases failed
      exact allowed

/-! ### Names and handling -/

theorem ordinary_lookup (name : String) : Ordinary (Run.lookup name) := by
  apply FailsWith.look
  intro m
  split
  · exact .done _
  · exact ordinary_ofWork (by simp)

theorem ordinary_unbind (name : String) : Ordinary (Run.unbind name) := by
  apply FailsWith.look
  intro m
  split
  · exact .change _
  · exact ordinary_ofWork (by simp)

theorem Ordinary.keeping (names : List String) (ordinary : Ordinary run) : Ordinary (Run.keeping names run) :=
  .look fun _ => ordinary.ensure

theorem Ordinary.inFrame (frame : Frame) (ordinary : Ordinary run) : Ordinary (Run.inFrame frame run) :=
  .andThen (.change _) fun _ => ordinary.ensure

theorem Ordinary.whileHandling (handled : Handled) (ordinary : Ordinary run) :
    Ordinary (Run.whileHandling handled run) :=
  .andThen (.change _) fun _ => ordinary.ensure

theorem Ordinary.handling (f : Fault) (name : Option String) {body : Run Flow} (ordinary : Ordinary body) :
    Ordinary (Run.handling f name body) := by
  have handled (id : Nat) : Ordinary (Run.handlingAs ⟨f.exception, id⟩ name body) := by
    have inside := ordinary.whileHandling ⟨f.exception, id⟩
    cases name with
    | none => exact inside
    | some name => exact .andThen (.change _) fun _ => inside.ensure
  unfold Run.handling
  cases f.id with
  | none => exact .andThen (ordinary_ofWork (by simp)) handled
  | some id => exact handled id

mutual

theorem ordinary_isCaughtBy (kind : ExceptionKind) (v : Value) : Ordinary (Run.isCaughtBy kind v) := by
  unfold Run.isCaughtBy
  split
  · exact .done _
  · exact ordinary_isCaughtByAny kind _
  · exact ordinary_ofWork (by simp)

theorem ordinary_isCaughtByAny (kind : ExceptionKind) (classes : List Value) :
    Ordinary (Run.isCaughtByAny kind classes) := by
  cases classes with
  | nil =>
    simp only [Run.isCaughtByAny]
    exact .done _
  | cons v rest =>
    simp only [Run.isCaughtByAny]
    apply FailsWith.andThen (ordinary_isCaughtBy kind v)
    intro caught
    cases caught with
    | false => exact ordinary_isCaughtByAny kind rest
    | true => exact .done _

end

theorem ordinary_load (modules : List (String × Option String)) : Ordinary (Run.load modules) := by
  induction modules with
  | nil => exact .done _
  | cons entry rest ih =>
    unfold Run.load
    split
    · exact .andThen (.change _) fun _ => ih
    · exact .andThen (ordinary_ofWork (by simp)) fun _ => ih

/-! ### Loops -/

/-- What a loop does after a turn. -/
theorem ordinary_turn {rest : Run Flow} (ordinary : Ordinary rest) (flow : Flow) :
    Ordinary (match flow with
      | .stop => return .normal
      | .ret v => return .ret v
      | _ => rest : Run Flow) := by
  cases flow with
  | stop | ret => exact .done _
  | normal | next => exact ordinary

theorem Ordinary.whileTrue {cond : Run Bool} {body : Run Flow} (conds : Ordinary cond) (bodies : Ordinary body)
    (turns : Nat) : Ordinary (Run.whileTrue cond body turns) := by
  induction turns with
  | zero => exact .thrown trivial
  | succ turns ih =>
    apply FailsWith.andThen conds
    intro holds
    cases holds with
    | false => exact .done _
    | true => exact .andThen bodies (ordinary_turn ih)

theorem ordinary_forEach {body : α → Run Flow} (bodies : ∀ a, Ordinary (body a)) (items : List α) :
    Ordinary (Run.forEach body items) := by
  induction items with
  | nil => exact .done _
  | cons item rest ih => exact .andThen (bodies item) (ordinary_turn ih)

theorem ordinary_forRange {body : Value → Run Flow} (bodies : ∀ v, Ordinary (body v)) (r : Range) (i left : Nat) :
    Ordinary (Run.forRange body r i left) := by
  induction left generalizing i with
  | zero => exact .done _
  | succ left ih =>
    unfold Run.forRange
    split
    · exact .done _
    · exact .andThen (bodies _) (ordinary_turn (ih _))

theorem ordinary_collect {element : Value → Run (Option Value)} (elements : ∀ v, Ordinary (element v))
    (found : Array Value) (items : List Value) : Ordinary (Run.collect element found items) := by
  induction items generalizing found with
  | nil => exact .done _
  | cons item rest ih =>
    apply FailsWith.andThen (elements item)
    intro v
    cases v with
    | none => exact ih _
    | some v => exact ih _

theorem ordinary_visit {body : Value → Run Flow} (bodies : ∀ v, Ordinary (body v)) (v : Value) :
    Ordinary (Exec.visit v body) := by
  unfold Exec.visit
  split
  · exact ordinary_forRange bodies _ _ _
  · exact .andThen (ordinary_ofWork (by simp)) fun items => ordinary_forEach bodies items

end Run

/-! ### Sorting -/

namespace Keyed

variable {before : Keyed → Keyed → Except Exception Bool} (compared : ∀ x y, OrdinaryResult (before x y))

include compared

theorem ordinary_insertLast (x : Keyed) (sorted : List Keyed) : OrdinaryResult (insertLast before x sorted) := by
  induction sorted with
  | nil => simp [insertLast]
  | cons last rest ih => simp [insertLast, compared, ih]

theorem ordinary_sortByInsertion (xs : List Keyed) : OrdinaryResult (sortByInsertion before xs) := by
  have inserted (sorted : List Keyed) :
      OrdinaryResult (xs.foldlM (fun sorted x => insertLast before x sorted) sorted) := by
    induction xs generalizing sorted with
    | nil => simp
    | cons x xs ih => simp [ordinary_insertLast compared, ih]
  simp [sortByInsertion, inserted]

theorem ordinary_merge (done xs ys : List Keyed) : OrdinaryResult (merge before done xs ys) := by
  fun_induction merge before done xs ys with
  | case1 | case2 => simp
  | case3 done x xs y ys left right => simp [compared, left, right]

theorem ordinary_sort (xs : List Keyed) : OrdinaryResult (sort before xs) := by
  fun_induction sort before xs with
  | case1 xs short => exact ordinary_sortByInsertion compared xs
  | case2 xs long half front back => simp [front, back, ordinary_merge compared]

end Keyed

namespace Run

variable {keyOf : KeyOf} (keys : ∀ item, Ordinary (keyOf item))

include keys

theorem ordinary_keyed (items : List Value) : Ordinary (Run.keyed keyOf items) := by
  induction items with
  | nil => exact .done _
  | cons item rest ih => exact .andThen (keys item) fun _ => .andThen ih fun _ => .done _

theorem ordinary_sorted (reverse : Bool) (items : List Value) : Ordinary (Run.sorted keyOf reverse items) := by
  apply FailsWith.andThen (ordinary_keyed keys items)
  intro decorated
  apply ordinary_ofWork
  simp [Keyed.ordinary_sort, Keyed.before]

theorem ordinary_bestOf (want : Ordering) (champion : Keyed) (items : List Value) :
    Ordinary (Run.bestOf keyOf want champion items) := by
  induction items generalizing champion with
  | nil => exact .done _
  | cons item rest ih =>
    apply FailsWith.andThen (keys item)
    intro key
    exact .andThen (ordinary_ofWork (by simp)) fun _ => ih _

end Run

/-! ### Calls -/

/-- What calls raise themselves is no `SyntaxError`. -/
def ValueCaller.Ordinary (call : ValueCaller) : Prop :=
  ∀ callee args keywords, Run.Ordinary (call callee args keywords)

section

variable {callKey : Value → Value → Run Value} (keys : ∀ f item, Run.Ordinary (callKey f item))

include keys

theorem ListMethods.ordinary_keyOf (key : Option Value) (item : Value) :
    Run.Ordinary (ListMethods.keyOf callKey key item) := by
  unfold ListMethods.keyOf
  split
  · exact .done _
  · exact .done _
  · exact keys _ item

theorem ListMethods.ordinary_sort (ref : Nat) (args : List Value) (keywords : Keywords) :
    Run.Ordinary (ListMethods.sort callKey ref args keywords) := by
  apply FailsWith.andThen (Run.ordinary_ofWork (by simp))
  intro given
  apply FailsWith.andThen (Run.ordinary_ofWork (by simp))
  intro _
  apply FailsWith.andThen (Run.ordinary_ofWork (by simp))
  intro _
  apply FailsWith.andThen (Run.ordinary_ofWork (by simp))
  intro items
  apply FailsWith.andThen (Run.ordinary_sorted (ordinary_keyOf keys given.1) _ items)
  intro sorted
  exact Run.ordinary_ofWork (by simp)

theorem ListMethods.ordinary_apply (m : ListMethod) (ref : Nat) (args : List Value) (keywords : Keywords) :
    Run.Ordinary (ListMethods.apply callKey m ref args keywords) := by
  unfold ListMethods.apply
  split
  · exact ordinary_sort keys ref args keywords
  · exact Run.ordinary_ofWork (by simp)

theorem Builtins.ordinary_extreme (name : String) (want : Ordering) (args : List Value) (keywords : Keywords) :
    Run.Ordinary (Builtins.extreme callKey name want args keywords) := by
  have keyed := ListMethods.ordinary_keyOf keys (Arguments.take "key" keywords).1
  apply FailsWith.andThen (Run.ordinary_ofWork (by simp))
  intro _
  apply FailsWith.andThen (Run.ordinary_ofWork (by simp))
  intro _
  apply FailsWith.andThen (Run.ordinary_ofWork (by simp))
  intro items
  split
  · exact .andThen (keyed _) fun _ => Run.ordinary_bestOf keyed want _ _
  · exact .done _
  · exact Run.ordinary_ofWork (by simp)

theorem Builtins.ordinary_sorted (args : List Value) (keywords : Keywords) :
    Run.Ordinary (Builtins.sorted callKey args keywords) := by
  apply FailsWith.andThen (Run.ordinary_ofWork (by simp))
  intro given
  apply FailsWith.andThen (Run.ordinary_ofWork (by simp))
  intro _
  apply FailsWith.andThen (Run.ordinary_ofWork (by simp))
  intro _
  apply FailsWith.andThen (Run.ordinary_ofWork (by simp))
  intro items
  apply FailsWith.andThen (Run.ordinary_sorted (ListMethods.ordinary_keyOf keys given.1) _ items)
  intro sorted
  exact Run.ordinary_ofWork (by simp)

theorem Builtins.ordinary_apply (b : Builtin) (args : List Value) (keywords : Keywords) :
    Run.Ordinary (Builtins.apply callKey b args keywords) := by
  have checked {next : Unit → Work Value} {check : Work Unit} (first : check.Ordinary)
      (second : ∀ u, (next u).Ordinary) :
      Run.Ordinary (Run.ofWork check >>= fun u => Run.ofWork (next u)) :=
    .andThen (Run.ordinary_ofWork first) fun u => Run.ordinary_ofWork (second u)
  unfold Builtins.apply
  cases b with
  | min => exact ordinary_extreme keys _ _ args keywords
  | max => exact ordinary_extreme keys _ _ args keywords
  | sorted => exact ordinary_sorted keys args keywords
  | print | sum | enumerate | log | sleep => exact Run.ordinary_ofWork (by simp)
  | round | isinstance | zip | format => exact checked (by simp) (by simp)
  | floor | ceil => exact Run.ordinary_ofWork (by simp)
  | len | repr | typeOf | abs | reversed | any | all | chr | ord =>
    exact Run.ordinary_ofWork (ordinary_single _ _ _ (by simp))
  | sqrt | exp | sin | cos | fabs => exact Run.ordinary_ofWork (ordinary_onNumber _ _ (by simp))
  | divmod => exact .andThen (Run.ordinary_ofWork (by simp)) fun _ => checked (by simp) (by simp)
  | clock | monotonic =>
    apply FailsWith.andThen (Run.ordinary_ofWork (by simp))
    intro _
    exact .andThen (Run.ordinary_ofWork (by simp)) fun _ => .done _

end

namespace Call

theorem ordinary_applyWith {function : FunctionCaller} {callKey : Value → Value → Run Value}
    (functions : ∀ ref defaults args keywords, Run.Ordinary (function ref defaults args keywords))
    (keys : ∀ f item, Run.Ordinary (callKey f item)) : (applyWith function callKey).Ordinary := by
  intro callee args keywords
  cases callee with
  | function id name code defaults => exact functions code defaults args keywords
  | builtin b => exact Builtins.ordinary_apply keys b args keywords
  | listMethod ref m => exact ListMethods.ordinary_apply keys m ref args keywords
  | tupleMethod id items m => exact Run.ordinary_ofWork (TupleMethods.ordinary_apply m items args keywords)
  | dictMethod ref m => exact Run.ordinary_ofWork (DictMethods.ordinary_apply m ref args keywords)
  | strMethod text m => exact Run.ordinary_ofWork (TextMethods.ordinary_apply m text args keywords)
  | streamMethod s m => exact Run.ordinary_ofWork (ordinary_streamMethod s m args keywords)
  | type t => exact Run.ordinary_ofWork (Construct.ordinary_apply t args keywords)
  | _ => exact Run.ordinary_ofWork (Work.ordinary_raiseTypeError _)

theorem ordinary_value {function : FunctionCaller}
    (functions : ∀ ref defaults args keywords, Run.Ordinary (function ref defaults args keywords)) :
    (value function).Ordinary := by
  apply ordinary_applyWith functions
  intro key item
  exact ordinary_applyWith functions (fun _ _ => .done _) key [item] []

end Call

/-! ### Blocks -/

/-- What leaves a block has been noted. -/
theorem Exec.passed_block (turns room limit : Nat) (body : List Stmt) :
    FailsWith Halt.Passed (Exec.block ⟨Call.value (Call.function turns room), limit⟩ body) := by
  intro m halt n failed
  obtain ⟨scope, callers, here⟩ : ∃ scope callers, m.scopes = scope :: callers :=
    List.exists_cons_of_ne_nil (by simp [Machine.scopes])
  have bottom : (scope :: callers).getLast? = some "<module>" := by
    rw [← here]
    exact List.getLast?_concat
  -- Any lines will do for the calls that are running.
  have lines : (List.replicate callers.length 0).length = callers.length := List.length_replicate
  have calls : NotesCalls scope callers (List.replicate callers.length 0) (Call.value (Call.function turns room))
      (fun lines => Call.value (Placed.function turns room lines)) := by
    refine ⟨lines, bottom, fun line => ?_⟩
    exact Call.alike_value Run.Notes.likeness (Call.notes_function turns room line lines bottom)
  have ends := notes_block calls limit body m here
  rw [failed] at ends
  generalize Placed.block _ _ _ body m = placed at ends
  cases ends with
  | fault _ noted => exact noted.trace_ne_nil
  | crash | turns => trivial

theorem Exec.ordinary_block (turns room limit : Nat) (body : List Stmt) :
    Run.Ordinary (Exec.block ⟨Call.value (Call.function turns room), limit⟩ body) :=
  (passed_block turns room limit body).mono fun _ => Halt.Passed.ordinary

theorem Call.ordinary_function (turns room ref : Nat) (defaults : List (Option Value)) (args : List Value)
    (keywords : Keywords) : Run.Ordinary (function turns room ref defaults args keywords) := by
  cases room with
  | zero =>
    simp only [function]
    exact Run.ordinary_ofWork (by simp)
  | succ room =>
    apply FailsWith.look
    intro m
    apply FailsWith.andThen (Run.ordinary_ofWork (by simp))
    intro locals
    apply FailsWith.andThen (Run.Ordinary.inFrame _ (Exec.ordinary_block turns room turns _))
    intro flow
    cases flow <;> exact .done _

/-- A caller that raises no `SyntaxError` of its own. -/
structure OrdinaryCaller where
  call : ValueCaller
  ordinary : call.Ordinary

/-- The calls of a program. -/
def Call.ordinaryCaller (turns room : Nat) : OrdinaryCaller :=
  ⟨value (function turns room), ordinary_value (ordinary_function turns room)⟩

end SnippetKernel
