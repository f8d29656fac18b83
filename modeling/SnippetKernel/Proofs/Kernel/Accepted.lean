import SnippetKernel.Proofs.Program.SyntaxErrors
import SnippetKernel.Proofs.Program.Targets

/-! What a text that was accepted can still be refused for when it runs. A `SyntaxError` comes from a statement that
raises it, with one exception: a slice cannot be updated, although it can be read, assigned to and deleted. -/
namespace SnippetKernel

open Source

/-- `object[start:stop:step] op= value` -/
def Source.StmtKind.UpdatesSlice : StmtKind → Prop
  | .augAssign (.index _ (.slice ..)) _ _ => True
  | _ => False

namespace Exec

/-- The program says that the exception is to be raised: the exception itself or one of its class, or again the one
that is being handled. -/
inductive Asked (call : ValueCaller) (e : Exception) : StmtKind → Machine → Prop
  | exception {expr : Expr} {id : Nat} {m n : Machine} : Eval.expr call expr m = .ok (.exception id e) n →
    Asked call e (.raise (some expr)) m
  | type {expr : Expr} {m n : Machine} : Eval.expr call expr m = .ok (.type (.exception e.kind)) n →
    Asked call e (.raise (some expr)) m
  | again {handled : Handled} {rest : List Handled} {m : Machine} : m.handling = handled :: rest →
    handled.exception = e → Asked call e (.raise none) m

variable {turns room limit : Nat} {m n : Machine} {f : Fault}

theorem asked_of_reraise {call : ValueCaller} (raised : Run.reraise m = .error (.fault f) n) (own : f.Own)
    (wrong : f.exception.kind = .syntaxError) : Asked call f.exception (.raise none) m := by
  have here : (get : Run Machine) m = .ok m m := rfl
  rw [Run.reraise, Run.bind_of_ok here] at raised
  cases handling : m.handling with
  | nil =>
    rw [handling] at raised
    have refused : Run.Ordinary (Run.ofWork (Work.raise .runtime "No active exception to reraise") : Run Flow) :=
      Run.ordinary_ofWork (Work.ordinary_raise.2 (by simp))
    exact absurd wrong (refused m _ n raised own)
  | cons handled rest =>
    rw [handling] at raised
    cases raised
    exact .again handling rfl

theorem asked_of_raiseValue {call : ValueCaller} {e : Expr} {v : Value} {p : Machine}
    (evaluated : Eval.expr call e m = .ok v p) (raised : Run.raiseValue v p = .error (.fault f) n) (own : f.Own)
    (wrong : f.exception.kind = .syntaxError) : Asked call f.exception (.raise (some e)) m := by
  unfold Run.raiseValue at raised
  split at raised
  · cases raised
    exact .exception evaluated
  · next kind =>
    have same : f.exception.kind = kind := by
      cases raised
      rfl
    exact .type (same ▸ evaluated)
  · exact absurd wrong (Run.ordinary_ofWork (Work.ordinary_raiseTypeError _) p _ n raised own)

theorem asked_of_raise {value : Option Expr} (formed : ∀ e ∈ value, e.Formed)
    (raised : statement (outside turns room limit) (.raise value) m = .error (.fault f) n) (own : f.Own)
    (wrong : f.exception.kind = .syntaxError) :
    Asked (Call.value (Call.function turns room)) f.exception (.raise value) m := by
  cases value with
  | none =>
    simp only [statement] at raised
    exact asked_of_reraise raised own wrong
  | some e =>
    simp only [statement] at raised
    have ordinary := Eval.ordinary_expr (Call.ordinaryCaller turns room) e (formed e rfl)
    change EStateM.bind _ _ m = _ at raised
    unfold EStateM.bind at raised
    cases evaluated : Eval.expr (Call.value (Call.function turns room)) e m with
    | ok v p =>
      rw [evaluated] at raised
      exact asked_of_raiseValue evaluated raised own wrong
    | error halt p =>
      rw [evaluated] at raised
      cases raised
      exact absurd wrong (ordinary m _ n evaluated own)

/-- Updating a slice fails as soon as its object is known. -/
theorem updatesSlice_refused (o : Outside) {object : Expr} {v : Value} (start stop step : Option Expr)
    (op : BinaryOp) (value : Expr) (evaluated : Eval.expr o.call object m = .ok v n) :
    ∃ p, statement o (.augAssign (.index object (.slice start stop step)) op value) m =
      .error (.fault (.raised .syntaxError "invalid syntax")) p := by
  have refused : Eval.augAssign o.call op value (.index object (.slice start stop step)) m =
      (Run.ofWork (Work.raise .syntaxError "invalid syntax") : Run Unit) n := by
    rw [Eval.augAssign, Run.bind_of_ok evaluated, Eval.expr]
    rfl
  simp only [statement]
  change ∃ p, EStateM.bind _ _ m = .error _ p
  rw [EStateM.bind, refused]
  exact ⟨_, rfl⟩

end Exec

/-- An assignment, and an update of a slice. -/
theorem parse_slice_update :
    (match parse "a = [1, 2, 3]\na[0:1] += [4]" with
      | .ok [.mk _ (.assign [_] _), .mk _ (.augAssign (.index _ (.slice ..)) _ _)] => true
      | _ => false) = true := by
  decide +kernel

/-- Whatever text was accepted and whatever happened before, a statement of the program raises a `SyntaxError` itself
only if the program asks for it, or if the statement updates a slice; what comes out of a block, of the program or of a
function that it calls, is not the statement's own. The other targets are carried out if their objects suit them: every
form of target in an assignment and in a deletion, slices included, and names and items in an update. -/
theorem Exec.syntaxError_of_parse {source : String} {body : List Stmt} (read : parse source = .ok body)
    (turns room limit : Nat) :
    let call := Call.value (Call.function turns room)
    (∀ outer kind, Within body outer kind →
      ∀ m n f, statement ⟨call, limit⟩ kind m = .error (.fault f) n → f.Own →
        f.exception.kind = .syntaxError → Asked call f.exception kind m ∨ kind.UpdatesSlice) ∧
    (∀ inner m n f, block ⟨call, limit⟩ inner m = .error (.fault f) n → ¬f.Own) ∧
    (∀ t v m, Eval.Suited call t v m → ∃ n, Eval.assign call t v m = .ok () n) ∧
    (∀ t m, Eval.Removable call t m → ∃ n, Eval.delete call t m = .ok () n) ∧
    ∀ t op value m, Eval.Updatable call op value t m → ∃ n, Eval.augAssign call op value t m = .ok () n := by
  intro call
  constructor
  · intro outer kind within m n f raised own wrong
    have formed := within.formed read
    by_cases updates : kind.UpdatesSlice
    · exact .inr updates
    · left
      by_cases raises : ∃ value, kind = .raise value
      · obtain ⟨value, rfl⟩ := raises
        exact asked_of_raise formed raised own wrong
      · have no_update (object : Expr) (start stop step : Option Expr) (op : BinaryOp) (value : Expr) :
            kind ≠ .augAssign (.index object (.slice start stop step)) op value := by
          rintro rfl
          exact updates trivial
        have ordinary := ordinary_statement turns room limit formed (not_exists.1 raises) no_update
        exact absurd wrong (ordinary m _ n raised own)
  constructor
  · intro inner m n f raised
    exact passed_block turns room limit inner m _ n raised
  constructor
  · exact fun t v m => Eval.assign_of_suited t
  constructor
  · exact fun t m => Eval.delete_of_removable t
  · exact fun t op value m => Eval.augAssign_of_updatable

/-- `raise SyntaxError`, where `a` is a list whose items can be replaced, deleted and added to. -/
theorem Exec.syntaxError_of_parse_raise :
    let call := Call.value (Call.function 1 1)
    let m : Machine := .start ⟨[("a", .list 0)]⟩ ⟨⟨#[#[.int 1]], #[], 0⟩, #[]⟩ ⟨.ofInt64 0, .ofInt64 0⟩
    let kind : StmtKind := .raise (some (.name "SyntaxError"))
    let f : Fault := .raised .syntaxError ""
    let all : Target := .index (.name "a") (.slice none none none)
    parse "raise SyntaxError" = .ok [.mk 1 kind] ∧ Within [.mk 1 kind] [] kind ∧
      (∃ n, statement ⟨call, 1⟩ kind m = .error (.fault f) n) ∧ f.Own ∧ f.exception.kind = .syntaxError ∧
      (Asked call f.exception kind m ∨ kind.UpdatesSlice) ∧
      (∃ n f, block ⟨call, 1⟩ [.mk 1 kind] m = .error (.fault f) n ∧ ¬f.Own) ∧
      (Eval.Suited call all (.tuple 0 []) m ∧ ∃ n, Eval.assign call all (.tuple 0 []) m = .ok () n) ∧
      (Eval.Removable call all m ∧ ∃ n, Eval.delete call all m = .ok () n) ∧
      Eval.Updatable call .add (.name "a") (.name "a") m ∧
      ∃ n, Eval.augAssign call .add (.name "a") (.name "a") m = .ok () n := by
  intro call m kind f all
  have read : parse "raise SyntaxError" = .ok [.mk 1 kind] := by cbv
  have within : Within [.mk 1 kind] [] kind := .here (List.mem_singleton_self (Stmt.mk 1 kind))
  have raised : statement ⟨call, 1⟩ kind m = .error (.fault f) m := by rfl
  have noted : block ⟨call, 1⟩ [.mk 1 kind] m = .error (.fault (f.recordFrame 0 1 "<module>")) m := by rfl
  have operands : Eval.sliceOperands call (.name "a") none none none m = .ok (.list 0, ⟨none, none, none⟩) m := by
    rfl
  have everything : (⟨none, none, none⟩ : Slice).step ≠ some 0 := by simp
  obtain ⟨places, selected⟩ := Value.selected_of_step everything 1
  have suited : Eval.Suited call all (.tuple 0 []) m :=
    ⟨_, _, _, operands, places, [], selected, rfl, .inl rfl⟩
  have removable : Eval.Removable call all m := ⟨_, _, _, operands, everything⟩
  have found : Run.lookup "a" m = .ok (.list 0) m := by rfl
  have updatable : Eval.Updatable call .add (.name "a") (.name "a") m := ⟨_, _, _, _, _, _, found, found, rfl⟩
  obtain ⟨statements, blocks, assigns, deletes, updates⟩ := syntaxError_of_parse read 1 1 1
  have asked := statements _ _ within _ _ _ raised rfl rfl
  exact ⟨read, within, ⟨m, raised⟩, rfl, rfl, asked, ⟨_, _, noted, blocks _ _ _ _ noted⟩,
    ⟨suited, assigns _ _ _ suited⟩, ⟨removable, deletes _ _ removable⟩, updatable, updates _ _ _ _ updatable⟩

/-- A program that was accepted and raises nothing itself: `a[0:1] += [4]`, where `a` is a list, has no syntax error
before it runs, and one when it does. -/
theorem Engine.execute_slice_update :
    (∃ line line' target value object start stop step op more,
      parse "a = [1, 2, 3]\na[0:1] += [4]" = .ok [.mk line (.assign [target] value),
        .mk line' (.augAssign (.index object (.slice start stop step)) op more)]) ∧
    ((Engine.start .default ⟨.ofInt64 0, .ofInt64 0⟩).execute "a = [1, 2, 3]\na[0:1] += [4]").1 =
      ⟨false, "", "", some "Traceback (most recent call last):\n  File \"<kernel>\", line 2, in <module>\nSyntaxError: invalid syntax\n"⟩ := by
  constructor
  · have shape := parse_slice_update
    split at shape
    · next read => exact ⟨_, _, _, _, _, _, _, _, _, _, read⟩
    · cases shape
  · decide +kernel

end SnippetKernel
