import SnippetKernel.Kernel.Engine
import SnippetKernel.Proofs.Program.Noting

/-! What is answered when an exception is not caught. The traceback has one line for each call that was running where
the exception was raised, whatever it has passed on its way out. -/
namespace SnippetKernel

open Source

theorem standing_depths {scopes : List String} {lines : List Nat} (same : lines.length = scopes.length) :
    (standing scopes lines).map (·.depth) = (List.range scopes.length).reverse := by
  induction scopes generalizing lines with
  | nil => rfl
  | cons scope scopes ih =>
    cases lines with
    | nil => cases same
    | cons line lines =>
      rw [standing, List.map_cons, ih (Nat.succ.inj same), List.length_cons, List.range_succ, List.reverse_append]
      rfl

/-- The line of a traceback for a call. -/
def callLine (scope : String) (line : Nat) : String := Fault.location line ++ ", in " ++ scope ++ "\n"

theorem standing_lines (scopes : List String) (lines : List Nat) :
    ((standing scopes lines).map fun e => callLine e.scope e.line) = List.zipWith callLine scopes lines := by
  induction scopes generalizing lines with
  | nil => rfl
  | cons scope scopes ih =>
    cases lines with
    | nil => rfl
    | cons line lines => rw [standing, List.map_cons, ih, List.zipWith_cons_cons]

theorem Fault.render_of_program {f : Fault} (program : f.syntaxLine = none) :
    f.render = "Traceback (most recent call last):\n" ++
      String.join (f.trace.reverse.map fun e => callLine e.scope e.line) ++ f.summary ++ "\n" := by
  have shown : f.render = "Traceback (most recent call last):\n" ++ "" ++
      String.join (f.trace.reverse.map fun e => callLine e.scope e.line) ++ f.summary ++ "\n" := by
    unfold render
    rw [program]
    rfl
  rw [shown, String.append_empty]

theorem Machine.perform_of_uncaught {m n : Machine} {limits : Limits} {body : List Stmt} {f : Fault}
    (uncaught : Run.program limits body m = .error (.fault f) n) : m.perform limits body = ⟨some (.fault f), n⟩ := by
  rw [perform, uncaught]

namespace Engine

variable {code : String} {body : List Stmt} {f : Fault} {m : Machine}

/-- The function that fails is called once more from the handler. -/
theorem fails_in_handler :
    (match parse "def f():\n  g\ntry:\n  f()\nexcept NameError:\n  f()" with
      | .error _ => false
      | .ok body =>
        match Run.program .default body (start .default ⟨.ofUInt64 0, .ofUInt64 0⟩).machine with
        | .error (.fault f) _ => f.trace == [⟨1, 2, "f"⟩, ⟨0, 6, "<module>"⟩]
        | _ => false) = true := by
  decide +kernel

/-- An exception that a program does not catch. A program that knows where it is, and notes all running calls where
an exception is raised, ends with the same one. So the answer has one line for each of these calls, of which the one
with number `d` has `d` calls around it: the outermost comes first, and that is the program itself. -/
theorem execute_uncaught (e : Engine) (read : parse code = .ok body)
    (uncaught : Run.program e.limits body e.machine = .error (.fault f) m) :
    Run.programPlaced e.limits body e.machine = .error (.fault f) m ∧
      ∃ scopes lines, lines.length = scopes.length ∧ scopes.getLast? = some "<module>" ∧
        f.trace = standing scopes lines ∧ f.trace.map (·.depth) = (List.range scopes.length).reverse ∧
        (e.execute code).1.error = some ("Traceback (most recent call last):\n" ++
          String.join (List.zipWith callLine scopes lines).reverse ++ f.summary ++ "\n") := by
  have ends := Run.notes_program e.limits body e.machine rfl
  rw [uncaught] at ends
  generalize Run.programPlaced e.limits body e.machine = placed at ends ⊢
  cases ends with
  | fault here noted =>
    have whole := noted.whole_eq
    rw [List.append_nil] at whole
    subst whole
    obtain ⟨scopes, lines, same, bottom, trace⟩ := noted.complete
    refine ⟨rfl, scopes, lines, same, bottom, trace, ?_, ?_⟩
    · rw [trace, standing_depths same]
    · have ran : e.execute code = e.settle ⟨some (.fault f), m⟩ := by
        rw [execute, Machine.interpret, read, ← Machine.perform_of_uncaught uncaught]
      have answer : (e.execute code).1.error = some f.render := congrArg (fun answer => answer.1.error) ran
      rw [answer, ← standing_lines, ← trace, ← List.map_reverse, Fault.render_of_program noted.program]

/-- A function fails twice: the first time that is caught, the second time it was called from the handler. -/
theorem execute_uncaught_in_handler :
    let e := start .default ⟨.ofUInt64 0, .ofUInt64 0⟩
    let code := "def f():\n  g\ntry:\n  f()\nexcept NameError:\n  f()"
    ∃ body f m, parse code = .ok body ∧ Run.program e.limits body e.machine = .error (.fault f) m ∧
      Run.programPlaced e.limits body e.machine = .error (.fault f) m ∧
      f.trace = [⟨1, 2, "f"⟩, ⟨0, 6, "<module>"⟩] := by
  intro e code
  have failed := fails_in_handler
  split at failed
  · cases failed
  · next body read =>
    split at failed
    · next f m uncaught =>
      exact ⟨body, f, m, read, uncaught, (execute_uncaught e read uncaught).1, eq_of_beq failed⟩
    · cases failed

end Engine

end SnippetKernel
