/-! Computations that ask their surroundings questions. What the surroundings are is left open: a dialogue
can be held with the real ones, with simulated ones, or with every possible sequence of answers. -/
namespace SnippetKernel

/-- Ends with a value, or asks a question and goes on with the answer. `A q` holds the answers to `q`. -/
inductive Dialogue {Q : Type} (A : Q → Type) (α : Type) where
  | done (a : α)
  | ask (q : Q) (next : A q → Dialogue A α)

namespace Dialogue

variable {Q : Type} {A : Q → Type} {α β : Type}

def bind : Dialogue A α → (α → Dialogue A β) → Dialogue A β
  | done a, f => f a
  | ask q next, f => ask q fun answer => (next answer).bind f

instance : Monad (Dialogue A) where
  pure := done
  bind := bind

/-- Asks one question. -/
def question (q : Q) : Dialogue A (A q) := ask q done

/-- Holds the dialogue with surroundings that answer in a monad. -/
def run {m : Type → Type} [Monad m] (answer : (q : Q) → m (A q)) : Dialogue A α → m α
  | done a => pure a
  | ask q next => do (next (← answer q)).run answer

theorem bind_done (d : Dialogue A α) : d.bind done = d := by
  induction d with
  | done a => rfl
  | ask q next ih => simp only [bind, ih]

theorem bind_bind {γ : Type} (d : Dialogue A α) (f : α → Dialogue A β) (g : β → Dialogue A γ) :
    (d.bind f).bind g = d.bind fun a => (f a).bind g := by
  induction d with
  | done a => rfl
  | ask q next ih => simp only [bind, ih]

instance : LawfulMonad (Dialogue A) :=
  LawfulMonad.mk' (Dialogue A) bind_done (fun _ _ => rfl) bind_bind

end Dialogue

end SnippetKernel
