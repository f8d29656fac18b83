import SnippetKernel.Host.Ask

/-! Dialogues with surroundings that are in a state. Which answers they may give, and what they are like
afterwards, is a relation; so a dialogue can pass through many states and can end in many ways. Where the answers depend
on what was said before, and on nothing else, there is one way only.

What happens in the course of a dialogue is told question by question: each with its answer, and with the states of the
surroundings before and after. The course of a computation falls into those of its parts. -/
namespace SnippetKernel

namespace Dialogue

variable {Q S α β : Type} {A : Q → Type}

/-! ### The runs of a dialogue -/

/-- The dialogue, begun in one state, can end with a value in another. -/
inductive Ends (step : S → (q : Q) → A q → S → Prop) : Dialogue A α → S → α → S → Prop
  | done {a : α} {s : S} : Ends step (.done a) s a s
  | ask {q : Q} {next : A q → Dialogue A α} {answer : A q} {a : α} {s s' s'' : S}
      (answered : step s q answer s') (ends : Ends step (next answer) s' a s'') :
      Ends step (.ask q next) s a s''

/-- The dialogue, begun in one state, can pass through another. -/
inductive Passes (step : S → (q : Q) → A q → S → Prop) : Dialogue A α → S → S → Prop
  | here {d : Dialogue A α} {s : S} : Passes step d s s
  | later {q : Q} {next : A q → Dialogue A α} {answer : A q} {s s' s'' : S}
      (answered : step s q answer s') (passes : Passes step (next answer) s' s'') :
      Passes step (.ask q next) s s''

variable {step : S → (q : Q) → A q → S → Prop} {always : S → Prop}

theorem Ends.question {q : Q} {answer : A q} {s s' : S} (answered : step s q answer s') :
    Ends step (.question q) s answer s' :=
  .ask answered .done

theorem Ends.bind {d : Dialogue A α} {f : α → Dialogue A β} {a : α} {b : β} {s s' s'' : S}
    (first : Ends step d s a s') (second : Ends step (f a) s' b s'') : Ends step (d >>= f) s b s'' := by
  induction first with
  | done => exact second
  | ask answered _ ih => exact .ask answered (ih second)

theorem Ends.passes {d : Dialogue A α} {a : α} {s s' : S} (ends : Ends step d s a s') : Passes step d s s' := by
  induction ends with
  | done => exact .here
  | ask answered _ ih => exact .later answered ih

/-! ### What all runs have in common -/

/-- Whatever the answers are: each state in which a question is asked is as it should always be, and so are
the value and the state in the end. -/
def Meets (step : S → (q : Q) → A q → S → Prop) (always : S → Prop) (atEnd : α → S → Prop) :
    Dialogue A α → S → Prop
  | .done a, s => atEnd a s
  | .ask q next, s => always s ∧ ∀ answer s', step s q answer s' → Meets step always atEnd (next answer) s'

variable {atEnd : α → S → Prop}

theorem Meets.of_ends {d : Dialogue A α} {a : α} {s s' : S} (ends : Ends step d s a s')
    (meets : d.Meets step always atEnd s) : atEnd a s' := by
  induction ends with
  | done => exact meets
  | ask answered _ ih => exact ih (meets.2 _ _ answered)

theorem Meets.of_passes {d : Dialogue A α} {s s' : S} (passes : Passes step d s s')
    (at_end : ∀ a s, atEnd a s → always s) (meets : d.Meets step always atEnd s) : always s' := by
  induction passes with
  | @here d s =>
    cases d with
    | done a => exact at_end a s meets
    | ask q next => exact meets.1
  | later answered _ ih => exact ih (meets.2 _ _ answered)

theorem Meets.imp {weaker : α → S → Prop} {d : Dialogue A α} {s : S}
    (implies : ∀ a s, atEnd a s → weaker a s) (meets : d.Meets step always atEnd s) :
    d.Meets step always weaker s := by
  induction d generalizing s with
  | done a => exact implies a s meets
  | ask q next ih => exact ⟨meets.1, fun answer s' answered => ih answer (meets.2 answer s' answered)⟩

theorem Meets.question {q : Q} {atEnd : A q → S → Prop} {s : S} (now : always s)
    (next : ∀ answer s', step s q answer s' → atEnd answer s') :
    (question q : Dialogue A (A q)).Meets step always atEnd s :=
  ⟨now, next⟩

theorem Meets.bind {atEnd : β → S → Prop} {between : α → S → Prop} {d : Dialogue A α}
    {f : α → Dialogue A β} {s : S} (first : d.Meets step always between s)
    (second : ∀ a s, between a s → (f a).Meets step always atEnd s) :
    (d >>= f).Meets step always atEnd s := by
  induction d generalizing s with
  | done a => exact second a s first
  | ask q next ih => exact ⟨first.1, fun answer s' answered => ih answer (first.2 answer s' answered)⟩

/-! ### Dialogues that ask certain questions only -/

/-- All questions that can come up are of one kind. -/
def Asks (kind : Q → Prop) : Dialogue A α → Prop
  | .done _ => True
  | .ask q next => kind q ∧ ∀ answer, (next answer).Asks kind

variable {kind : Q → Prop}

theorem Asks.question {q : Q} (of_kind : kind q) : (question q : Dialogue A (A q)).Asks kind :=
  ⟨of_kind, fun _ => trivial⟩

theorem Asks.imp {wider : Q → Prop} {d : Dialogue A α} (implies : ∀ q, kind q → wider q) (asks : d.Asks kind) :
    d.Asks wider := by
  induction d with
  | done a => trivial
  | ask q next ih => exact ⟨implies q asks.1, fun answer => ih answer (asks.2 answer)⟩

theorem Asks.bind {d : Dialogue A α} {f : α → Dialogue A β} (first : d.Asks kind)
    (second : ∀ a, (f a).Asks kind) : (d >>= f).Asks kind := by
  induction d with
  | done a => exact second a
  | ask q next ih => exact ⟨first.1, fun answer => ih answer (first.2 answer)⟩

/-- What no answer to such a question changes is the same in the end. -/
theorem Asks.meets {kept : S → Prop} {d : Dialogue A α} (asks : d.Asks kind)
    (stays : ∀ s q answer s', kind q → step s q answer s' → kept s → kept s')
    (at_all_times : ∀ s, kept s → always s)
    {s : S} (now : kept s) : d.Meets step always (fun _ => kept) s := by
  induction d generalizing s with
  | done a => exact now
  | ask q next ih =>
    refine ⟨at_all_times s now, fun answer s' answered => ?_⟩
    exact ih answer (asks.2 answer) (stays s q answer s' asks.1 answered now)

end Dialogue

/-! ### Computations that can fail -/

namespace Errand

variable {α β S : Type} {kind : Ask → Prop}

def Asks (kind : Ask → Prop) (t : Errand α) : Prop := Dialogue.Asks kind t.run

theorem Asks.imp {wider : Ask → Prop} {t : Errand α} (implies : ∀ q, kind q → wider q) (asks : Asks kind t) :
    Asks wider t :=
  Dialogue.Asks.imp implies asks

theorem Asks.ask {q : Ask} {f : q.Answer → Errand β} (of_kind : kind q)
    (next : ∀ answer, (f answer).Asks kind) : Asks kind (liftM (Host.ask q) >>= f) :=
  ⟨of_kind, next⟩

theorem Asks.bind {t : Errand α} {f : α → Errand β} (first : Asks kind t) (second : ∀ a, Asks kind (f a)) :
    Asks kind (t >>= f) := by
  refine Dialogue.Asks.bind first fun outcome => ?_
  cases outcome with
  | ok a => exact second a
  | error e => trivial

theorem Asks.lift {d : Host α} {f : α → Errand β} (first : Dialogue.Asks kind d)
    (second : ∀ a, Asks kind (f a)) : Asks kind (liftM d >>= f) :=
  bind (Dialogue.Asks.bind first fun _ => trivial) second

def Ends (step : S → (q : Ask) → q.Answer → S → Prop) (t : Errand α) (s : S) (outcome : Except Failure α)
    (s' : S) : Prop :=
  Dialogue.Ends step t.run s outcome s'

variable {step : S → (q : Ask) → q.Answer → S → Prop} {s s' s'' : S} {outcome : Except Failure β}

theorem Ends.ask {q : Ask} {answer : q.Answer} {f : q.Answer → Errand β} (answered : step s q answer s')
    (next : Ends step (f answer) s' outcome s'') : Ends step (liftM (Host.ask q) >>= f) s outcome s'' :=
  Dialogue.Ends.ask answered next

theorem Ends.bind {t : Errand α} {f : α → Errand β} {a : α} (first : Ends step t s (.ok a) s')
    (second : Ends step (f a) s' outcome s'') : Ends step (t >>= f) s outcome s'' :=
  Dialogue.Ends.bind first second

theorem Ends.lift {d : Host α} {f : α → Errand β} {a : α} (first : Dialogue.Ends step d s a s')
    (second : Ends step (f a) s' outcome s'') : Ends step (liftM d >>= f) s outcome s'' :=
  bind (Dialogue.Ends.bind first .done) second

def Meets (step : S → (q : Ask) → q.Answer → S → Prop) (always : S → Prop)
    (atEnd : Except Failure α → S → Prop) (t : Errand α) (s : S) : Prop :=
  Dialogue.Meets step always atEnd t.run s

variable {always : S → Prop} {atEnd : Except Failure β → S → Prop}

theorem Meets.bind {between : Except Failure α → S → Prop} {t : Errand α} {f : α → Errand β}
    (first : t.Meets step always between s) (second : ∀ a s, between (.ok a) s → (f a).Meets step always atEnd s)
    (failed : ∀ e s, between (.error e) s → atEnd (.error e) s) : (t >>= f).Meets step always atEnd s := by
  refine Dialogue.Meets.bind first fun outcome s' holds => ?_
  cases outcome with
  | ok a => exact second a s' holds
  | error e => exact failed e s' holds

theorem Meets.lift {between : α → S → Prop} {d : Host α} {f : α → Errand β}
    (first : Dialogue.Meets step always between d s)
    (second : ∀ a s, between a s → (f a).Meets step always atEnd s) :
    Errand.Meets step always atEnd (liftM d >>= f) s := by
  have lifted : Dialogue.Meets step always (fun outcome s' => ∃ a, outcome = .ok a ∧ between a s')
      (Except.ok (ε := Failure) <$> d) s :=
    Dialogue.Meets.bind first fun a _ holds => ⟨a, rfl, holds⟩
  refine Dialogue.Meets.bind lifted fun outcome s' holds => ?_
  obtain ⟨a, rfl, holds⟩ := holds
  exact second a s' holds

end Errand

/-! ### What is said from beginning to end -/

/-- A question and its answer. -/
abbrev Turn {Q : Type} (A : Q → Type) : Type := (q : Q) × A q

/-- How each question is answered after what was said before. -/
abbrev Replies {Q : Type} (A : Q → Type) : Type := List (Turn A) → (q : Q) → A q

namespace Dialogue

variable {Q α β : Type} {A : Q → Type}

/-- What is said, and the value in the end. -/
def hold (replies : Replies A) (past : List (Turn A)) : Dialogue A α → List (Turn A) × α
  | .done a => ([], a)
  | .ask q next =>
    let turn : Turn A := ⟨q, replies past q⟩
    let rest := (next turn.2).hold replies (past ++ [turn])
    (turn :: rest.1, rest.2)

variable {replies : Replies A} {past : List (Turn A)}

theorem hold_bind {d : Dialogue A α} {f : α → Dialogue A β} {log : List (Turn A)} {a : α}
    (first : d.hold replies past = (log, a)) :
    (d >>= f).hold replies past =
      (log ++ ((f a).hold replies (past ++ log)).1, ((f a).hold replies (past ++ log)).2) := by
  induction d generalizing past log with
  | done b =>
    cases first
    rw [List.append_nil]
    rfl
  | ask q next ih =>
    cases first
    have rest := @ih (replies past q) (past ++ [⟨q, replies past q⟩]) _ rfl
    rw [List.append_assoc] at rest
    have said := congrArg (fun held => Sigma.mk q (replies past q) :: held.1) rest
    have value := congrArg Prod.snd rest
    exact Prod.ext said value

/-- A dialogue that asks one kind of questions only says nothing else. -/
theorem Asks.hold {kind : Q → Prop} {d : Dialogue A α} (asks : d.Asks kind) :
    ∀ turn ∈ (d.hold replies past).1, kind turn.1 := by
  induction d generalizing past with
  | done a => exact fun _ none => nomatch none
  | ask q next ih =>
    intro turn said
    rcases List.mem_cons.mp said with rfl | later
    · exact asks.1
    · exact ih _ (asks.2 _) turn later

end Dialogue

namespace Errand

variable {α β : Type} {replies : Replies Ask.Answer} {past : List (Turn Ask.Answer)}

/-- What is said, and the outcome. -/
def hold (replies : Replies Ask.Answer) (past : List (Turn Ask.Answer)) (t : Errand α) :
    List (Turn Ask.Answer) × Except Failure α :=
  Dialogue.hold replies past t.run

theorem hold_bind_ok {t : Errand α} {f : α → Errand β} {log : List (Turn Ask.Answer)} {a : α}
    (first : t.hold replies past = (log, .ok a)) :
    Errand.hold replies past (t >>= f) =
      (log ++ ((f a).hold replies (past ++ log)).1, ((f a).hold replies (past ++ log)).2) :=
  Dialogue.hold_bind first

theorem hold_bind_error {t : Errand α} {f : α → Errand β} {log : List (Turn Ask.Answer)} {e : Failure}
    (first : t.hold replies past = (log, .error e)) : Errand.hold replies past (t >>= f) = (log, .error e) :=
  (Dialogue.hold_bind first).trans (Prod.ext (List.append_nil log) rfl)

theorem hold_lift {d : Host α} {f : α → Errand β} {log : List (Turn Ask.Answer)} {a : α}
    (first : Dialogue.hold replies past d = (log, a)) :
    Errand.hold replies past (ExceptT.lift d >>= f) =
      (log ++ ((f a).hold replies (past ++ log)).1, ((f a).hold replies (past ++ log)).2) := by
  refine hold_bind_ok ?_
  exact (Dialogue.hold_bind first).trans (Prod.ext (List.append_nil log) rfl)

variable {said log : List (Turn Ask.Answer)} {outcome : Except Failure β}

theorem hold_ask {q : Ask} {f : q.Answer → Errand β} {answer : q.Answer} (replied : replies past q = answer)
    (rest : Errand.hold replies (past ++ [⟨q, answer⟩]) (f answer) = (said, outcome)) :
    Errand.hold replies past (liftM (Host.ask q) >>= f) = (⟨q, answer⟩ :: said, outcome) := by
  subst replied
  exact congrArg (fun held : List (Turn Ask.Answer) × Except Failure β => (Sigma.mk q _ :: held.1, held.2)) rest

theorem hold_pure {b : β} : Errand.hold replies past (pure b) = ([], .ok b) := rfl

theorem hold_then {t : Errand α} {f : α → Errand β} {a : α} (first : t.hold replies past = (log, .ok a))
    (rest : Errand.hold replies (past ++ log) (f a) = (said, outcome)) :
    Errand.hold replies past (t >>= f) = (log ++ said, outcome) := by
  rw [hold_bind_ok first, rest]

theorem hold_lift_then {d : Host α} {f : α → Errand β} {a : α} (first : Dialogue.hold replies past d = (log, a))
    (rest : Errand.hold replies (past ++ log) (f a) = (said, outcome)) :
    Errand.hold replies past (liftM d >>= f) = (log ++ said, outcome) := by
  rw [show (liftM d : Errand α) = ExceptT.lift d from rfl, hold_lift first, rest]

/-- What is made of the outcome in the end asks nothing. -/
theorem hold_ofOutcome {t : Errand α} {g : α → Except Failure β} :
    Errand.hold replies past (t >>= fun a => .ofOutcome (g a)) =
      ((t.hold replies past).1, (t.hold replies past).2 >>= g) := by
  cases held : t.hold replies past with
  | mk log outcome =>
    cases outcome with
    | ok a => exact (hold_bind_ok held).trans (Prod.ext (List.append_nil log) rfl)
    | error e => exact hold_bind_error held

end Errand

/-! ### What happens, question by question -/

/-- A question that was answered. -/
structure Episode {Q : Type} (A : Q → Type) (S : Type) where
  before : S
  question : Q
  answer : A question
  after : S

def Episode.turn {Q S : Type} {A : Q → Type} (e : Episode A S) : Turn A := ⟨e.question, e.answer⟩

/-- What is said in the course of a dialogue. -/
def turns {Q S : Type} {A : Q → Type} (log : List (Episode A S)) : List (Turn A) := log.map Episode.turn

section

variable {Q S : Type} {A : Q → Type}

@[simp] theorem turns_cons (e : Episode A S) (log : List (Episode A S)) : turns (e :: log) = e.turn :: turns log := rfl

@[simp] theorem turns_append (log later : List (Episode A S)) : turns (log ++ later) = turns log ++ turns later :=
  List.map_append

end

namespace Dialogue

variable {Q S α β : Type} {A : Q → Type}

/-- The dialogue, begun in one state, can end with a value in another, and this happens in between. -/
inductive Course (step : S → (q : Q) → A q → S → Prop) : Dialogue A α → S → List (Episode A S) → α → S → Prop
  | done {a : α} {s : S} : Course step (.done a) s [] a s
  | ask {q : Q} {next : A q → Dialogue A α} {answer : A q} {log : List (Episode A S)} {a : α} {s s' s'' : S}
      (answered : step s q answer s') (rest : Course step (next answer) s' log a s'') :
      Course step (.ask q next) s (⟨s, q, answer, s'⟩ :: log) a s''

variable {step : S → (q : Q) → A q → S → Prop} {log : List (Episode A S)} {s s' s'' : S}

theorem Course.bind {d : Dialogue A α} {f : α → Dialogue A β} {a : α} {b : β} {later : List (Episode A S)}
    (first : Course step d s log a s') (second : Course step (f a) s' later b s'') :
    Course step (d >>= f) s (log ++ later) b s'' := by
  induction first with
  | done => exact second
  | ask answered _ ih => exact .ask answered (ih second)

theorem Course.of_done {a b : α} (course : Course step (.done a) s log b s') : log = [] ∧ b = a ∧ s' = s := by
  cases course
  exact ⟨rfl, rfl, rfl⟩

theorem Course.of_question {q : Q} {answer : A q} (course : Course step (.question q) s log answer s') :
    step s q answer s' ∧ log = [⟨s, q, answer, s'⟩] := by
  cases course with
  | ask answered rest =>
    obtain ⟨rfl, rfl, rfl⟩ := rest.of_done
    exact ⟨answered, rfl⟩

theorem Course.of_bind {d : Dialogue A α} {f : α → Dialogue A β} {b : β}
    (course : Course step (d >>= f) s log b s'') :
    ∃ first later a s', log = first ++ later ∧ Course step d s first a s' ∧ Course step (f a) s' later b s'' := by
  induction d generalizing s log with
  | done a => exact ⟨[], log, a, s, rfl, .done, course⟩
  | ask q next ih =>
    cases course with
    | ask answered rest =>
      obtain ⟨first, later, a, s', rfl, first_course, later_course⟩ := ih _ rest
      exact ⟨_ :: first, later, a, s', rfl, .ask answered first_course, later_course⟩

theorem Course.of_ask {q : Q} {f : A q → Dialogue A β} {b : β}
    (course : Course step (Dialogue.question q >>= f) s log b s'') :
    ∃ answer later s', step s q answer s' ∧ log = ⟨s, q, answer, s'⟩ :: later ∧
      Course step (f answer) s' later b s'' := by
  cases course with
  | ask answered rest => exact ⟨_, _, _, answered, rfl, rest⟩

theorem Course.of_asks {kind : Q → Prop} {d : Dialogue A α} {a : α} (asks : d.Asks kind)
    (course : Course step d s log a s') : ∀ e ∈ log, kind e.question := by
  induction course with
  | done => exact fun _ none => nomatch none
  | ask answered _ ih =>
    intro e said
    rcases List.mem_cons.mp said with rfl | later
    · exact asks.1
    · exact ih (asks.2 _) e later

/-! ### Surroundings that go by what was said before -/

/-- The state is what was said. -/
def Follows (replies : Replies A) (past : List (Turn A)) (q : Q) (answer : A q) (past' : List (Turn A)) : Prop :=
  answer = replies past q ∧ past' = past ++ [⟨q, answer⟩]

theorem course_of_hold {replies : Replies A} {past said : List (Turn A)} {d : Dialogue A α} {a : α}
    (held : d.hold replies past = (said, a)) :
    ∃ log, turns log = said ∧ Course (Follows replies) d past log a (past ++ said) := by
  induction d generalizing past said with
  | done b =>
    cases held
    rw [List.append_nil]
    exact ⟨[], rfl, .done⟩
  | ask q next ih =>
    cases held
    obtain ⟨log, turned, rest⟩ := @ih (replies past q) (past ++ [⟨q, replies past q⟩]) _ rfl
    rw [List.append_assoc] at rest
    have same := congrArg (List.cons (⟨q, replies past q⟩ : Turn A)) turned
    exact ⟨⟨past, q, replies past q, _⟩ :: log, same, .ask ⟨rfl, rfl⟩ rest⟩

end Dialogue

/-! ### What happens in computations that can fail -/

namespace Errand

variable {α β S : Type} {step : S → (q : Ask) → q.Answer → S → Prop} {log : List (Episode Ask.Answer S)} {s s' s'' : S}

def Course (step : S → (q : Ask) → q.Answer → S → Prop) (t : Errand α) (s : S) (log : List (Episode Ask.Answer S))
    (outcome : Except Failure α) (s' : S) : Prop :=
  Dialogue.Course step t.run s log outcome s'

variable {outcome : Except Failure β} {later : List (Episode Ask.Answer S)}

theorem Course.ask {q : Ask} {answer : q.Answer} {f : q.Answer → Errand β} (answered : step s q answer s')
    (next : Errand.Course step (f answer) s' log outcome s'') :
    Errand.Course step (liftM (Host.ask q) >>= f) s (⟨s, q, answer, s'⟩ :: log) outcome s'' :=
  Dialogue.Course.ask answered next

theorem Course.bind {t : Errand α} {f : α → Errand β} {a : α} (first : Errand.Course step t s log (.ok a) s')
    (second : Errand.Course step (f a) s' later outcome s'') :
    Errand.Course step (t >>= f) s (log ++ later) outcome s'' :=
  Dialogue.Course.bind first second

theorem Course.lift {d : Host α} {f : α → Errand β} {a : α} (first : Dialogue.Course step d s log a s')
    (second : Errand.Course step (f a) s' later outcome s'') :
    Errand.Course step (liftM d >>= f) s (log ++ later) outcome s'' := by
  have lifted : Errand.Course step (liftM d : Errand α) s (log ++ []) (.ok a) s' := Dialogue.Course.bind first .done
  rw [List.append_nil] at lifted
  exact .bind lifted second

theorem Course.of_pure {a : α} {outcome : Except Failure α} (course : Errand.Course step (pure a) s log outcome s') :
    log = [] ∧ outcome = .ok a ∧ s' = s :=
  Dialogue.Course.of_done course

theorem Course.of_throw {e : Failure} {outcome : Except Failure α}
    (course : Errand.Course step (throw e) s log outcome s') : log = [] ∧ outcome = .error e ∧ s' = s :=
  Dialogue.Course.of_done course

theorem Course.of_bind {t : Errand α} {f : α → Errand β} (course : Errand.Course step (t >>= f) s log outcome s'') :
    (∃ first later a s', log = first ++ later ∧ Errand.Course step t s first (.ok a) s' ∧
      Errand.Course step (f a) s' later outcome s'') ∨
    ∃ e, outcome = .error e ∧ Errand.Course step t s log (.error e) s'' := by
  obtain ⟨first, later, result, s', rfl, first_course, later_course⟩ := Dialogue.Course.of_bind course
  cases result with
  | ok a => exact .inl ⟨first, later, a, s', rfl, first_course, later_course⟩
  | error e =>
    obtain ⟨rfl, rfl, rfl⟩ := Dialogue.Course.of_done later_course
    exact .inr ⟨e, rfl, (List.append_nil first).symm ▸ first_course⟩

theorem Course.of_lift {d : Host α} {f : α → Errand β}
    (course : Errand.Course step (liftM d >>= f) s log outcome s'') :
    ∃ first later a s', log = first ++ later ∧ Dialogue.Course step d s first a s' ∧
      Errand.Course step (f a) s' later outcome s'' := by
  obtain ⟨first, later, result, s', rfl, lifted, later_course⟩ := Dialogue.Course.of_bind course
  obtain ⟨first, rest, a, _, rfl, first_course, done⟩ := Dialogue.Course.of_bind lifted
  obtain ⟨rfl, rfl, rfl⟩ := Dialogue.Course.of_done done
  exact ⟨first, later, a, _, congrArg (· ++ later) (List.append_nil first), first_course, later_course⟩

theorem Course.of_ask {q : Ask} {f : q.Answer → Errand β}
    (course : Errand.Course step (liftM (Host.ask q) >>= f) s log outcome s'') :
    ∃ answer later s', step s q answer s' ∧ log = ⟨s, q, answer, s'⟩ :: later ∧
      Errand.Course step (f answer) s' later outcome s'' :=
  Dialogue.Course.of_ask (f := fun answer => (f answer).run) course

end Errand

end SnippetKernel
