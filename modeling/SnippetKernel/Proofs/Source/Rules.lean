import SnippetKernel.Proofs.Source.Reading
import SnippetKernel.Source.Parser

/-! Properties of everything that is read. A property of statements that each rule for one statement keeps,
given what stands in its blocks, holds of every statement of a program. -/
namespace SnippetKernel.Source

open Source.Parser Grammar

/-- Everything that is read is `good`. -/
def Gives {α : Type} (good : α → Prop) (p : Parser α) : Prop := ∀ c x r, p c = .ok (x, r) → good x

/-- The parser reads this somewhere. -/
def Given {α : Type} (p : Parser α) (x : α) : Prop := ∃ c r, p c = .ok (x, r)

namespace Gives

variable {α β : Type} {good : α → Prop} {best : β → Prop} {p : Parser α} {f : α → Parser β}

theorem given (p : Parser α) : Gives (Given p) p := fun c _ r read => ⟨c, r, read⟩

theorem done {x : α} (h : good x) : Gives good (pure x) := by
  intro c y r read
  cases read
  exact h

theorem fail (message : String) : Gives good (Parser.fail message) := fun _ _ _ h => nomatch h

theorem andThen (first : Gives good p) (second : ∀ x, good x → Gives best (f x)) : Gives best (p >>= f) := by
  intro c y r read
  obtain ⟨x, c', first_read, rest⟩ := bind_ok.1 read
  exact second x (first c x c' first_read) c' y r rest

theorem after (second : ∀ x, Gives best (f x)) : Gives best (p >>= f) := by
  intro c y r read
  obtain ⟨x, c', -, rest⟩ := bind_ok.1 read
  exact second x c' y r rest

theorem repeatFrom {σ : Type} (holds : σ → Prop) {step : σ → Parser (σ ⊕ α)} {s : σ} (start : holds s)
    (steps : ∀ s, holds s → Gives (Sum.elim holds good) (step s)) : Gives good (Parser.repeatFrom s step) := by
  have turns (n : Nat) (s : σ) (start : holds s) : Gives good (Parser.turns step n s) := by
    induction n generalizing s with
    | zero => exact .fail _
    | succ n ih =>
      refine (steps s start).andThen fun turn held => ?_
      cases turn with
      | inl s => exact ih s held
      | inr a => exact .done held
  exact fun c => turns (c.size + 1) s start c

end Gives

theorem Gives.moreItems {α : Type} {good : α → Prop} {item : Parser α} {atEnd : Parser Bool}
    {first : List α} (items : Gives good item) (start : ∀ x ∈ first, good x) :
    Gives (fun xs => ∀ x ∈ xs, good x) (Grammar.moreItems item atEnd first) := by
  have turned {xs : List α} (all : ∀ x ∈ xs, good x) : ∀ x ∈ xs.reverse, good x :=
    fun x mem => all x (List.mem_reverse.1 mem)
  refine .repeatFrom (fun done => ∀ x ∈ done, good x) (turned start) fun done all => ?_
  refine .after fun comma => ?_
  split
  · refine .after fun finished => ?_
    split
    · exact .done (turned all)
    · exact items.andThen fun x good_x => .done (List.forall_mem_cons.2 ⟨good_x, all⟩)
  · exact .done (turned all)

theorem Gives.orNothing {α : Type} {good : α → Prop} {stop : Parser Bool} {read : Parser α}
    (reads : Gives good read) : Gives (fun found => ∀ x ∈ found, good x) (Grammar.orNothing stop read) := by
  refine .after fun stopped => ?_
  split
  · exact .done nofun
  · exact reads.andThen fun x good_x => .done fun y mem => Option.some.inj mem ▸ good_x

/-- All statements of a block are `good` where they stand. -/
def AllGood (good : Surroundings → StmtKind → Prop) (s : Surroundings) (body : List Stmt) : Prop :=
  ∀ stmt ∈ body, good s stmt.kind

/-- Every rule for a statement gives one that is `good`, if those in its blocks are. -/
structure Keeps (k : Level) (good : Surroundings → StmtKind → Prop) : Prop where
  simple (s : Surroundings) : Gives (good s) (Statement.simple k s)
  cond {s : Surroundings} {branches : List (Expr × List Stmt)} {orelse : List Stmt}
    (firsts : ∀ branch ∈ branches, Given k.expr branch.1 ∧ AllGood good s branch.2)
    (last : AllGood good s orelse) : good s (.cond branches orelse)
  loop {s : Surroundings} {cond : Expr} {body : List Stmt} (head : Given k.expr cond)
    (inside : AllGood good { s with inLoop := true } body) : good s (.loop cond body)
  each {s : Surroundings} {t : Target} {source : Expr} {body : List Stmt} (head : Given (targetList k) t)
    (items : Given (exprList k) source) (inside : AllGood good { s with inLoop := true } body) :
    good s (.each t source body)
  define {s : Surroundings} {name : String} {params : List Param} {body : List Stmt}
    (head : Given (Statement.signature k) (name, params))
    (inside : AllGood good { inLoop := false, inFunction := true } body) : good s (.define name params body)
  attempt {s : Surroundings} {body : List Stmt} {handlers : List Handler} {orelse final : List Stmt}
    (inside : AllGood good s body)
    (handled : ∀ h ∈ handlers, ∃ class_ name body, h = .mk class_ name body ∧
      Given (Statement.caught k) (class_, name) ∧ AllGood good s body)
    (otherwise : AllGood good s orelse) (last : AllGood good s final) :
    good s (.attempt body handlers orelse final)

section

variable {k : Level} {good : Surroundings → StmtKind → Prop} {s : Surroundings}

theorem AllGood.nil : AllGood good s [] := List.forall_mem_nil _

theorem AllGood.reverse {body : List Stmt} (all : AllGood good s body) : AllGood good s body.reverse :=
  fun stmt mem => all stmt (List.mem_reverse.1 mem)

theorem AllGood.more {more done : List Stmt} (all : AllGood good s more) (before : AllGood good s done) :
    AllGood good s (more.reverseAux done) := by
  rw [List.reverseAux_eq]
  exact List.forall_mem_append.2 ⟨all.reverse, before⟩

namespace Statement

theorem gives_located {kind : Parser StmtKind} (gives : Gives (good s) kind) :
    Gives (fun stmt => good s stmt.kind) (located kind) :=
  .after fun _ => gives.andThen fun _ is_good => .done is_good

theorem gives_simpleLine (simple : Gives (good s) (Statement.simple k s)) :
    Gives (AllGood good s) (simpleLine k s) := by
  have simples : Gives (AllGood good s) (simples k s) := by
    refine .repeatFrom (AllGood good s) .nil fun done before => ?_
    refine (gives_located simple).andThen fun stmt is_good => .after fun semicolon => ?_
    have both : AllGood good s (stmt :: done) := List.forall_mem_cons.2 ⟨is_good, before⟩
    split
    · refine .after fun kind => ?_
      split
      · exact .done both.reverse
      · exact .done both.reverse
      · exact .done both
    · exact .done both.reverse
  refine simples.andThen fun body all => .after fun kind => ?_
  split
  · exact .after fun _ => .done all
  · exact .done all
  · exact .done all
  · exact fun _ _ _ h => nomatch h

variable {statement : Parser (List Stmt)} (statements : Gives (AllGood good s) statement)

include statements

theorem gives_lineOr : Gives (AllGood good s) (lineOr statement) := by
  refine .after fun newline => ?_
  split
  · exact .done .nil
  · exact statements

theorem gives_block : Gives (AllGood good s) (block statement) := by
  have indented : Gives (AllGood good s) (indented statement) := by
    refine .after fun indent => ?_
    split
    · refine .repeatFrom (AllGood good s) .nil fun done before => .after fun dedent => ?_
      split
      · exact .done before.reverse
      · refine .after fun eof => ?_
        split
        · exact .done before.reverse
        · exact (gives_lineOr statements).andThen fun more all => .done (all.more before)
    · exact .fail _
  refine .after fun _ => .after fun newline => ?_
  split
  · exact indented
  · exact statements

omit statements

variable (keeps : Keeps k good) {block : Parser (List Stmt)} (blocks : Gives (AllGood good s) block)

include keeps blocks

theorem gives_branches {first : Expr × List Stmt} (head : Given k.expr first.1)
    (body : AllGood good s first.2) : Gives (good s) (branches k block first) := by
  refine .repeatFrom (fun done => ∀ branch ∈ done, Given k.expr branch.1 ∧ AllGood good s branch.2)
    (List.forall_mem_singleton.2 ⟨head, body⟩) fun done before => .after fun elif => ?_
  have turned : ∀ branch ∈ done.reverse, Given k.expr branch.1 ∧ AllGood good s branch.2 :=
    fun branch mem => before branch (List.mem_reverse.1 mem)
  split
  · refine (Gives.given k.expr).andThen fun cond read => blocks.andThen fun body all => .done ?_
    exact List.forall_mem_cons.2 ⟨⟨read, all⟩, before⟩
  · refine .after fun otherwise => ?_
    split
    · exact blocks.andThen fun body all => .done (keeps.cond turned all)
    · exact .done (keeps.cond turned .nil)

theorem gives_attempt : Gives (good s) (attempt k block) := by
  have part (word : String) : Gives (AllGood good s) (partAfter word block) := by
    refine .after fun found => ?_
    split
    · exact blocks
    · exact .done .nil
  have handlers : Gives (fun handlers => ∀ h ∈ handlers, ∃ class_ name body, h = .mk class_ name body ∧
      Given (caught k) (class_, name) ∧ AllGood good s body) (handlers k block) := by
    refine .repeatFrom (fun done => ∀ h ∈ done, ∃ class_ name body, h = .mk class_ name body ∧
      Given (caught k) (class_, name) ∧ AllGood good s body) nofun fun done before => .after fun except => ?_
    split
    · split
      · exact .fail _
      · have one : Gives (fun h => ∃ class_ name body, h = .mk class_ name body ∧
            Given (caught k) (class_, name) ∧ AllGood good s body) (handler k block) :=
          (Gives.given (caught k)).andThen fun _ read => blocks.andThen fun body all =>
            .done ⟨_, _, body, rfl, read, all⟩
        exact one.andThen fun h found => .done (List.forall_mem_cons.2 ⟨found, before⟩)
    · exact .done fun h mem => before h (List.mem_reverse.1 mem)
  refine blocks.andThen fun body all => handlers.andThen fun handlers handled => ?_
  have orelse : Gives (AllGood good s) (elsePart handlers block) := by
    unfold elsePart
    split
    · exact .done .nil
    · exact part "else"
  refine orelse.andThen fun orelse all_else => (part "finally").andThen fun final all_final => ?_
  split
  · exact .fail _
  · exact .done (keeps.attempt all handled all_else all_final)

omit blocks

theorem gives_oneOf {inner : Surroundings → Parser (List Stmt)}
    (inners : ∀ s, Gives (AllGood good s) (inner s)) (s : Surroundings) :
    Gives (AllGood good s) (oneOf k inner s) := by
  have blocks (s : Surroundings) := gives_block (inners s)
  have compound {word : String} {kind : Parser StmtKind} (h : compound? k inner s word = some kind) :
      Gives (good s) kind := by
    unfold compound? at h
    split at h <;> cases h
    · exact (Gives.given k.expr).andThen fun cond read => (blocks s).andThen fun body all =>
        gives_branches keeps (blocks s) read all
    · exact (Gives.given k.expr).andThen fun cond read => (blocks _).andThen fun body all =>
        .done (keeps.loop read all)
    · refine (Gives.given (targetList k)).andThen fun target read => .after fun _ => ?_
      exact (Gives.given (exprList k)).andThen fun source read' => (blocks _).andThen fun body all =>
        .done (keeps.each read read' all)
    · exact (Gives.given (signature k)).andThen fun head read => (blocks _).andThen fun body all =>
        .done (keeps.define read all)
    · exact gives_attempt keeps (blocks s)
  refine .after fun kind => ?_
  split
  · split
    · next same =>
      refine (gives_located (.after fun _ => compound same)).andThen fun stmt is_good => .done ?_
      exact List.forall_mem_singleton.2 is_good
    · split
      · exact .fail _
      · exact gives_simpleLine (keeps.simple s)
  · exact gives_simpleLine (keeps.simple s)

theorem gives_read (depth : Nat) (s : Surroundings) : Gives (AllGood good s) (read k depth s) := by
  induction depth generalizing s with
  | zero => exact .fail _
  | succ depth ih => exact gives_oneOf keeps ih s

end Statement

end

theorem gives_program {good : Surroundings → StmtKind → Prop} {template : TemplateReader}
    (keeps : ∀ size, Keeps (outermost template size) good) :
    Gives (AllGood good .outermost) (program template) := by
  refine .after fun c => .repeatFrom (AllGood good .outermost) .nil fun done before => .after fun eof => ?_
  split
  · exact .done before.reverse
  · refine (Statement.gives_lineOr (Statement.gives_read (keeps _) _ _)).andThen fun more all => ?_
    exact .done (all.more before)

theorem parse_ok {source : String} {body : List Stmt} :
    parse source = .ok body ↔ ∃ tokens r, tokenize source = .ok tokens ∧
      program (template (source.length + 1)) (.ofTokens tokens) = .ok (body, r) := by
  unfold parse
  cases tokenize source with
  | error => simp [bind, Except.bind]
  | ok tokens =>
    simp only [Except.ok.injEq, exists_and_left, exists_eq_left']
    change (do
      let result ← program (template (source.length + 1)) (.ofTokens tokens)
      return result.1) = Except.ok body ↔ _
    cases program (template (source.length + 1)) (.ofTokens tokens) with
    | error => simp [bind, Except.bind]
    | ok result => simp [bind, Except.bind, pure, Except.pure, Prod.ext_iff]

/-- What every rule keeps holds of all statements of a program. -/
theorem allGood_of_parse {good : Surroundings → StmtKind → Prop} {source : String} {body : List Stmt}
    (keeps : ∀ size, Keeps (outermost (template (source.length + 1)) size) good)
    (h : parse source = .ok body) : AllGood good .outermost body := by
  obtain ⟨tokens, r, -, read⟩ := parse_ok.1 h
  exact gives_program keeps _ body r read

end SnippetKernel.Source
