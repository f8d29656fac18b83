import SnippetKernel.Proofs.Source.Sequel
import SnippetKernel.Proofs.Source.Templates
import SnippetKernel.Proofs.Source.Placement
import SnippetKernel.Proofs.Source.Expressions

/-! Every rule for statements reads the same in a text and in a text that goes on behind it. -/
namespace SnippetKernel.Source

open Source.Parser Grammar

namespace Statement

variable {α : Type} {k k' : Level}

/-! No statement begins at the end of a line, or with a word that goes on with another. -/

/-- Nothing is read where no statement begins. -/
def Refuses (p : Parser α) : Prop := ∀ c : Cursor, c.peek.startless = true → ∀ x r, p c ≠ .ok (x, r)

theorem startless_cases {kind : TokenKind} (startless : kind.startless = true) :
    kind ∈ [.newline, .indent, .dedent, .eof, .name "elif", .name "else", .name "except",
      .name "finally"] := by
  unfold TokenKind.startless at startless
  split at startless
  · exact .head _
  · exact .tail _ (.head _)
  · exact .tail _ (.tail _ (.head _))
  · exact .tail _ (.tail _ (.tail _ (.head _)))
  · next word =>
    simp only [goingOn, List.contains_cons, List.contains_nil, Bool.or_false, Bool.or_eq_true, beq_iff_eq]
      at startless
    simpa using startless
  · cases startless

/-- An expression is not read there, since none of its rules takes such a token first. -/
theorem refuses_expr (template : TemplateReader) (size : Nat) : Refuses (outermost template size).expr := by
  rintro ⟨rest, lastLine, turns⟩ startless x r read
  suffices failed : ∃ e, (outermost template size).expr ⟨rest, lastLine, turns⟩ = .error e by
    obtain ⟨e, failed⟩ := failed
    rw [failed] at read
    cases read
  clear read
  cases rest with
  | nil => exact ⟨_, rfl⟩
  | cons t rest =>
    obtain ⟨kind, line⟩ := t
    have kinds := startless_cases startless
    simp only [Cursor.peek, List.mem_cons, List.not_mem_nil, or_false] at kinds
    rcases kinds with rfl | rfl | rfl | rfl | rfl | rfl | rfl | rfl <;> exact ⟨_, rfl⟩

theorem Refuses.andThen {β : Type} {p : Parser α} (refuses : Refuses p) (f : α → Parser β) :
    Refuses (p >>= f) := by
  intro c startless x r read
  obtain ⟨y, r', first, -⟩ := bind_ok.1 read
  exact refuses c startless y r' first

theorem refuses_simple (refuses : Refuses k.expr) (s : Surroundings) : Refuses (simple k s) := by
  intro c startless x r read
  obtain ⟨_, _, found, read⟩ := bind_ok.1 read
  cases found
  generalize same : c.peek = kind at read
  split at read
  case h_10 => exact (refuses.andThen _).andThen _ c startless x r read
  all_goals
    rw [same] at startless
    exact absurd startless (by decide)

theorem refuses_located {kind : Parser StmtKind} (refuses : Refuses kind) : Refuses (located kind) := by
  intro c startless x r read
  obtain ⟨_, _, found, read⟩ := bind_ok.1 read
  cases found
  exact refuses.andThen _ c startless x r read

theorem Refuses.repeatFrom {σ : Type} {step : σ → Parser (σ ⊕ α)} (steps : ∀ s, Refuses (step s)) (s : σ) :
    Refuses (Parser.repeatFrom s step) :=
  fun c => ((steps s).andThen _ : Refuses (Parser.turns step (c.size + 1) s)) c

theorem refuses_simpleLine (refuses : Refuses k.expr) (s : Surroundings) : Refuses (simpleLine k s) :=
  (Refuses.repeatFrom (fun _ => (refuses_located (refuses_simple refuses s)).andThen _) _).andThen _

theorem refuses_oneOf (refuses : Refuses k.expr) (inner : Surroundings → Parser (List Stmt))
    (s : Surroundings) : Refuses (oneOf k inner s) := by
  intro c startless x r read
  obtain ⟨_, _, found, read⟩ := bind_ok.1 read
  cases found
  have line := refuses_simpleLine refuses s c startless x r
  have kinds := startless_cases startless
  simp only [List.mem_cons, List.not_mem_nil, or_false] at kinds
  rcases kinds with same | same | same | same | same | same | same | same <;> rw [same] at read <;>
    exact line read

/-! Statements with blocks. -/

variable {q : Sequel} {blocks : Nat}

/-- Read in a line, and up to the end of a line. -/
def CopiesStatements (q : Sequel) (p p' : Parser (List Stmt)) : Prop :=
  ∀ blocks, Copies q (.inside blocks) (fun _ => .between blocks) (renumberBlock q.lines) p p'

theorem copiesHere_located {kind kind' : Parser StmtKind} {c c' : Cursor} {after : Place}
    (line : c'.line = q.lines c.line)
    (copies : CopiesHere q (fun _ => after) (StmtKind.renumber q.lines) kind kind' c c') :
    CopiesHere q (fun _ => after) (Stmt.renumber q.lines) (located kind) (located kind') c c' := by
  intro x r read
  obtain ⟨_, _, found, read⟩ := bind_ok.1 read
  cases found
  obtain ⟨x, _, first, read⟩ := bind_ok.1 read
  cases read
  obtain ⟨n, r', rest, read', beside⟩ := copies x _ first
  refine ⟨n, r', rest, bind_ok.2 ⟨c'.line, c', rfl, bind_ok.2 ⟨_, r', read', ?_⟩⟩, beside⟩
  rw [line]
  rfl

theorem startless_of_layout {kind : TokenKind} (layout : kind.isLayout = true) : kind.startless = true := by
  cases kind <;> first | rfl | cases layout

theorem copies_simple (levels : LevelReads k k') (refuses : Refuses k.expr) (s : Surroundings) :
    Copies q (.inside blocks) (fun _ => .inside blocks) (Stmt.renumber q.lines)
      (located (simple k s)) (located (simple k' s)) := by
  intro c c' beside x r read
  have word : c.peek.isLayout = false := by
    refine Bool.eq_false_iff.2 fun layout => ?_
    exact refuses_located (refuses_simple refuses s) c (startless_of_layout layout) x r read
  refine copiesHere_located (beside.line word) (fun kind r read => ?_) x r read
  obtain ⟨n, r', rest, read', beside'⟩ := (alike_simple levels s : Reads 0 0 _ _).copies c c' beside kind r read
  rw [StmtKind.renumber_of_isSimple (gives_simple c kind r read).1]
  exact ⟨n, r', rest, read', beside'⟩

theorem copies_simples (levels : LevelReads k k') (refuses : Refuses k.expr) (s : Surroundings) :
    Copies q (.inside blocks) (fun _ => .inside blocks) (renumberBlock q.lines) (simples k s)
      (simples k' s) := by
  unfold simples
  refine .repeatFrom (g := renumberBlock q.lines) (fun done => ?_) []
  refine (copies_simple levels refuses s).andThen fun stmt => ?_
  have turned := renumberBlock_reverse q.lines (stmt :: done)
  refine Copies.eat (Beside.skip_word rfl fun _ => rfl) ?_ ?_
  · refine .peek fun kind _ => ?_
    split
    · exact .give rfl (congrArg Sum.inr turned)
    · exact .give rfl (congrArg Sum.inr turned)
    · exact .give rfl rfl
  · exact .give rfl (congrArg Sum.inr turned)

theorem copies_simpleLine (levels : LevelReads k k') (refuses : Refuses k.expr) (s : Surroundings) :
    CopiesStatements q (simpleLine k s) (simpleLine k' s) := by
  intro blocks
  refine (copies_simples levels refuses s).andThen fun body => .peek fun kind more => ?_
  have ended : Copies q (.between blocks) (fun _ => .between blocks) (renumberBlock q.lines) (pure body)
      (pure (renumberBlock q.lines body)) := .give rfl rfl
  split
  · exact .skip Beside.skip_newline ended
  · exact absurd rfl more
  · exact ended.of_between.at _
  · exact fun _ _ _ _ _ _ h => nomatch h

theorem copies_lineOr {p p' : Parser (List Stmt)} (statements : CopiesStatements q p p') :
    CopiesStatements q (lineOr p) (lineOr p') :=
  fun blocks => .eat Beside.skip_newline (.give rfl rfl) (statements blocks)

theorem copies_indented {p p' : Parser (List Stmt)} (statements : CopiesStatements q p p') :
    Copies q (.between blocks) (fun _ => .between blocks) (renumberBlock q.lines) (indented p)
      (indented p') := by
  unfold indented
  refine .of_inside ?_ (.eat Beside.skip_indent (.of_between ?_) (.fail _ _))
  · intro c atEof x r read
    rw [eat_bind] at read
    obtain ⟨_, _, found, read⟩ := bind_ok.1 read
    cases found
    rw [atEof, if_neg nofun] at read
    cases read
  · refine .repeatFrom (g := renumberBlock q.lines) (fun done => .in_block ?_) []
    have turned := renumberBlock_reverse q.lines done
    refine .eat Beside.skip_dedent (.give rfl (congrArg Sum.inr turned)) ?_
    refine .notOver ((copies_lineOr statements _).andThen fun more => .give rfl ?_)
    exact congrArg Sum.inl (renumberBlock_reverseAux q.lines more done)

theorem copies_block {p p' : Parser (List Stmt)} (statements : CopiesStatements q p p') :
    CopiesStatements q (block p) (block p') := by
  intro blocks
  refine Reads.thenCopies (Reads.likeness.expectSymbol fun _ => rfl) fun _ => ?_
  exact .eat Beside.skip_newline (copies_indented statements) (statements blocks)

theorem copies_branches (levels : LevelReads k k') {p p' : Parser (List Stmt)}
    (statements : CopiesStatements q p p') (first : Expr × List Stmt) :
    Copies q (.between blocks) (fun _ => .between blocks) (StmtKind.renumber q.lines)
      (branches k p first) (branches k' p' (first.1, renumberBlock q.lines first.2)) := by
  unfold branches
  refine .repeatFrom (g := renumberBranches q.lines) (fun done => ?_) [first]
  have turned := renumberBranches_reverse q.lines done
  refine .eatGoingOn (by decide) ?_ (.eatGoingOn (by decide) ?_ ?_)
  · refine Reads.thenCopies (alike_expr levels) fun cond => (statements blocks).andThen fun body => ?_
    exact .give rfl rfl
  · refine (statements blocks).andThen fun body => .give rfl ?_
    simp only [Sum.map_inr, StmtKind.renumber, turned]
  · refine .give rfl ?_
    simp only [Sum.map_inr, StmtKind.renumber, turned]
    rfl

theorem copies_handlers (levels : LevelReads k k') {p p' : Parser (List Stmt)}
    (statements : CopiesStatements q p p') :
    Copies q (.between blocks) (fun _ => .between blocks) (renumberHandlers q.lines) (handlers k p)
      (handlers k' p') := by
  unfold handlers
  refine .repeatFrom (g := renumberHandlers q.lines) (fun done => ?_) []
  have catches : (renumberHandlers q.lines done).head?.any Handler.catchesAll =
      done.head?.any Handler.catchesAll := by
    cases done with
    | nil => rfl
    | cons h rest => cases h; rfl
  have handled : Copies q (.inside blocks) (fun _ => .between blocks) (Handler.renumber q.lines)
      (handler k p) (handler k' p') :=
    Reads.thenCopies (alike_caught levels) fun caught => (statements blocks).andThen fun body => .give rfl rfl
  refine .eatGoingOn (by decide) ?_ (.give rfl ?_)
  · simp only [if_true, catches]
    split
    · exact .fail _ _
    · exact handled.andThen fun h => .give rfl rfl
  · exact congrArg Sum.inr (renumberHandlers_reverse q.lines done)

theorem copies_partAfter {word : String} (on : word ∈ goingOn) {p p' : Parser (List Stmt)}
    (statements : CopiesStatements q p p') :
    Copies q (.between blocks) (fun _ => .between blocks) (renumberBlock q.lines) (partAfter word p)
      (partAfter word p') :=
  .eatGoingOn on (statements blocks) (.give rfl rfl)

theorem copies_attempt (levels : LevelReads k k') {p p' : Parser (List Stmt)}
    (statements : CopiesStatements q p p') :
    Copies q (.inside blocks) (fun _ => .between blocks) (StmtKind.renumber q.lines) (attempt k p)
      (attempt k' p') := by
  refine (statements blocks).andThen fun body => (copies_handlers levels statements).andThen fun handlers => ?_
  have none : (renumberHandlers q.lines handlers).isEmpty = handlers.isEmpty := by
    cases handlers <;> rfl
  have orelse : Copies q (.between blocks) (fun _ => .between blocks) (renumberBlock q.lines)
      (elsePart handlers p) (elsePart (renumberHandlers q.lines handlers) p') := by
    unfold elsePart
    rw [none]
    split
    · exact .give rfl rfl
    · exact copies_partAfter (by decide) statements
  refine orelse.andThen fun orelse => (copies_partAfter (by decide) statements).andThen fun final => ?_
  have without : (renumberBlock q.lines final).isEmpty = final.isEmpty := by cases final <;> rfl
  rw [none, without]
  split
  · exact .fail _ _
  · exact .give rfl rfl

theorem copies_compound (levels : LevelReads k k') {inner inner' : Surroundings → Parser (List Stmt)}
    (inners : ∀ s, CopiesStatements q (inner s) (inner' s)) (s : Surroundings) {word : String}
    {kind : Parser StmtKind} (blocks : Nat) (h : compound? k inner s word = some kind) :
    ∃ kind', compound? k' inner' s word = some kind' ∧
      Copies q (.inside blocks) (fun _ => .between blocks) (StmtKind.renumber q.lines) kind kind' := by
  have statements (s : Surroundings) := copies_block (inners s)
  unfold compound? at h
  split at h <;> cases h <;> refine ⟨_, rfl, ?_⟩
  · refine Reads.thenCopies (alike_expr levels) fun cond => (statements s blocks).andThen fun body => ?_
    exact copies_branches levels (statements s) (cond, body)
  · refine Reads.thenCopies (alike_expr levels) fun cond => (statements _ blocks).andThen fun body => ?_
    exact .give rfl rfl
  · refine Reads.thenCopies (alike_targetList levels) fun target => ?_
    refine Reads.thenCopies (Reads.likeness.expectWord _) fun _ => ?_
    refine Reads.thenCopies (alike_exprList levels) fun source => ?_
    exact (statements _ blocks).andThen fun body => .give rfl rfl
  · refine Reads.thenCopies (alike_signature levels) fun named => (statements _ blocks).andThen fun body => ?_
    exact .give rfl rfl
  · exact copies_attempt levels (statements s)

theorem no_compound {inner inner' : Surroundings → Parser (List Stmt)} {s : Surroundings} {word : String}
    (h : compound? k inner s word = none) : compound? k' inner' s word = none := by
  unfold compound? at h ⊢
  split at h <;> first | rfl | cases h

theorem copies_oneOf (levels : LevelReads k k') (refuses : Refuses k.expr)
    {inner inner' : Surroundings → Parser (List Stmt)}
    (inners : ∀ s, CopiesStatements q (inner s) (inner' s)) (s : Surroundings) :
    CopiesStatements q (oneOf k inner s) (oneOf k' inner' s) := by
  intro blocks
  have line := copies_simpleLine (q := q) levels refuses s blocks
  refine .peek fun kind more => ?_
  clear more
  split
  · next word =>
    split
    · next first same =>
      obtain ⟨second, same', copies⟩ := copies_compound levels inners s blocks same
      rw [same']
      intro c c' beside found
      have stays : c.peek.isLayout = false := by rw [found]; rfl
      have skipped : CopiesAt q (.name word) (.inside blocks) (fun _ => .between blocks)
          (StmtKind.renumber q.lines) (do skip; first) (do skip; second) :=
        .skip (Beside.skip_word rfl fun _ => rfl) copies
      refine (copiesHere_located (beside.line stays) (skipped c c' beside found)).andThen fun stmt => ?_
      exact .give rfl rfl
    · next none =>
      rw [no_compound none]
      dsimp only
      split
      · exact (Copies.fail _ _).at _
      · exact line.at _
  · exact line.at _

theorem copies_read (levels : LevelReads k k') (refuses : Refuses k.expr) {depth depth' : Nat}
    (more : depth ≤ depth') (s : Surroundings) : CopiesStatements q (read k depth s) (read k' depth' s) := by
  induction depth generalizing depth' s with
  | zero => exact fun _ => .fail _ _
  | succ depth ih =>
    obtain ⟨extra, rfl⟩ := Nat.exists_eq_add_of_le' more
    exact copies_oneOf levels refuses (fun s => ih (Nat.le_add_left _ _) s) s

end Statement

end SnippetKernel.Source
