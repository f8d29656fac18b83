import SnippetKernel.Proofs.Source.Joining
import SnippetKernel.Proofs.Source.Statements

/-! Two programs with a line end between them are one program: the statements of the first, and then those
of the second, whose lines are counted on. -/
namespace SnippetKernel.Source

open Source.Parser Grammar Text

theorem turns_of_inl {α σ : Type} {step : σ → Parser (σ ⊕ α)} {s s' : σ} {c c' : Cursor}
    (turn : step s c = .ok (.inl s', c')) (n : Nat) : turns step (n + 1) s c = turns step n s' c' := by
  change (step s c >>= fun read => _) = _
  rw [turn]
  rfl

theorem turns_of_inr {α σ : Type} {step : σ → Parser (σ ⊕ α)} {s : σ} {x : α} {c c' : Cursor}
    (turn : step s c = .ok (.inr x, c')) (n : Nat) : turns step (n + 1) s c = .ok (x, c') := by
  change (step s c >>= fun read => _) = _
  rw [turn]
  rfl

/-- A turn that takes nothing is taken again and again, until there are no turns left. -/
theorem turns_stuck {α σ : Type} {step : σ → Parser (σ ⊕ α)} {c : Cursor}
    (stuck : ∀ s, ∃ s', step s c = .ok (.inl s', c)) (n : Nat) (s : σ) (x : α) (r : Cursor) :
    turns step n s c ≠ .ok (x, r) := by
  induction n generalizing s with
  | zero => nofun
  | succ n ih =>
    intro read
    obtain ⟨turn, c', first, rest⟩ := bind_ok.1 read
    obtain ⟨s', same⟩ := stuck s
    rw [same] at first
    cases first
    exact ih s' rest

section

variable {q : Sequel} {p p' : Parser (List Stmt)} {done body : List Stmt} {c c' r : Cursor}

theorem programTurn_atEof (atEof : c.peek = .eof) : programTurn p done c = .ok (.inr done.reverse, c) := by
  unfold programTurn
  rw [check_bind]
  change (if decide (c.peek = .eof) then _ else _ : Parser (List Stmt ⊕ List Stmt)) c = _
  rw [atEof]
  rfl

theorem programTurn_more (more : c.peek ≠ .eof) :
    programTurn p done c =
      (Statement.lineOr p >>= fun stmts => pure (Sum.inl (stmts.reverseAux done))) c := by
  unfold programTurn
  rw [check_bind]
  change (if decide (c.peek = .eof) then _ else _ : Parser (List Stmt ⊕ List Stmt)) c = _
  rw [decide_eq_false more]
  rfl

/-- After all statements of the first text, the second parser goes on with the sequel, and has turns left
for it. -/
theorem turns_onward (statements : Statement.CopiesStatements q p p') {n fuel more : Nat}
    (base : List Stmt) (beside : Beside q (.between 0) c c')
    (h : turns (programTurn p) n done c = .ok (body, r)) (room : c.rest.length + more ≤ fuel + 1) :
    ∃ fuel' c'', more ≤ fuel' ∧ c''.rest = q.tokens ∧ c''.size = q.size ∧ (∀ n, q.brackets n = n) ∧
      turns (programTurn p') fuel (renumberBlock q.lines done ++ base) c' =
        turns (programTurn p') fuel' ((renumberBlock q.lines body).reverse ++ base) c'' := by
  induction n generalizing done c c' fuel with
  | zero => cases h
  | succ n ih =>
    obtain ⟨turn, c₁, first, rest⟩ := bind_ok.1 h
    by_cases atEof : c.peek = .eof
    · rw [programTurn_atEof atEof] at first
      cases first
      cases rest
      obtain ⟨last, rest', closed⟩ := beside.atEof atEof
      refine ⟨fuel, c', by omega, rest', beside.size, closed, ?_⟩
      rw [renumberBlock_reverse, List.reverse_reverse]
    · have inside := beside.inside atEof
      rw [programTurn_more atEof] at first
      obtain ⟨stmts, _, read, ended⟩ := bind_ok.1 first
      cases ended
      obtain ⟨taken, c₁', rfl, read', beside₁⟩ :=
        Statement.copies_lineOr statements 0 c c' inside stmts _ read
      have progress : taken ≠ 0 := by
        rintro rfl
        refine turns_stuck (fun done => ⟨stmts.reverseAux done, ?_⟩) _ _ _ _ h
        rw [programTurn_more atEof]
        exact bind_ok.2 ⟨stmts, c, read, rfl⟩
      have atEof' : c'.peek ≠ .eof := inside.alike.peek ▸ atEof
      obtain ⟨t, ts, t', ts', line, tokens, -, -⟩ := inside.heads
      have tokens := congrArg List.length tokens
      rw [List.length_append, List.length_cons, List.length_singleton] at tokens
      obtain ⟨fuel, rfl⟩ : ∃ fuel', fuel = fuel' + 1 := ⟨fuel - 1, by omega⟩
      have shorter : (c.drop taken).rest.length + more ≤ fuel + 1 := by
        simp only [Cursor.drop, List.length_drop]
        omega
      have turned : programTurn p' (renumberBlock q.lines done ++ base) c' =
          .ok (.inl (renumberBlock q.lines (stmts.reverseAux done) ++ base), c₁') := by
        rw [programTurn_more atEof']
        refine bind_ok.2 ⟨_, _, read', ?_⟩
        rw [renumberBlock_reverseAux, List.reverseAux_eq, List.reverseAux_eq, List.append_assoc]
        rfl
      obtain ⟨fuel', c'', enough, rest'', size, closed, same⟩ := ih beside₁ rest shorter
      refine ⟨fuel', c'', enough, rest'', size, closed, ?_⟩
      rw [← same]
      exact turns_of_inl turned fuel

end

/-! The tokens of a text make up a region. -/

theorem tokenize_sound {source : String} {tokens : List Token} (h : tokenize source = .ok tokens) :
    ∃ s : Scan, s.Sound (1 + newlines source.toList) [] ∧ tokens = s.finish := by
  obtain ⟨s, sound, -, same, -⟩ := Scan.run_before (Scan.Sound.begin source) h
  exact ⟨s, sound, same⟩

/-- The tokens before the end of the text. -/
def Scan.body (s : Scan) (closing : Nat) : List Token :=
  s.endLine.tokens.reverse ++ Scan.closings closing s.indents

theorem Scan.finish_eq_body (s : Scan) : s.finish = s.body s.line ++ [⟨.eof, s.line⟩] := s.finish_eq

theorem countP_closings (line : Nat) (widths : List Nat) :
    (Scan.closings line widths).countP Token.isDedent = widths.length ∧
      (Scan.closings line widths).countP Token.isIndent = 0 := by
  simp [Scan.closings, List.countP_replicate, Token.isDedent, Token.isIndent]

theorem layout_of_settled {ts : List Token} (settled : Settled ts) :
    ∀ t ∈ ts.head?, t.kind.isLayout = true := by
  cases ts with
  | nil => exact fun _ none => nomatch none
  | cons t ts =>
    rintro _ ⟨⟩
    rcases settled with h | h | h <;> rw [h] <;> rfl

theorem region_body {q : Sequel} {s : Scan} {total : Nat} {ts' : List Token} (sound : s.Sound total [])
    (twins : List.Forall₂ (Token.Twin q.lines) (s.body s.line) ts')
    (brackets : ∀ n, depthAfter n ((s.body s.line).map (·.kind)) = q.brackets n) :
    Region q (.between 0) (s.body s.line) ts' where
  twins := twins
  brackets := brackets
  no_eof := by
    simp only [Scan.body, List.forall_mem_append, List.mem_reverse]
    refine ⟨sound.endLine.no_eof, fun t closing => ?_⟩
    obtain ⟨_, -, rfl⟩ := List.mem_map.1 closing
    rintro ⟨⟩
  ended := by
    have settled := Scan.settled_closings (Scan.Sound.settled_endLine s) s.line s.indents
    rw [← List.head?_reverse, Scan.body, List.reverse_append, List.reverse_reverse]
    exact layout_of_settled settled
  blocks := by
    have counted := sound.endLine.blocks
    have same : s.endLine.indents = s.indents := by rw [Scan.endLine_eq]
    obtain ⟨dedents, indents⟩ := countP_closings s.line s.indents
    simp only [Scan.body, List.countP_append, List.countP_reverse, dedents, indents, counted, same]
    rfl
  more := by rintro _ ⟨⟩

/-- A copy of the tokens of the body, where blocks may be closed elsewhere. -/
theorem twins_body (s : Scan) (closing : Nat) :
    List.Forall₂ (Token.Twin id) (s.body s.line) (s.body closing) := by
  refine List.rel_append (List.forall₂_same.2 fun t _ => ⟨rfl, fun _ => rfl⟩) ?_
  refine List.forall₂_map_left_iff.2 (List.forall₂_map_right_iff.2 (List.forall₂_same.2 fun _ _ => ?_))
  exact ⟨rfl, nofun⟩

theorem twins_below (d : Nat) (ts : List Token) :
    List.Forall₂ (Token.Twin (· + d)) ts (ts.map (·.below d)) :=
  List.forall₂_map_right_iff.2 (List.forall₂_same.2 fun _ _ => ⟨rfl, fun _ => rfl⟩)

/-- How the statements of a program are read from `size` tokens. -/
def outermostStatement (template : TemplateReader) (size : Nat) : Parser (List Stmt) :=
  Statement.read (outermost template size) (size + 1) .outermost

theorem program_eq (template : TemplateReader) (c : Cursor) :
    program template c =
      turns (programTurn (outermostStatement template c.size)) (c.size + 1) [] c := rfl

/-- A program begins with a statement, or with an empty line, or is empty. -/
theorem program_begins {template : TemplateReader} {c r : Cursor} {body : List Stmt}
    (h : program template c = .ok (body, r)) (startless : c.peek.startless = true) :
    c.peek = .newline ∨ c.peek = .eof := by
  by_cases atEof : c.peek = .eof
  · exact .inr atEof
  refine .inl (Classical.byContradiction fun newline => ?_)
  rw [program_eq] at h
  obtain ⟨turn, _, first, -⟩ := bind_ok.1 h
  rw [programTurn_more atEof] at first
  obtain ⟨stmts, c₁, read, -⟩ := bind_ok.1 first
  unfold Statement.lineOr at read
  rw [eat_bind] at read
  change (if c.peek = .newline then _ else outermostStatement template c.size : Parser _) c = _ at read
  rw [if_neg newline] at read
  exact Statement.refuses_oneOf (Statement.refuses_expr template c.size) _ _ c startless stmts c₁ read

/-- The second parser comes to the sequel with the statements of the first text behind those it had. -/
theorem program_onward {q : Sequel} {template template' : TemplateReader}
    (templates : TemplateReads template template') {c c' r : Cursor} {body : List Stmt}
    (beside : Beside q (.between 0) c c') (h : program template c = .ok (body, r)) (base : List Stmt)
    {fuel : Nat} (more : Nat) (room : c.rest.length + more ≤ fuel + 1) :
    ∃ fuel' c'', more ≤ fuel' ∧ c''.rest = q.tokens ∧ c''.size = q.size ∧ (∀ n, q.brackets n = n) ∧
      turns (programTurn (outermostStatement template' q.size)) fuel base c' =
        turns (programTurn (outermostStatement template' q.size)) fuel'
          ((renumberBlock q.lines body).reverse ++ base) c'' := by
  have size : c.size ≤ q.size := beside.size ▸ beside.room
  have statements : Statement.CopiesStatements q (outermostStatement template c.size)
      (outermostStatement template' q.size) :=
    Statement.copies_read (levelReads_outermost templates size) (Statement.refuses_expr template c.size)
      (Nat.succ_le_succ size) .outermost
  rw [program_eq] at h
  exact turns_onward statements base beside h room

/-- The end of a text is no sequel at all. -/
def Sequel.nothing (lines : Nat → Nat) (s : Scan) (line size : Nat) : Sequel where
  lines := lines
  tokens := [⟨.eof, line⟩]
  fresh := by
    rintro t ⟨⟩ word - ⟨⟩
  brackets := fun n => depthAfter n ((s.body s.line).map (·.kind))
  size := size

/-- In a program all brackets are closed. -/
theorem closed_of_program {depth : Nat} {s : Scan} {total : Nat} {r : Cursor} {body : List Stmt}
    (sound : s.Sound total []) (h : program (template depth) (.ofTokens s.finish) = .ok (body, r)) :
    depthAfter 0 (s.finish.map (·.kind)) = 0 := by
  have region : Region (.nothing id s s.line s.finish.length) (.between 0) (s.body s.line) (s.body s.line) :=
    region_body sound (twins_body s s.line) fun _ => rfl
  have beside : Beside (.nothing id s s.line s.finish.length) (.between 0) (.ofTokens s.finish)
      (.ofTokens s.finish) :=
    ⟨Nat.le_refl _, rfl, _, _, s.line, s.finish_eq_body, s.finish_eq_body, region⟩
  obtain ⟨-, -, -, -, -, closed, -⟩ :=
    program_onward (templateReads_template (Nat.le_refl depth)) beside h [] 0 (Nat.le_succ _)
  rw [Scan.finish_eq_body, List.map_append, depthAfter_append]
  exact closed 0

/-- A program does not begin in the middle of a statement. -/
theorem begins_of_program {template : TemplateReader} {tokens : List Token} {r : Cursor} {body : List Stmt}
    (h : program template (.ofTokens tokens) = .ok (body, r)) {t : Token} (first : t ∈ tokens.head?)
    (startless : t.kind.startless = true) : t.kind = .newline ∨ t.kind = .eof := by
  cases tokens with
  | nil => cases first
  | cons u rest =>
    cases first
    exact program_begins h startless

/-- The tokens of a program as a sequel of others. -/
def Sequel.program {template : TemplateReader} {tokens : List Token} {r : Cursor} {body : List Stmt}
    (h : Source.program template (.ofTokens tokens) = .ok (body, r)) (d : Nat) (s : Scan) (size : Nat) :
    Sequel where
  lines := id
  tokens := tokens.map (·.below d)
  fresh := by
    intro t head word on kind
    rw [List.head?_map] at head
    obtain ⟨u, first, rfl⟩ := Option.map_eq_some_iff.1 head
    have startless : u.kind.startless = true := by
      rw [show u.kind = .name word from kind]
      exact List.contains_iff_mem.2 on
    rcases begins_of_program h first startless with h | h <;> cases h.symm.trans kind
  brackets := fun n => depthAfter n ((s.body s.line).map (·.kind))
  size := size

/-- Reading the tokens of two programs: first those of the first, where its last blocks may be closed on
another line, and then those of the second, further down. -/
theorem program_join {depth₁ depth₂ depth : Nat} (deep₁ : depth₁ ≤ depth) (deep₂ : depth₂ ≤ depth)
    {s t : Scan} {total₁ total₂ : Nat} (sound₁ : s.Sound total₁ []) (sound₂ : t.Sound total₂ [])
    {first second : List Stmt} {r₁ r₂ : Cursor}
    (read₁ : program (template depth₁) (.ofTokens s.finish) = .ok (first, r₁))
    (read₂ : program (template depth₂) (.ofTokens t.finish) = .ok (second, r₂)) (closing d : Nat) :
    ∃ r, program (template depth) (.ofTokens (s.body closing ++ t.finish.map (·.below d))) =
      .ok (first ++ renumberBlock (· + d) second, r) := by
  generalize all : s.body closing ++ t.finish.map (·.below d) = tokens
  have region₁ : Region (.program read₂ d s tokens.length) (.between 0) (s.body s.line) (s.body closing) :=
    region_body sound₁ (twins_body s closing) fun _ => rfl
  have length₁ : s.finish.length = (s.body closing).length + 1 := by
    rw [Scan.finish_eq_body, List.length_append, region₁.twins.length_eq]
    rfl
  have length₂ : t.finish.length = (t.body t.line).length + 1 := by
    rw [Scan.finish_eq_body, List.length_append]
    rfl
  have length : tokens.length = (s.body closing).length + t.finish.length := by
    rw [← all, List.length_append, List.length_map]
  have beside₁ : Beside (.program read₂ d s tokens.length) (.between 0) (.ofTokens s.finish)
      (.ofTokens tokens) :=
    ⟨by simp only [Cursor.ofTokens]; omega, rfl, _, _, s.line, s.finish_eq_body, all.symm, region₁⟩
  have room₁ : s.finish.length + (t.finish.length + 1) ≤ tokens.length + 1 + 1 := by omega
  obtain ⟨fuel, c, enough, rest, size, -, same⟩ :=
    program_onward (templateReads_template deep₁) beside₁ read₁ [] _ room₁
  have region₂ : Region (.nothing (· + d) t (t.line + d) tokens.length) (.between 0) (t.body t.line)
      ((t.body t.line).map (·.below d)) :=
    region_body sound₂ (twins_below d _) fun _ => rfl
  have goesOn : c.rest = (t.body t.line).map (·.below d) ++ [⟨.eof, t.line + d⟩] := by
    have tokens : t.finish.map (·.below d) = _ := congrArg (List.map (·.below d)) t.finish_eq_body
    rw [rest]
    exact tokens.trans List.map_append
  have wide : t.finish.length ≤ c.size := by
    have size : c.size = tokens.length := size
    omega
  have beside₂ : Beside (.nothing (· + d) t (t.line + d) tokens.length) (.between 0) (.ofTokens t.finish) c :=
    ⟨wide, size, _, _, t.line, t.finish_eq_body, goesOn, region₂⟩
  obtain ⟨fuel', c', enough', rest', -, -, same'⟩ :=
    program_onward (templateReads_template deep₂) beside₂ read₂ ((renumberBlock id first).reverse ++ []) 1
      (Nat.le_succ_of_le enough)
  obtain ⟨fuel', rfl⟩ : ∃ n, fuel' = n + 1 := ⟨fuel' - 1, by omega⟩
  have atEof : c'.peek = .eof := by
    rw [Cursor.peek, rest']
    rfl
  refine ⟨c', ?_⟩
  rw [program_eq]
  refine (same.trans same').trans ((turns_of_inr (programTurn_atEof atEof) fuel').trans ?_)
  have kept : renumberBlock id first = first := renumberBlock_of_fixed first fun _ _ => rfl
  rw [List.append_nil, List.reverse_append, List.reverse_reverse, List.reverse_reverse, kept]
  rfl

theorem parse_join {a b : String} {first second : List Stmt} (ha : parse a = .ok first)
    (hb : parse b = .ok second) :
    parse (a ++ "\n" ++ b) = .ok (first ++ renumberBlock (· + (1 + newlines a.toList)) second) := by
  obtain ⟨as, r, scanned, read⟩ := parse_ok.1 ha
  obtain ⟨bs, r', scanned', read'⟩ := parse_ok.1 hb
  have flat : depthAfter 0 (as.map (·.kind)) = 0 := by
    obtain ⟨s, sound, rfl⟩ := tokenize_sound scanned
    exact closed_of_program sound read
  have flush : bs.head?.map (·.kind) ≠ some .indent := by
    intro indent
    obtain ⟨u, first, kind⟩ := Option.map_eq_some_iff.1 indent
    have begins := begins_of_program read' first
    rw [kind] at begins
    rcases begins rfl with h | h <;> cases h
  obtain ⟨s, sound, rfl, closing, joined⟩ := tokenize_join scanned scanned' flat flush
  obtain ⟨t, sound', rfl⟩ := tokenize_sound scanned'
  have deep : a.length + 1 ≤ (a ++ "\n" ++ b).length + 1 ∧ b.length + 1 ≤ (a ++ "\n" ++ b).length + 1 := by
    simp only [String.length_append]
    omega
  obtain ⟨r'', both⟩ := program_join deep.1 deep.2 sound sound' read read' closing _
  exact parse_ok.2 ⟨_, r'', joined, both⟩

end SnippetKernel.Source
