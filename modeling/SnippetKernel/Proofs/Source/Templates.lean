import SnippetKernel.Proofs.Source.Expressions
import SnippetKernel.Proofs.Source.Reading

/-! Templates. What an f-string holds depends on its body alone, not on the line it is on, and a greater
bound on how deep templates may nest gives the same parts. -/
namespace SnippetKernel.Source

open Source.Parser Grammar

/-- What one reader of templates gives, the other gives too, on whatever line. -/
def TemplateReads (template template' : TemplateReader) : Prop :=
  ∀ body line line' parts, template body line = .ok parts → template' body line' = .ok parts

/-- What one level takes from others is the same for both. -/
abbrev LevelReads (k k' : Level) : Prop := Parser.Likeness.Levels Reads ReadsAt (fun _ _ => True) k k'

theorem TemplateReads.likeness {template template' : TemplateReader} (reads : TemplateReads template template') :
    Parser.Likeness.Templates Reads ReadsAt (fun _ _ => True) template template' where
  toLikeness := Reads.likeness
  body body line line' _ f f' next := by
    refine .skip rfl (fun _ => rfl) ?_
    cases read : template body line with
    | ok parts =>
      rw [reads body line line' parts read]
      exact next parts
    | error e => exact fun _ _ _ _ _ h => nomatch h

namespace Grammar

variable {template template' : TemplateReader}

/-- Every rule for expressions stays in its line and closes the brackets that it opens. -/
theorem reads_read (templates : TemplateReads template template') {fuel fuel' : Nat} (more : fuel ≤ fuel')
    (room : Nat) (entry : Entry) :
    Reads entry.opened 0 (read template fuel room entry) (read template' fuel' room entry) := by
  induction fuel generalizing fuel' room entry with
  | zero => exact .fail _ _
  | succ fuel ih =>
    obtain ⟨extra, rfl⟩ := Nat.exists_eq_add_of_le' more
    exact alike_read templates.likeness (fun room entry => ih (Nat.le_add_left _ _) room entry) room entry

theorem levelReads_outermost (templates : TemplateReads template template') {size size' : Nat}
    (room : size ≤ size') : LevelReads (outermost template size) (outermost template' size') where
  toLikeness := Reads.likeness
  deeper entry := reads_read templates (by omega) _ entry
  here entry := reads_read templates (by omega) _ entry

end Grammar

/-- The line of a placeholder is for errors alone. -/
theorem Placeholder.part_of_part {parse parse' : String → Nat → Except SyntaxError Expr}
    (same : ∀ source line line' e, parse source line = .ok e → parse' source line' = .ok e)
    {p : Placeholder} {line : Nat} {part : TemplatePart} (h : p.part parse line = .ok part) (line' : Nat) :
    p.part parse' line' = .ok part := by
  have quotes {quote : Bool} (h : p.wantsQuotes line = .ok quote) : p.wantsQuotes line' = .ok quote := by
    unfold wantsQuotes at h ⊢
    split at h <;> first | exact h | cases h
  unfold Placeholder.part at h ⊢
  dsimp only at h ⊢
  split at h
  · cases h
  · next full =>
    rw [if_neg full]
    cases wants : p.wantsQuotes line with
    | error e =>
      rw [wants] at h
      cases h
    | ok quote =>
      rw [wants] at h
      rw [quotes wants]
      cases read : parse (String.ofList p.source.reverse) line with
      | error e =>
        simp only [bind, Except.bind, read] at h
        cases h
      | ok expr =>
        simp only [bind, Except.bind, pure, Except.pure, read] at h ⊢
        rw [same _ _ line' _ read]
        exact h

theorem readTemplate_of_readTemplate {parse parse' : String → Nat → Except SyntaxError Expr}
    (same : ∀ source line line' e, parse source line = .ok e → parse' source line' = .ok e)
    (line line' : Nat) {literal : List Char} {done parts : List TemplatePart} {cs : List Char}
    (h : readTemplate parse line literal done cs = .ok parts) :
    readTemplate parse' line' literal done cs = .ok parts := by
  fun_induction readTemplate parse line literal done cs with
  | case1 literal done =>
    rw [readTemplate]
    exact h
  | case2 literal done rest ih =>
    rw [readTemplate]
    exact ih h
  | case3 literal done rest ih =>
    rw [readTemplate]
    exact ih h
  | case4 => cases h
  | case5 => cases h
  | case6 => cases h
  | case7 literal done rest single p after found shorter part read ih =>
    rw [readTemplate]
    · split
      · next none =>
        rw [found] at none
        cases none
      · next found' =>
        rw [found] at found'
        cases found'
        rw [Placeholder.part_of_part same read line']
        exact ih h
    · exact single
  | case8 literal done c rest _ _ _ _ ih =>
    rw [readTemplate]
    · exact ih h
    all_goals assumption

theorem Cursor.peek_eq_head? (c : Cursor) : c.peek = ((c.rest.map (·.kind)).head?).getD .eof := by
  unfold Cursor.peek
  cases c.rest <;> rfl

theorem lineKinds_of_kinds {ts ts' : List Token} (same : ts.map (·.kind) = ts'.map (·.kind)) :
    lineKinds ts = lineKinds ts' := by
  induction ts generalizing ts' with
  | nil =>
    rw [List.map_eq_nil_iff.1 same.symm]
  | cons t ts ih =>
    obtain ⟨t', ts', rfl, first, rest⟩ := List.map_eq_cons_iff.1 same.symm
    rw [lineKinds, lineKinds, first, ih rest.symm]

namespace Grammar

theorem aloneOn_ok {line : Nat} {e x : Expr} {c : Cursor} :
    (∃ r, aloneOn line e c = .ok (x, r)) ↔
      e = x ∧ (c.peek = .eof ∨ c.peek = .newline ∧ (c.drop 1).peek = .eof) := by
  have atEnd (c : Cursor) : (∃ r, (do
      if ← check .eof then return e else throw ⟨"f-string: invalid expression", line⟩ : Parser Expr) c =
        .ok (x, r)) ↔ e = x ∧ c.peek = .eof := by
    rw [check_bind]
    change (∃ r, (if decide (c.peek = .eof) then pure e else throw _ : Parser Expr) c = _) ↔ _
    by_cases ended : c.peek = .eof
    · simp only [ended, decide_true, if_true, pure_ok, exists_eq_right', and_true]
    · simp only [ended, decide_false, and_false, iff_false, not_exists]
      exact fun _ h => nomatch h
  unfold aloneOn
  rw [eat_bind]
  change (∃ r, (if c.peek = .newline then _ else _ : Parser Expr) c = _) ↔ _
  by_cases newline : c.peek = .newline
  · have skipped := atEnd (c.drop 1)
    rw [show (c.drop 1) = { c with rest := c.rest.tail } by simp only [Cursor.drop, List.drop_one]] at skipped ⊢
    simp only [newline, if_true, reduceCtorEq, false_or, true_and]
    exact skipped
  · rw [if_neg newline, atEnd]
    simp [newline]

theorem kinds_onLine (line : Nat) (tokens : List Token) :
    (onLine line tokens).map (·.kind) = tokens.map (·.kind) := List.map_map

theorem length_onLine (line line' : Nat) (tokens : List Token) :
    (onLine line tokens).length = (onLine line' tokens).length := by
  simp only [onLine, List.length_map]

theorem placeholder_ok {template : TemplateReader} {source : String} {line : Nat} {e : Expr} :
    placeholder template source line = .ok e ↔ ∃ tokens r, tokenize (Text.trim source) = .ok tokens ∧
      (exprList (outermost template (onLine line tokens).length) >>= aloneOn line)
        (.ofTokens (onLine line tokens)) = .ok (e, r) := by
  unfold placeholder
  cases tokenize (Text.trim source) with
  | error => simp [bind, Except.bind]
  | ok tokens =>
    simp only [Except.ok.injEq, exists_eq_left', exists_and_left]
    change (do
      let result ← (exprList (outermost template (onLine line tokens).length) >>= aloneOn line)
        (.ofTokens (onLine line tokens))
      return result.1) = Except.ok e ↔ _
    cases (exprList (outermost template (onLine line tokens).length) >>= aloneOn line)
        (.ofTokens (onLine line tokens)) with
    | error => simp [bind, Except.bind]
    | ok result => simp [bind, Except.bind, pure, Except.pure, Prod.ext_iff]

/-- What a placeholder holds does not depend on the line it is on. -/
theorem placeholder_of_placeholder {template template' : TemplateReader}
    (templates : TemplateReads template template') (source : String) (line line' : Nat) (e : Expr)
    (h : placeholder template source line = .ok e) : placeholder template' source line' = .ok e := by
  obtain ⟨tokens, r, scanned, read⟩ := placeholder_ok.1 h
  obtain ⟨x, _, first, last⟩ := bind_ok.1 read
  have size := Nat.le_of_eq (length_onLine line line' tokens)
  have kinds : (onLine line tokens).map (·.kind) = (onLine line' tokens).map (·.kind) :=
    (kinds_onLine line tokens).trans (kinds_onLine line' tokens).symm
  have alike : Alike (.ofTokens (onLine line tokens)) (.ofTokens (onLine line' tokens)) :=
    ⟨size, lineKinds_of_kinds kinds⟩
  obtain ⟨n, -, rfl, first', -⟩ :=
    alike_exprList (i := 0) (levelReads_outermost templates size) _ _ alike x _ first
  obtain ⟨rfl, ended⟩ := aloneOn_ok.1 ⟨r, last⟩
  have ended' : ∃ r', aloneOn line' x ((Cursor.ofTokens (onLine line' tokens)).drop n) = .ok (x, r') := by
    refine aloneOn_ok.2 ⟨rfl, ?_⟩
    simp only [Cursor.peek_eq_head?, Cursor.drop, Cursor.ofTokens, List.map_drop, kinds] at ended ⊢
    exact ended
  obtain ⟨r', last'⟩ := ended'
  exact placeholder_ok.2 ⟨tokens, r', scanned, bind_ok.2 ⟨x, _, first', last'⟩⟩

theorem templateReads_template {depth depth' : Nat} (more : depth ≤ depth') :
    TemplateReads (template depth) (template depth') := by
  induction depth generalizing depth' with
  | zero => exact fun _ _ _ _ h => nomatch h
  | succ depth ih =>
    obtain ⟨extra, rfl⟩ := Nat.exists_eq_add_of_le' more
    intro body line line' parts h
    exact readTemplate_of_readTemplate (placeholder_of_placeholder (ih (Nat.le_add_left _ _))) line line' h

end Grammar

end SnippetKernel.Source
