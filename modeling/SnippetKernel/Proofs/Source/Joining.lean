import SnippetKernel.Proofs.Source.Soundness

/-! The tokens of two texts with a line end between them are those of the first text and then those of the
second, on lines further down. Only the tokens that close the blocks still open at the end of the first text
stand on other lines: they come when the second text shows that the blocks are over. -/
namespace SnippetKernel.Source

open Text

namespace Scan

variable {total : Nat} {oldest : List Token} {s t : Scan}

theorem run_of_rest (done : s.rest = []) : s.run = .ok s.finish := by
  rw [run, dif_pos done]

theorem run_of_step (more : s.rest ≠ []) (turn : s.step = .ok t) : s.run = t.run := by
  rw [run, dif_neg more]
  split
  · next next same =>
    rw [turn] at same
    cases same
    rfl
  · next failed =>
    rw [turn] at failed
    cases failed

theorem step_of_run (more : s.rest ≠ []) {tokens : List Token} (h : s.run = .ok tokens) :
    ∃ t, s.step = .ok t ∧ t.run = .ok tokens := by
  rw [run, dif_neg more] at h
  split at h
  · next t turn => exact ⟨t, turn, h⟩
  · cases h

theorem endLine_eq (s : Scan) : s.endLine = { s with tokens := s.endLine.tokens } := by
  unfold endLine
  split
  · rfl
  · split <;> rfl

/-- What closes the open blocks at the end of a text. -/
def closings (line : Nat) (widths : List Nat) : List Token := widths.map fun _ => ⟨.dedent, line⟩

theorem finish_eq (s : Scan) :
    s.finish = s.endLine.tokens.reverse ++ closings s.line s.indents ++ [⟨.eof, s.line⟩] := by
  have close (s : Scan) (widths : List Nat) :
      (widths.foldl (fun t _ => t.push .dedent) s) =
        { s with tokens := (closings s.line widths).reverse ++ s.tokens } := by
    induction widths generalizing s with
    | nil => rfl
    | cons width widths ih =>
      rw [List.foldl_cons, ih]
      simp [push, closings]
  unfold finish
  dsimp only
  rw [close, endLine_eq]
  simp only [push, List.reverse_cons, List.reverse_append, List.reverse_reverse]

/-- The scan of the text behind a line end. -/
def nextLine (s : Scan) (rest : List Char) : Scan :=
  { rest := rest, line := s.line + 1, depth := 0, indents := s.indents, tokens := s.endLine.tokens,
    atLineStart := true }

theorem moved_zero (s : Scan) (more : List Char) :
    s.moved 0 [] more = { s with rest := s.rest ++ more } := by
  have same : s.tokens.map (·.below 0) = s.tokens := List.map_id _
  simp only [moved, same, List.append_nil, Nat.add_zero]

theorem endLine_of_settled (settled : Settled s.tokens) : s.endLine = s := by
  unfold endLine
  split
  · rfl
  · next last older same =>
    rw [same] at settled
    exact if_pos settled

/-- At the end of a text, outside of brackets, a line end leads to the next line. -/
theorem step_line_end (sound : Sound total oldest s) (done : s.rest = []) (flat : s.depth = 0)
    (rest : List Char) : (s.moved 0 [] ('\n' :: rest)).step = .ok (s.nextLine rest) := by
  have begins : leadingWidth 0 ('\n' :: rest) = (0, '\n' :: rest) := by simp [leadingWidth]
  rw [moved_zero, done, List.nil_append]
  unfold step
  split
  · next start =>
    have begin : s.atLineStart = true := start.1
    have settled := (sound.start begin).2
    unfold takeLineStart
    simp only [begins, if_true, nextLine, endLine_of_settled settled, flat, begin]
  · have passed : ({ s with rest := '\n' :: rest } : Scan).takeToken '\n' rest =
        .ok ({ s with rest := rest } : Scan).passLineEnd := rfl
    unfold passLineEnd at passed
    rw [Sound.endLine_tokens, endLine_eq] at passed
    simp only [flat, if_true] at passed
    simp only [nextLine, flat]
    exact passed

/-- A last line that is blank leads to the next line too, in one turn. -/
theorem step_blank (sound : Sound total oldest s) (start : s.atLineStart ∧ s.depth = 0)
    (blank : (leadingWidth 0 s.rest).2 = []) (rest : List Char) :
    (s.moved 0 [] ('\n' :: rest)).step = .ok (s.nextLine rest) := by
  have begin : s.atLineStart = true := start.1
  have settled := (sound.start begin).2
  have begins := (AtLineEnd.line_end rest).leadingWidth 0 s.rest
  rw [moved_zero]
  unfold step
  rw [if_pos start]
  unfold takeLineStart
  rw [begins, blank]
  simp only [List.nil_append, if_true, nextLine, endLine_of_settled settled, start.2, begin]

/-- A text that can be scanned alone is scanned in the same way before a line end, which comes outside of
brackets if all of them are closed. -/
theorem run_before (sound : Sound total oldest s) {tokens : List Token} (h : s.run = .ok tokens) :
    ∃ t : Scan, Sound total oldest t ∧ t.rest = [] ∧ tokens = t.finish ∧
      ∀ rest, t.depth = 0 → (s.moved 0 [] ('\n' :: rest)).run = (t.nextLine rest).run := by
  induction s using run.induct with
  | case1 s done =>
    rw [run_of_rest done] at h
    cases h
    refine ⟨s, sound, done, rfl, fun rest flat => ?_⟩
    exact run_of_step (by simp [moved]) (step_line_end sound done flat rest)
  | case2 s more t turn shorter ih =>
    rw [run_of_step more turn] at h
    have more' (rest : List Char) : (s.moved 0 [] ('\n' :: rest)).rest ≠ [] := by simp [moved]
    by_cases last : (s.atLineStart ∧ s.depth = 0) ∧ (leadingWidth 0 s.rest).2 = []
    · obtain ⟨start, blank⟩ := last
      have ended : t = { s with rest := [] } := by
        unfold step at turn
        rw [if_pos start] at turn
        unfold takeLineStart at turn
        split at turn
        · exact (Except.ok.inj turn).symm
        · next same =>
          rw [same] at blank
          cases blank
      subst ended
      rw [run_of_rest rfl] at h
      cases h
      have next (rest : List Char) : ({ s with rest := [] } : Scan).nextLine rest = s.nextLine rest := by
        simp only [nextLine, Sound.endLine_tokens]
      refine ⟨_, sound.step turn, rfl, rfl, fun rest _ => ?_⟩
      rw [next]
      exact run_of_step (more' rest) (step_blank sound start blank rest)
    · obtain ⟨u, sound_u, done, same, follows⟩ := ih (sound.step turn) h
      refine ⟨u, sound_u, done, same, fun rest flat => ?_⟩
      rw [← follows rest flat]
      have last := Classical.not_and_iff_not_or_not.1 last
      exact run_of_step (more' rest) (step_moved (.line_end rest) trivial more (.inr last) turn)
  | case3 s more e failed =>
    obtain ⟨t, turn, -⟩ := step_of_run more h
    rw [turn] at failed
    cases failed

variable {d : Nat} {before : List Token}

theorem finish_moved (settled : Settled before) (s : Scan) :
    (s.moved d before []).finish = before.reverse ++ s.finish.map (·.below d) := by
  have closed : closings (s.line + d) s.indents = (closings s.line s.indents).map (·.below d) := by
    simp only [closings, List.map_map]
    rfl
  rw [finish_eq, finish_eq, endLine_moved settled]
  simp only [moved, closed, List.reverse_append, List.map_append, List.map_reverse, List.append_assoc]
  rfl

/-- The tokens of a text further down, behind others. -/
theorem run_moved (settled : Settled before) {tokens : List Token} (h : s.run = .ok tokens) :
    (s.moved d before []).run = .ok (before.reverse ++ tokens.map (·.below d)) := by
  induction s using run.induct with
  | case1 s done =>
    rw [run_of_rest done] at h
    cases h
    rw [run_of_rest (by simp [moved, done]), finish_moved settled]
  | case2 s more t turn shorter ih =>
    rw [run_of_step more turn] at h
    rw [run_of_step (by simpa [moved] using more)
      (step_moved .nothing settled more (.inl rfl) turn)]
    exact ih h
  | case3 s more e failed =>
    obtain ⟨t, turn, -⟩ := step_of_run more h
    rw [turn] at failed
    cases failed

/-- The oldest tokens come first. -/
theorem run_oldest (sound : Sound total oldest s) {tokens : List Token} (h : s.run = .ok tokens) :
    oldest.reverse <+: tokens := by
  obtain ⟨t, sound_t, -, rfl, -⟩ := run_before sound h
  rw [finish_eq, List.append_assoc]
  have ended := sound_t.endLine.behind
  exact (List.reverse_prefix.2 ended).trans (List.prefix_append ..)

/-- A scan at the beginning of a line before which nothing counted. -/
def fresh (rest : List Char) (line : Nat) : Scan :=
  { rest, line, depth := 0, indents := [], tokens := [], atLineStart := true }

/-- A scan at the beginning of a line, where blocks are open. -/
def behind (before : List Token) (widths : List Nat) (rest : List Char) (line : Nat) : Scan :=
  { rest, line, depth := 0, indents := widths, tokens := before, atLineStart := true }

theorem closeBlocks_zero (s : Scan) (widths : List Nat) (wide : ∀ width ∈ widths, 0 < width) :
    closeBlocks 0 s widths =
      { s with indents := [], tokens := (closings s.line widths).reverse ++ s.tokens } := by
  induction widths generalizing s with
  | nil => rfl
  | cons inner outer ih =>
    rw [List.forall_mem_cons] at wide
    rw [closeBlocks, if_pos wide.1, ih _ wide.2]
    simp [push, closings]

/-- A line that does not count is passed in the same way wherever it stands. Any other begins with a
character that is no line end and no comment. -/
theorem fresh_step (rest : List Char) (line : Nat) :
    (∃ rest' line', (fresh rest line).step = .ok (fresh rest' line') ∧
      ∀ before widths d,
        (behind before widths rest (line + d)).step = .ok (behind before widths rest' (line' + d))) ∨
    ∃ width c tail, leadingWidth 0 rest = (width, c :: tail) ∧ c ≠ '\n' ∧ c ≠ '#' := by
  rcases blank : leadingWidth 0 rest with ⟨width, _ | ⟨c, tail⟩⟩
  · refine .inl ⟨[], line, ?_, fun before widths d => ?_⟩ <;>
      simp [step, takeLineStart, fresh, behind, blank]
  · by_cases line_end : c = '\n'
    · refine .inl ⟨tail, line + 1, ?_, fun before widths d => ?_⟩ <;>
        simp [step, takeLineStart, fresh, behind, blank, line_end, Nat.add_right_comm]
    · by_cases comment : c = '#'
      · refine .inl ⟨dropComment tail, line, ?_, fun before widths d => ?_⟩ <;>
          simp [step, takeLineStart, fresh, behind, blank, comment]
      · exact .inr ⟨width, c, tail, rfl, line_end, comment⟩

theorem indentTo_zero {s : Scan} (wide : ∀ width ∈ s.indents, 0 < width) :
    indentTo 0 s =
      .ok { s with indents := [], tokens := (closings s.line s.indents).reverse ++ s.tokens } := by
  simp only [indentTo, Nat.not_lt_zero, if_false, closeBlocks_zero s s.indents wide, List.headD_nil,
    if_true]

theorem settled_closings (settled : Settled before) (line : Nat) (widths : List Nat) :
    Settled ((closings line widths).reverse ++ before) := by
  have closing : closings line widths = List.replicate widths.length ⟨.dedent, line⟩ := List.map_const' ..
  rw [closing, List.reverse_replicate]
  cases widths with
  | nil => exact settled
  | cons width widths => exact .inr (.inr rfl)

/-- A line that begins with white space opens a block when none is open. -/
theorem opens_block {rest : List Char} {line width : Nat} {c : Char} {tail : List Char}
    {tokens : List Token} (blank : leadingWidth 0 rest = (width, c :: tail)) (line_end : c ≠ '\n')
    (comment : c ≠ '#') (indented : 0 < width) (h : (fresh rest line).run = .ok tokens) :
    tokens.head?.map (·.kind) = some .indent := by
  have none : rest ≠ [] := by
    rintro rfl
    cases blank
  have opened : indentTo width ⟨c :: tail, line, 0, [], [], false⟩ =
      .ok ⟨c :: tail, line, 0, [width], [⟨.indent, line⟩], false⟩ := if_pos indented
  have sound : Sound (line + newlines (c :: tail)) [⟨.indent, line⟩]
      ⟨c :: tail, line, 0, [width], [⟨.indent, line⟩], false⟩ :=
    ⟨List.suffix_refl _, rfl, rfl, List.forall_mem_singleton.2 indented, rfl,
      List.forall_mem_singleton.2 nofun, nofun⟩
  have turn : (fresh rest line).step =
      takeToken c tail ⟨c :: tail, line, 0, [width], [⟨.indent, line⟩], false⟩ := by
    simp only [step, takeLineStart, fresh, blank, line_end, comment, if_false, and_self, if_true, opened]
  obtain ⟨t, taken, h⟩ := step_of_run (s := fresh rest line) none h
  rw [turn] at taken
  obtain ⟨more, rfl⟩ := run_oldest (sound.takeToken rfl rfl taken) h
  rfl

/-- A text that does not begin with white space, where blocks are open: its first line closes them all, and
so does its end if it has no lines that count. -/
theorem run_behind (settled : Settled before) {widths : List Nat} (wide : ∀ width ∈ widths, 0 < width)
    {rest : List Char} {line : Nat} {tokens : List Token} (h : (fresh rest line).run = .ok tokens)
    (flush : tokens.head?.map (·.kind) ≠ some .indent) :
    ∃ closing, (behind before widths rest (line + d)).run =
      .ok (before.reverse ++ closings closing widths ++ tokens.map (·.below d)) := by
  generalize size : rest.length = n
  induction n using Nat.strongRecOn generalizing rest line with
  | ind n ih =>
    by_cases none : rest = []
    · subst none
      rw [run_of_rest rfl] at h ⊢
      cases h
      refine ⟨line + d, ?_⟩
      have ended : (behind before widths [] (line + d)).endLine = behind before widths [] (line + d) :=
        endLine_of_settled settled
      rw [finish_eq, finish_eq, ended]
      rfl
    · obtain ⟨rest', line', turn, turns⟩ | ⟨width, c, tail, blank, line_end, comment⟩ :=
        fresh_step rest line
      · have shorter := step_shorter none turn
        rw [run_of_step none turn] at h
        rw [run_of_step none (turns before widths d)]
        exact ih rest'.length (size ▸ shorter) h rfl
      · obtain rfl : width = 0 := by
          refine Nat.eq_zero_of_not_pos fun indented => flush ?_
          exact opens_block blank line_end comment indented h
        have turn : (fresh rest line).step = takeToken c tail ⟨c :: tail, line, 0, [], [], false⟩ := by
          simp only [step, takeLineStart, fresh, blank, line_end, comment, if_false, and_self, if_true]
          rw [indentTo_zero (List.forall_mem_nil _)]
          rfl
        have turns : (behind before widths rest (line + d)).step =
            takeToken c tail ((⟨c :: tail, line, 0, [], [], false⟩ : Scan).moved d
              ((closings (line + d) widths).reverse ++ before) []) := by
          simp only [step, takeLineStart, behind, blank, line_end, comment, if_false, and_self, if_true]
          rw [indentTo_zero wide]
          simp [moved]
        have settled' := settled_closings settled (line + d) widths
        obtain ⟨t, taken, h⟩ := step_of_run (s := fresh rest line) none h
        rw [turn] at taken
        have took := takeToken_moved (d := d) .nothing settled' rfl taken
        rw [List.append_nil] at took
        refine ⟨line + d, ?_⟩
        rw [run_of_step none (turns.trans took), run_moved settled' h]
        simp only [List.reverse_append, List.reverse_reverse]

end Scan

theorem depthAfter_closings (n line : Nat) (widths : List Nat) :
    depthAfter n ((Scan.closings line widths).map (·.kind)) = n := by
  induction widths with
  | nil => rfl
  | cons width widths ih => exact ih

/-- The tokens of two texts with a line end between them. -/
theorem tokenize_join {a b : String} {as bs : List Token} (ha : tokenize a = .ok as)
    (hb : tokenize b = .ok bs) (flat : depthAfter 0 (as.map (·.kind)) = 0)
    (flush : bs.head?.map (·.kind) ≠ some .indent) :
    ∃ s : Scan, s.Sound (1 + newlines a.toList) [] ∧ as = s.finish ∧ ∃ closing,
      tokenize (a ++ "\n" ++ b) =
        .ok (s.endLine.tokens.reverse ++ Scan.closings closing s.indents ++
          bs.map (·.below (1 + newlines a.toList))) := by
  obtain ⟨s, sound, done, rfl, follows⟩ := Scan.run_before (Scan.Sound.begin a) ha
  have ended := sound.endLine
  have outside : s.depth = 0 := by
    have depth := ended.depth
    rw [Scan.Sound.endLine_depth] at depth
    rw [Scan.finish_eq, List.map_append, List.map_append, depthAfter_append, depthAfter_append, depth,
      depthAfter_closings] at flat
    exact flat
  have line : s.line = 1 + newlines a.toList := by
    have counted := sound.lines
    rw [done] at counted
    exact counted
  have joined : Scan.start (a ++ "\n" ++ b) = (Scan.start a).moved 0 [] ('\n' :: b.toList) := by
    rw [Scan.moved_zero]
    simp [Scan.start]
  obtain ⟨closing, run⟩ :=
    Scan.run_behind (d := s.line) (Scan.Sound.settled_endLine s) sound.widths hb flush
  refine ⟨s, sound, rfl, closing, ?_⟩
  rw [tokenize, joined, follows b.toList outside, ← line, ← run, Nat.add_comm 1 s.line]
  rfl

end SnippetKernel.Source
