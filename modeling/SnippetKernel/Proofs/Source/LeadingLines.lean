import SnippetKernel.Proofs.Source.Joining

/-! A text with empty lines in front has the same tokens, further down. What cannot be scanned is refused for the
same reason, further down too: whatever the scan does with its line, it counts on from there. -/
namespace SnippetKernel.Source

open Text

/-- The error, `d` lines further down. -/
def SyntaxError.below (d : Nat) (e : SyntaxError) : SyntaxError := { e with line := e.line + d }

/-- What came of a text, when that is `d` lines further down and what was made of it is changed by `image`. -/
def lowered {α β : Type} (d : Nat) (image : α → β) : Except SyntaxError α → Except SyntaxError β
  | .ok x => .ok (image x)
  | .error e => .error (e.below d)

def Piece.below {α : Type} (d : Nat) (p : Piece α) : Piece α := { p with line := p.line + d }

variable {d : Nat}

theorem escapedCode_below (digits : List Char) (line : Nat) :
    escapedCode digits (line + d) = lowered d id (escapedCode digits line) := by
  unfold escapedCode
  split <;> rfl

theorem readString_below (close : List Char) (multiline : Bool) (start line : Nat) (done cs : List Char) :
    readString close multiline (start + d) (line + d) done cs =
      lowered d (·.below d) (readString close multiline start line done cs) := by
  fun_induction readString close multiline start line done cs with
  | case1 => rfl
  | case2 line done c rest after found =>
    rw [readString.eq_def]
    simp only [found]
    rfl
  | case3 line done rest several missing ih =>
    rw [readString.eq_def]
    simp only [missing, several, if_true]
    rw [Nat.add_right_comm, ← several]
    exact ih
  | case4 line done rest single missing =>
    rw [readString.eq_def]
    simp only [missing, single, if_true]
    rfl
  | case5 line done no_end missing =>
    rw [readString.eq_def]
    simp only [missing, no_end, if_false, if_true]
    rfl
  | case6 line done rest no_end missing ih =>
    rw [readString.eq_def]
    simp only [missing, no_end, if_false, if_true]
    rw [Nat.add_right_comm]
    exact ih
  | case7 line done _ _ _ _ rest c code no_end missing ih =>
    rw [readString.eq_def]
    simp only [missing, no_end, if_false, if_true, escapedCode_below, code, lowered]
    exact ih
  | case8 line done _ _ _ _ rest e code no_end missing =>
    rw [readString.eq_def]
    simp only [missing, no_end, if_false, if_true, escapedCode_below, code, lowered]
  | case9 line done _ _ rest c code no_end missing ih =>
    rw [readString.eq_def]
    simp only [missing, no_end, if_false, if_true, escapedCode_below, code, lowered]
    exact ih
  | case10 line done _ _ rest e code no_end missing =>
    rw [readString.eq_def]
    simp only [missing, no_end, if_false, if_true, escapedCode_below, code, lowered]
  | case11 line done c rest no_line no_u no_x escape no_end missing =>
    rw [readString.eq_def]
    simp only [missing, no_end, if_false, if_true, escape]
    rfl
  | case12 line done c rest no_line no_u no_x simple no_end missing ih =>
    rw [readString.eq_def]
    simp only [missing, no_end, if_false, if_true, simple]
    exact ih
  | case13 line done c rest missing no_line no_escape ih =>
    rw [readString.eq_def]
    simp only [missing, no_line, no_escape, if_false]
    exact ih

theorem readRaw_below (close : List Char) (multiline : Bool) (start line : Nat) (done cs : List Char) :
    readRaw close multiline (start + d) (line + d) done cs =
      lowered d (·.below d) (readRaw close multiline start line done cs) := by
  fun_induction readRaw close multiline start line done cs with
  | case1 => rfl
  | case2 line done c rest after found =>
    rw [readRaw.eq_def]
    simp only [found]
    rfl
  | case3 line done rest several missing ih =>
    rw [readRaw.eq_def]
    simp only [missing, several, if_true]
    rw [Nat.add_right_comm, ← several]
    exact ih
  | case4 line done rest single missing =>
    rw [readRaw.eq_def]
    simp only [missing, single, if_true]
    rfl
  | case5 line done c rest missing no_line ih =>
    rw [readRaw.eq_def]
    simp only [missing, no_line, if_false]
    exact ih

theorem readNumber_below (line : Nat) (cs : List Char) :
    readNumber (line + d) cs = lowered d id (readNumber line cs) := by
  have numeral (cs : List Char) : readNumeral (line + d) cs = lowered d id (readNumeral line cs) := by
    unfold readNumeral
    split <;> split <;> rfl
  unfold readNumber
  split
  · split
    · unfold readRadix
      dsimp only
      split <;> rfl
    · exact numeral _
  · exact numeral _

namespace Scan

/-- The scan, `d` lines further down. -/
def below (d : Nat) (s : Scan) : Scan := { s with line := s.line + d, tokens := s.tokens.map (·.below d) }

theorem below_eq_moved (s : Scan) : s.below d = s.moved d [] [] := by
  simp only [below, moved, List.append_nil]

theorem passLineEnd_below (s : Scan) : (s.below d).passLineEnd = s.passLineEnd.below d := by
  rw [below_eq_moved, below_eq_moved]
  exact passLineEnd_moved (show Settled [] from trivial) s

theorem indentTo_below (width : Nat) (s : Scan) :
    indentTo width (s.below d) = lowered d (·.below d) (indentTo width s) := by
  have closed : closeBlocks width (s.below d) s.indents = (closeBlocks width s s.indents).below d := by
    rw [below_eq_moved, below_eq_moved]
    exact closeBlocks_moved width s s.indents
  have same : (s.below d).indents = s.indents := rfl
  unfold indentTo
  dsimp only
  rw [same, closed]
  split
  · rfl
  · have widths : ((closeBlocks width s s.indents).below d).indents = (closeBlocks width s s.indents).indents := rfl
    rw [widths]
    split <;> rfl

theorem takeString_below (raw : Bool) (kind : String → TokenKind) (s : Scan) :
    (s.below d).takeString raw kind = lowered d (·.below d) (s.takeString raw kind) := by
  have quotes : (s.below d).readQuotes raw = lowered d (·.below d) (s.readQuotes raw) := by
    unfold readQuotes
    cases raw with
    | false => exact readString_below ..
    | true => exact readRaw_below ..
  unfold takeString
  rw [quotes]
  cases s.readQuotes raw <;> rfl

theorem takeNamed_below (name : List Char) (s : Scan) :
    (s.below d).takeNamed name = lowered d (·.below d) (s.takeNamed name) := by
  have same : (s.below d).rest = s.rest := rfl
  unfold takeNamed
  dsimp only
  rw [same]
  split
  · split
    · split
      · exact takeString_below ..
      · split
        · exact takeString_below ..
        · rfl
    · rfl
  · rfl

theorem takeSymbol_below (c : Char) (s : Scan) :
    (s.below d).takeSymbol c = lowered d (·.below d) (s.takeSymbol c) := by
  have same : (s.below d).rest = s.rest := rfl
  unfold takeSymbol
  rw [same]
  split <;> rfl

theorem takeNumber_below (s : Scan) : (s.below d).takeNumber = lowered d (·.below d) s.takeNumber := by
  have read : readNumber (s.below d).line (s.below d).rest = lowered d id (readNumber s.line s.rest) :=
    readNumber_below s.line s.rest
  unfold takeNumber
  rw [read]
  cases readNumber s.line s.rest <;> rfl

theorem takeToken_below (c : Char) (tail : List Char) (s : Scan) :
    (s.below d).takeToken c tail = lowered d (·.below d) (s.takeToken c tail) := by
  unfold takeToken
  split
  · exact congrArg Except.ok (passLineEnd_below { s with rest := tail })
  split
  · rfl
  split
  · rfl
  split
  · simp only [below, lowered, Nat.add_right_comm]
  split
  · exact takeNumber_below s
  split
  · exact takeString_below ..
  split
  · exact takeNamed_below _ { s with rest := s.rest.dropWhile isNamePart }
  · exact takeSymbol_below c s

theorem takeLineStart_below (s : Scan) : (s.below d).takeLineStart = lowered d (·.below d) s.takeLineStart := by
  have same : (s.below d).rest = s.rest := rfl
  unfold takeLineStart
  rw [same]
  split
  · rfl
  · next width c tail _ =>
    split
    · simp only [below, lowered, Nat.add_right_comm]
    split
    · rfl
    · have begun := indentTo_below (d := d) width { s with rest := c :: tail, atLineStart := false }
      rw [show indentTo width { s.below d with rest := c :: tail, atLineStart := false } = _ from begun]
      cases indentTo width { s with rest := c :: tail, atLineStart := false } with
      | ok t => exact takeToken_below c tail t
      | error e => rfl

theorem step_below (s : Scan) : (s.below d).step = lowered d (·.below d) s.step := by
  have start : ((s.below d).atLineStart ∧ (s.below d).depth = 0) = (s.atLineStart ∧ s.depth = 0) := rfl
  have same : (s.below d).rest = s.rest := rfl
  unfold step
  simp only [start, same]
  split
  · exact takeLineStart_below s
  · split
    · rfl
    · exact takeToken_below ..

theorem run_of_error {s : Scan} (more : s.rest ≠ []) {e : SyntaxError} (failed : s.step = .error e) :
    s.run = .error e := by
  rw [run, dif_neg more]
  split
  · next t turn =>
    rw [failed] at turn
    cases turn
  · next e' same =>
    rw [failed] at same
    cases same
    rfl

theorem finish_below (s : Scan) : (s.below d).finish = s.finish.map (·.below d) := by
  rw [below_eq_moved]
  exact finish_moved (show Settled [] from trivial) s

/-- A scan further down gives the same tokens or the same error, as far down. -/
theorem run_below (s : Scan) : (s.below d).run = lowered d (·.map (·.below d)) s.run := by
  induction s using run.induct with
  | case1 s done => 
    rw [run_of_rest done, run_of_rest (s := s.below d) done, finish_below]
    rfl
  | case2 s more t turn shorter ih =>
    have turn' : (s.below d).step = .ok (t.below d) := by rw [step_below, turn]; rfl
    rw [run_of_step more turn, run_of_step (s := s.below d) more turn']
    exact ih
  | case3 s more e failed =>
    have failed' : (s.below d).step = .error (e.below d) := by rw [step_below, failed]; rfl
    rw [run_of_error more failed, run_of_error (s := s.below d) more failed']
    rfl

/-- Line ends at the start of a line are passed over. -/
theorem run_passes (n : Nat) {s : Scan} (start : s.atLineStart ∧ s.depth = 0) :
    ({ s with rest := List.replicate n '\n' ++ s.rest } : Scan).run = ({ s with line := s.line + n } : Scan).run := by
  induction n generalizing s with
  | zero => rfl
  | succ n ih =>
    have turn : ({ s with rest := '\n' :: (List.replicate n '\n' ++ s.rest) } : Scan).step =
        .ok { s with rest := List.replicate n '\n' ++ s.rest, line := s.line + 1 } := by
      unfold step
      rw [if_pos start]
      rfl
    rw [List.replicate_succ, List.cons_append, run_of_step (List.cons_ne_nil _ _) turn, Nat.add_comm n,
      ← Nat.add_assoc]
    exact @ih { s with line := s.line + 1 } start

end Scan

/-- Empty lines. -/
def emptyLines (n : Nat) : String := String.ofList (List.replicate n '\n')

/-- Empty lines in front of a text make no tokens. -/
theorem tokenize_below (n : Nat) (source : String) :
    tokenize (emptyLines n ++ source) = lowered n (·.map (·.below n)) (tokenize source) := by
  have begun : Scan.start (emptyLines n ++ source) =
      { Scan.start source with rest := List.replicate n '\n' ++ (Scan.start source).rest } := by
    simp only [Scan.start, emptyLines, String.toList_append, String.toList_ofList]
  unfold tokenize
  rw [begun, Scan.run_passes n ⟨rfl, rfl⟩]
  exact Scan.run_below (Scan.start source)

end SnippetKernel.Source
