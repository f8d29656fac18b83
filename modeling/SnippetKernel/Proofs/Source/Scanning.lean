import SnippetKernel.Proofs.Source.Pieces

/-! Scanning does not depend on where in a text it takes place. A scan can be moved: some lines further
down, behind tokens that were read before, and before more text. What it does next is the same, as long as
the tokens before end a line and the text behind begins with a line end. -/
namespace SnippetKernel.Source

open Text

/-- The token, `d` lines further down. -/
def Token.below (d : Nat) (t : Token) : Token := { t with line := t.line + d }

/-- Nothing was read, or a line or a block was just begun. -/
def Settled : List Token → Prop
  | [] => True
  | last :: _ => last.kind = .newline ∨ last.kind = .indent ∨ last.kind = .dedent

namespace Scan

/-- The scan, `d` lines further down, behind the tokens `before`, and with `more` text behind it. -/
def moved (d : Nat) (before : List Token) (more : List Char) (s : Scan) : Scan :=
  { s with
    rest := s.rest ++ more
    line := s.line + d
    tokens := s.tokens.map (·.below d) ++ before }

section

variable {d : Nat} {before : List Token} {more : List Char}

theorem push_moved (s : Scan) (kind : TokenKind) :
    (s.moved d before more).push kind = (s.push kind).moved d before more := rfl

theorem endLine_moved (settled : Settled before) (s : Scan) :
    (s.moved d before more).endLine = s.endLine.moved d before more := by
  obtain ⟨rest, line, depth, indents, tokens, atLineStart⟩ := s
  cases tokens with
  | nil =>
    cases before with
    | nil => rfl
    | cons last older =>
      simp only [endLine, moved, List.map_nil, List.nil_append]
      exact if_pos settled
  | cons last older =>
    simp only [endLine, moved, List.map_cons, List.cons_append, Token.below]
    split <;> rfl

theorem passLineEnd_moved (settled : Settled before) (s : Scan) :
    (s.moved d before more).passLineEnd = s.passLineEnd.moved d before more := by
  have inside : (s.moved d before more).depth = s.depth := rfl
  unfold passLineEnd
  rw [endLine_moved settled]
  simp only [inside]
  split <;> simp only [moved, Nat.add_right_comm]

theorem closeBlocks_moved (width : Nat) (s : Scan) (widths : List Nat) :
    closeBlocks width (s.moved d before more) widths = (closeBlocks width s widths).moved d before more := by
  induction widths generalizing s with
  | nil => rfl
  | cons inner outer ih =>
    rw [closeBlocks, closeBlocks]
    split
    · rw [push_moved, ih]
    · rfl

theorem indentTo_moved {width : Nat} {s t : Scan} (h : indentTo width s = .ok t) :
    indentTo width (s.moved d before more) = .ok (t.moved d before more) := by
  unfold indentTo at h ⊢
  dsimp only at h ⊢
  have same : (s.moved d before more).indents = s.indents := rfl
  rw [same]
  split at h
  · next wider =>
    cases h
    rw [if_pos wider]
    rfl
  · next not_wider =>
    rw [if_neg not_wider, closeBlocks_moved]
    have widths : ((closeBlocks width s s.indents).moved d before more).indents =
      (closeBlocks width s s.indents).indents := rfl
    rw [widths]
    split at h
    · next fits =>
      cases h
      rw [if_pos fits]
    · cases h

variable (ends : AtLineEnd more)

include ends

theorem takeString_moved {raw : Bool} {kind : String → TokenKind} {s t : Scan} {c : Char}
    {tail : List Char} (start : s.rest = c :: tail) (quote : c ≠ '\n')
    (h : s.takeString raw kind = .ok t) :
    (s.moved d before more).takeString raw kind = .ok (t.moved d before more) := by
  have closing := line_end_not_mem_openQuotes quote tail
  have opened := ends.openQuotes quote tail
  unfold takeString readQuotes at h ⊢
  simp only [moved, start] at h ⊢
  rw [opened]
  dsimp only
  cases raw with
  | false =>
    simp only [Bool.false_eq_true, if_false] at h ⊢
    split at h
    · next p read =>
      cases h
      rw [ends.readString closing read]
      rfl
    · cases h
  | true =>
    simp only [if_true] at h ⊢
    split at h
    · next p read =>
      cases h
      rw [ends.readRaw closing read]
      rfl
    · cases h

theorem takeNamed_moved {name : List Char} {s t : Scan} (h : s.takeNamed name = .ok t) :
    (s.moved d before more).takeNamed name = .ok (t.moved d before more) := by
  unfold takeNamed at h ⊢
  cases start : s.rest with
  | nil =>
    simp only [start] at h
    cases h
    have behind : (s.moved d before more).rest = more := by simp only [moved, start, List.nil_append]
    rw [behind]
    obtain rfl | ⟨rest, rfl⟩ := ends.cases
    · rfl
    · rfl
  | cons c tail =>
    have behind : (s.moved d before more).rest = c :: (tail ++ more) := by
      simp only [moved, start, List.cons_append]
    simp only [start] at h
    simp only [behind]
    split at h
    · next quote =>
      have no_line_end : c ≠ '\n' := by
        rintro rfl
        cases quote
      rw [if_pos quote]
      split at h
      · next template =>
        rw [if_pos template]
        exact takeString_moved ends start no_line_end h
      · next no_template =>
        rw [if_neg no_template]
        split at h
        · next raw =>
          rw [if_pos raw]
          exact takeString_moved ends start no_line_end h
        · next no_raw =>
          cases h
          rw [if_neg no_raw]
          rfl
    · next no_quote =>
      cases h
      rw [if_neg no_quote]
      rfl

theorem takeName_moved {s t : Scan} (h : s.takeName = .ok t) :
    (s.moved d before more).takeName = .ok (t.moved d before more) := by
  have stops : isNamePart '\n' = false := by decide
  have name : (s.moved d before more).rest.takeWhile isNamePart = s.rest.takeWhile isNamePart :=
    ends.takeWhile stops s.rest
  have after : (s.moved d before more).rest.dropWhile isNamePart = s.rest.dropWhile isNamePart ++ more :=
    ends.dropWhile stops s.rest
  unfold takeName at h ⊢
  rw [name, after]
  exact takeNamed_moved ends h

theorem takeSymbol_moved {c : Char} {s t : Scan} (h : s.takeSymbol c = .ok t) :
    (s.moved d before more).takeSymbol c = .ok (t.moved d before more) := by
  unfold takeSymbol at h ⊢
  have rest : (s.moved d before more).rest = s.rest ++ more := rfl
  rw [rest, ends.readSymbol?]
  split at h
  · next found =>
    cases h
    rw [found]
    rfl
  · cases h

theorem takeNumber_moved {s t : Scan} (h : s.takeNumber = .ok t) :
    (s.moved d before more).takeNumber = .ok (t.moved d before more) := by
  unfold takeNumber at h ⊢
  have rest : (s.moved d before more).rest = s.rest ++ more := rfl
  rw [rest]
  split at h
  · next found =>
    cases h
    rw [ends.readNumber found]
    rfl
  · cases h

omit ends in
/-- Nothing begins with a backslash that is the last character of all. -/
theorem lone_backslash {s t : Scan} (start : s.rest = ['\\']) {number : Except SyntaxError Scan}
    (h : (if startsNumber '\\' [] then number
      else if isQuote '\\' then s.takeString false .str
      else if isNameStart '\\' then s.takeName
      else s.takeSymbol '\\') = .ok t) : False := by
  have no_symbol : readSymbol? ['\\'] Symbol.all = none := by decide
  have no_name : isNameStart '\\' = false := by decide
  rw [if_neg (by decide), if_neg (by decide), no_name, if_neg (by decide)] at h
  unfold takeSymbol at h
  rw [start, no_symbol] at h
  cases h

theorem takeToken_moved {c : Char} {tail : List Char} {s t : Scan} (settled : Settled before)
    (start : s.rest = c :: tail) (h : s.takeToken c tail = .ok t) :
    (s.moved d before more).takeToken c (tail ++ more) = .ok (t.moved d before more) := by
  unfold takeToken at h ⊢
  split at h
  · next line_end =>
    cases h
    rw [if_pos line_end, ← passLineEnd_moved settled]
    rfl
  next no_line_end =>
  rw [if_neg no_line_end]
  split at h
  · next blank =>
    cases h
    rw [if_pos blank]
    rfl
  next no_blank =>
  rw [if_neg no_blank]
  split at h
  · next comment =>
    cases h
    rw [if_pos comment, ends.dropComment]
    rfl
  next no_comment =>
  rw [if_neg no_comment]
  split at h
  · next goes_on =>
    cases h
    obtain ⟨after, rfl⟩ : ∃ after, tail = '\n' :: after := by
      cases tail with
      | nil => cases goes_on.2
      | cons e after => exact ⟨after, by rw [Option.some.inj goes_on.2]⟩
    rw [if_pos ⟨goes_on.1, rfl⟩]
    simp only [moved, Nat.add_right_comm, List.cons_append, List.drop_succ_cons, List.drop_zero]
  next ends_here =>
  have no_more : ¬(c = '\\' ∧ (tail ++ more).head? = some '\n') := by
    rintro ⟨rfl, follows⟩
    cases tail with
    | nil => exact lone_backslash start h
    | cons e after => exact ends_here ⟨rfl, follows⟩
  rw [if_neg no_more, ends.startsNumber]
  split at h
  · next number =>
    rw [if_pos number]
    exact takeNumber_moved ends h
  next no_number =>
  rw [if_neg no_number]
  split at h
  · next quote =>
    rw [if_pos quote]
    exact takeString_moved ends start no_line_end h
  next no_quote =>
  rw [if_neg no_quote]
  split at h
  · next name =>
    rw [if_pos name]
    exact takeName_moved ends h
  · next no_name =>
    rw [if_neg no_name]
    exact takeSymbol_moved ends h

theorem takeLineStart_moved {s t : Scan} (settled : Settled before)
    (last : more = [] ∨ (leadingWidth 0 s.rest).2 ≠ []) (h : s.takeLineStart = .ok t) :
    (s.moved d before more).takeLineStart = .ok (t.moved d before more) := by
  have behind : (s.moved d before more).rest = s.rest ++ more := rfl
  unfold takeLineStart at h ⊢
  rw [behind, ends.leadingWidth]
  split at h
  · next blank =>
    cases h
    rw [blank] at last ⊢
    obtain rfl | not_blank := last
    · rfl
    · exact absurd rfl not_blank
  · next width c tail blank =>
    rw [blank]
    dsimp only [List.cons_append]
    split at h
    · next line_end =>
      cases h
      rw [if_pos line_end]
      simp only [moved, Nat.add_right_comm]
    · next no_line_end =>
      rw [if_neg no_line_end]
      split at h
      · next comment =>
        cases h
        rw [if_pos comment, ends.dropComment]
        rfl
      · next no_comment =>
        rw [if_neg no_comment]
        split at h
        · next indented =>
          have begun : indentTo width
              { s.moved d before more with rest := c :: (tail ++ more), atLineStart := false } = _ :=
            indentTo_moved indented
          rw [begun]
          exact takeToken_moved ends settled (indentTo_rest indented) h
        · cases h

/-- A turn that does not find the last line blank. -/
theorem step_moved {s t : Scan} (settled : Settled before) (more_text : s.rest ≠ [])
    (last : more = [] ∨ ¬(s.atLineStart ∧ s.depth = 0) ∨ (leadingWidth 0 s.rest).2 ≠ [])
    (h : s.step = .ok t) : (s.moved d before more).step = .ok (t.moved d before more) := by
  have same : ((s.moved d before more).atLineStart ∧ (s.moved d before more).depth = 0) =
      (s.atLineStart ∧ s.depth = 0) := rfl
  unfold step at h ⊢
  simp only [same]
  split at h
  · next line_start =>
    rw [if_pos line_start]
    refine takeLineStart_moved ends settled ?_ h
    obtain none | inside | not_blank := last
    · exact .inl none
    · exact absurd line_start inside
    · exact .inr not_blank
  · next inside =>
    rw [if_neg inside]
    obtain ⟨c, tail, start⟩ := List.exists_cons_of_ne_nil more_text
    have behind : (s.moved d before more).rest = c :: (tail ++ more) := by
      simp only [moved, start, List.cons_append]
    simp only [start] at h
    simp only [behind]
    exact takeToken_moved ends settled start h

end

end Scan

end SnippetKernel.Source
