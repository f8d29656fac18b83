import SnippetKernel.Source.Lexer

/-! What is read from the front of a text stays the same when more text follows behind a line end: no
piece of a program goes on over the end of a line, except where the line end is a part of it. -/
namespace SnippetKernel.Source

open Text

/-- No text, or a text that begins with a line end. -/
def AtLineEnd (more : List Char) : Prop := ∀ c rest, more = c :: rest → c = '\n'

namespace AtLineEnd

variable {more : List Char}

theorem nothing : AtLineEnd [] := fun _ _ none => nomatch none

theorem line_end (rest : List Char) : AtLineEnd ('\n' :: rest) := by
  intro c after same
  cases same
  rfl

theorem cases (ends : AtLineEnd more) : more = [] ∨ ∃ rest, more = '\n' :: rest := by
  cases more with
  | nil => exact .inl rfl
  | cons c rest => exact .inr ⟨rest, congrArg (· :: rest) (ends c rest rfl)⟩

theorem takeWhile (ends : AtLineEnd more) {p : Char → Bool} (stops : p '\n' = false)
    (cs : List Char) : (cs ++ more).takeWhile p = cs.takeWhile p := by
  induction cs with
  | nil =>
    obtain rfl | ⟨rest, rfl⟩ := ends.cases
    · rfl
    · simp [stops]
  | cons c cs ih => simp only [List.cons_append, List.takeWhile_cons, ih]

theorem dropWhile (ends : AtLineEnd more) {p : Char → Bool} (stops : p '\n' = false)
    (cs : List Char) : (cs ++ more).dropWhile p = cs.dropWhile p ++ more := by
  induction cs with
  | nil =>
    obtain rfl | ⟨rest, rfl⟩ := ends.cases
    · rfl
    · simp [stops]
  | cons c cs ih =>
    simp only [List.cons_append, List.dropWhile_cons, ih]
    split <;> rfl

theorem leadingWidth (ends : AtLineEnd more) (width : Nat) (cs : List Char) :
    leadingWidth width (cs ++ more) =
      ((leadingWidth width cs).1, (leadingWidth width cs).2 ++ more) := by
  fun_induction Source.leadingWidth width cs
  case case1 ih => exact ih
  case case2 ih => exact ih
  case case3 ih => exact ih
  case case4 width cs not_space not_tab not_return =>
    cases cs with
    | nil =>
      obtain rfl | ⟨rest, rfl⟩ := ends.cases
      · rfl
      · simp [Source.leadingWidth]
    | cons c cs =>
      rw [List.cons_append, Source.leadingWidth]
      all_goals simp_all

theorem dropComment (ends : AtLineEnd more) (cs : List Char) :
    dropComment (cs ++ more) = dropComment cs ++ more :=
  ends.dropWhile (by simp) cs

theorem afterPiece (ends : AtLineEnd more) {piece : List Char} (inside : '\n' ∉ piece)
    (cs : List Char) : afterPiece piece (cs ++ more) = (afterPiece piece cs).map (· ++ more) := by
  induction piece generalizing cs with
  | nil => rfl
  | cons p piece ih =>
    rw [List.mem_cons, not_or] at inside
    cases cs with
    | nil =>
      obtain rfl | ⟨rest, rfl⟩ := ends.cases
      · rfl
      · simp [Text.afterPiece, Ne.symm inside.1]
    | cons c cs =>
      simp only [List.cons_append, Text.afterPiece]
      split
      · exact ih inside.2 cs
      · rfl

theorem afterPiece_none (ends : AtLineEnd more) {piece : List Char} (inside : '\n' ∉ piece) {c : Char}
    {cs : List Char} (missing : Text.afterPiece piece (c :: cs) = none) :
    Text.afterPiece piece (c :: (cs ++ more)) = none := by
  rw [← List.cons_append, ends.afterPiece inside, missing]
  rfl

theorem escapedCode_of_ok {digits : List Char} {line : Nat} {c : Char}
    (h : escapedCode digits line = .ok c) (other : Nat) : escapedCode digits other = .ok c := by
  unfold escapedCode at h ⊢
  split at h
  · exact h
  · cases h

theorem readString (ends : AtLineEnd more) {close : List Char} (inside : '\n' ∉ close)
    {multiline : Bool} {start line : Nat} {done cs : List Char} {p : Piece String}
    (h : readString close multiline start line done cs = .ok p) (other d : Nat) :
    readString close multiline other (line + d) done (cs ++ more) =
      .ok { p with rest := p.rest ++ more, line := p.line + d } := by
  fun_induction Source.readString close multiline start line done cs
  case case2 found =>
    cases h
    have after := ends.afterPiece inside
    simp only [List.cons_append] at after ⊢
    rw [Source.readString.eq_def]
    simp only [← List.cons_append, ends.afterPiece inside, found, Option.map_some]
  case case3 several missing ih =>
    have missing := ends.afterPiece_none inside missing
    rw [List.cons_append, Source.readString.eq_def]
    simp only [missing, several, if_true]
    rw [Nat.add_right_comm, ← several]
    exact ih h
  case case6 no_end missing ih =>
    have missing := ends.afterPiece_none inside missing
    rw [List.cons_append] at missing ⊢
    rw [List.cons_append, Source.readString.eq_def]
    simp only [missing, no_end, if_false, if_true]
    rw [Nat.add_right_comm]
    exact ih h
  case case7 code no_end missing ih =>
    have missing := ends.afterPiece_none inside missing
    simp only [List.cons_append] at missing ⊢
    rw [Source.readString.eq_def]
    simp only [missing, no_end, if_false, if_true, escapedCode_of_ok code]
    exact ih h
  case case9 code no_end missing ih =>
    have missing := ends.afterPiece_none inside missing
    simp only [List.cons_append] at missing ⊢
    rw [Source.readString.eq_def]
    simp only [missing, no_end, if_false, if_true, escapedCode_of_ok code]
    exact ih h
  case case12 no_line no_u no_x simple no_end missing ih =>
    have missing := ends.afterPiece_none inside missing
    simp only [List.cons_append] at missing ⊢
    rw [Source.readString.eq_def]
    simp only [missing, no_end, if_false, if_true]
    rw [not_or] at simple
    split
    · next same => cases same
    · next same => exact absurd (List.cons.inj same).1 no_line
    · next same => exact absurd (List.cons.inj same).1 simple.1
    · next same => exact absurd (List.cons.inj same).1 simple.2
    · next same =>
      cases same
      rw [if_neg (not_or.2 simple)]
      exact ih h
  case case13 missing no_line no_escape ih =>
    have missing := ends.afterPiece_none inside missing
    rw [List.cons_append, Source.readString.eq_def]
    simp only [missing, no_line, no_escape, if_false]
    exact ih h
  all_goals cases h

theorem readRaw (ends : AtLineEnd more) {close : List Char} (inside : '\n' ∉ close)
    {multiline : Bool} {start line : Nat} {done cs : List Char} {p : Piece String}
    (h : readRaw close multiline start line done cs = .ok p) (other d : Nat) :
    readRaw close multiline other (line + d) done (cs ++ more) =
      .ok { p with rest := p.rest ++ more, line := p.line + d } := by
  fun_induction Source.readRaw close multiline start line done cs
  case case2 found =>
    cases h
    rw [List.cons_append, Source.readRaw.eq_def]
    simp only [← List.cons_append, ends.afterPiece inside, found, Option.map_some]
  case case3 several missing ih =>
    have missing := ends.afterPiece_none inside missing
    rw [List.cons_append, Source.readRaw.eq_def]
    simp only [missing, several, if_true]
    rw [Nat.add_right_comm, ← several]
    exact ih h
  case case5 missing no_line ih =>
    have missing := ends.afterPiece_none inside missing
    rw [List.cons_append, Source.readRaw.eq_def]
    simp only [missing, no_line, if_false]
    exact ih h
  all_goals cases h

theorem openQuotes (ends : AtLineEnd more) {c : Char} (quote : c ≠ '\n') (cs : List Char) :
    openQuotes (c :: cs ++ more) =
      ((openQuotes (c :: cs)).1, (openQuotes (c :: cs)).2.1, (openQuotes (c :: cs)).2.2 ++ more) := by
  obtain rfl | ⟨rest, rfl⟩ := ends.cases
  · simp only [List.append_nil]
  · match cs with
    | [] =>
      cases rest with
      | nil => rfl
      | cons d rest => simp [Source.openQuotes, quote]
    | [d] => simp [Source.openQuotes, quote]
    | d :: e :: cs =>
      simp only [List.cons_append, Source.openQuotes]
      split <;> rfl

/-! Numbers. -/

theorem readSign (ends : AtLineEnd more) (cs : List Char) :
    readSign (cs ++ more) = ((readSign cs).1, (readSign cs).2 ++ more) := by
  cases cs with
  | nil =>
    obtain rfl | ⟨rest, rfl⟩ := ends.cases <;> rfl
  | cons c cs =>
    rw [List.cons_append]
    unfold Source.readSign
    split <;> split <;> simp_all

theorem readExponent? (ends : AtLineEnd more) (cs : List Char) :
    readExponent? (cs ++ more) =
      (readExponent? cs).map fun found => (found.1, found.2 ++ more) := by
  have stops : Char.isDigit '\n' = false := by decide
  simp only [Source.readExponent?, ends.readSign, ends.takeWhile stops, ends.dropWhile stops]
  split <;> rfl

theorem head?_ne (ends : AtLineEnd more) {c : Char} (other : c ≠ '\n') (cs : List Char) :
    (cs ++ more).head? ≠ some c ↔ cs.head? ≠ some c := by
  cases cs with
  | nil =>
    obtain rfl | ⟨rest, rfl⟩ := ends.cases
    · rfl
    · simp [Ne.symm other]
  | cons d cs => rfl

theorem readDecimal (ends : AtLineEnd more) (float : Bool) (done cs : List Char) :
    readDecimal float done (cs ++ more) =
      ((readDecimal float done cs).1, (readDecimal float done cs).2.1,
        (readDecimal float done cs).2.2 ++ more) := by
  have point (cs : List Char) := ends.head?_ne (show '.' ≠ '\n' by decide) cs
  induction cs generalizing float done with
  | nil =>
    obtain rfl | ⟨rest, rfl⟩ := ends.cases
    · rfl
    · simp [Source.readDecimal, show Char.isDigit '\n' = false by decide]
  | cons c cs ih =>
    simp only [List.cons_append, Source.readDecimal, point, ends.readExponent?, ih]
    split
    · rfl
    · split
      · rfl
      · split
        · rfl
        · split
          · cases Source.readExponent? cs <;> rfl
          · rfl

theorem readRadix (ends : AtLineEnd more) {radix line : Nat} {cs rest : List Char} {kind : TokenKind}
    (h : readRadix radix line cs = .ok (kind, rest)) (other : Nat) :
    readRadix radix other (cs ++ more) = .ok (kind, rest ++ more) := by
  have stops : isRadixDigit '\n' = false := by decide
  unfold Source.readRadix at h ⊢
  simp only [ends.takeWhile stops, ends.dropWhile stops] at h ⊢
  split at h
  · cases h
    rfl
  · cases h

theorem readNumeral (ends : AtLineEnd more) {line : Nat} {cs rest : List Char} {kind : TokenKind}
    (h : readNumeral line cs = .ok (kind, rest)) (other : Nat) :
    readNumeral other (cs ++ more) = .ok (kind, rest ++ more) := by
  unfold Source.readNumeral at h ⊢
  rw [ends.readDecimal]
  split at h
  · next read =>
    rw [read]
    split at h
    · next found =>
      cases h
      simp only [found]
    · cases h
  · next read =>
    rw [read]
    split at h
    · next found =>
      cases h
      simp only [found]
    · cases h

theorem readNumber (ends : AtLineEnd more) {line : Nat} {cs rest : List Char} {kind : TokenKind}
    (h : readNumber line cs = .ok (kind, rest)) (other : Nat) :
    readNumber other (cs ++ more) = .ok (kind, rest ++ more) := by
  unfold Source.readNumber at h
  split at h
  · simp only [List.cons_append, Source.readNumber]
    split at h
    · exact ends.readRadix h other
    · exact ends.readNumeral h other
  · next no_letter =>
    have numeral := ends.readNumeral h other
    unfold Source.readNumber
    split
    · next letter after same =>
      have no_radix : radixOf? letter = none := by
        match cs with
        | [] => cases ends _ _ same
        | [c] =>
          have line_end := ends letter after (List.cons.inj same).2
          rw [line_end]
          rfl
        | c :: d :: cs =>
          cases same
          exact absurd rfl (no_letter _ _)
      simp only [no_radix]
      rw [← same]
      exact numeral
    · exact numeral

theorem startsNumber (ends : AtLineEnd more) (c : Char) (tail : List Char) :
    startsNumber c (tail ++ more) = startsNumber c tail := by
  unfold Source.startsNumber
  cases tail with
  | nil =>
    obtain rfl | ⟨rest, rfl⟩ := ends.cases
    · rfl
    · simp [show Char.isDigit '\n' = false by decide]
  | cons d tail => rfl

theorem readSymbol? (ends : AtLineEnd more) (cs : List Char) (symbols : List Symbol) :
    readSymbol? (cs ++ more) symbols =
      (readSymbol? cs symbols).map fun found => (found.1, found.2 ++ more) := by
  induction symbols with
  | nil => rfl
  | cons symbol symbols ih =>
    have inside : '\n' ∉ symbol.text.toList := by cases symbol <;> decide
    simp only [Source.readSymbol?, ends.afterPiece inside, ih]
    cases Text.afterPiece symbol.text.toList cs <;> rfl

end AtLineEnd

theorem line_end_not_mem_openQuotes {c : Char} (quote : c ≠ '\n') (cs : List Char) :
    '\n' ∉ (openQuotes (c :: cs)).1 := by
  unfold openQuotes
  split
  · next same =>
    cases same
    split
    · next triple =>
      obtain ⟨rfl, rfl⟩ := triple
      simp [Ne.symm quote]
    · simp [Ne.symm quote]
  · next same =>
    cases same
    simp [Ne.symm quote]
  · next same => cases same

/-! How many line ends a piece takes. -/

def newlines (cs : List Char) : Nat := cs.count '\n'

theorem newlines_cons (c : Char) (cs : List Char) :
    newlines (c :: cs) = newlines cs + if c = '\n' then 1 else 0 := by
  simp [newlines, List.count_cons]

theorem newlines_append (xs ys : List Char) : newlines (xs ++ ys) = newlines xs + newlines ys :=
  List.count_append

theorem newlines_cons_of_ne {c : Char} (other : c ≠ '\n') (cs : List Char) :
    newlines (c :: cs) = newlines cs := by
  rw [newlines_cons, if_neg other, Nat.add_zero]

theorem newlines_dropWhile {p : Char → Bool} (stops : p '\n' = false) (cs : List Char) :
    newlines (cs.dropWhile p) = newlines cs := by
  induction cs with
  | nil => rfl
  | cons c cs ih =>
    rw [List.dropWhile_cons]
    split
    · next drops =>
      have other : c ≠ '\n' := by
        rintro rfl
        rw [stops] at drops
        cases drops
      rw [ih, newlines_cons_of_ne other]
    · rfl

theorem newlines_leadingWidth (width : Nat) (cs : List Char) :
    newlines (leadingWidth width cs).2 = newlines cs := by
  fun_induction leadingWidth width cs
  case case1 ih => rw [ih, newlines_cons_of_ne (by decide)]
  case case2 ih => rw [ih, newlines_cons_of_ne (by decide)]
  case case3 ih => rw [ih, newlines_cons_of_ne (by decide)]
  case case4 => rfl

theorem newlines_afterPiece {piece cs rest : List Char} (inside : '\n' ∉ piece)
    (h : afterPiece piece cs = some rest) : newlines rest = newlines cs := by
  rw [afterPiece_eq_some_iff.1 h, newlines_append, newlines, newlines, List.count_eq_zero.2 inside,
    Nat.zero_add]

/-- No digit is a line end. -/
theorem digits_of_natOfDigits? {radix n : Nat} {cs : List Char} (h : natOfDigits? radix cs = some n) :
    '\n' ∉ cs := by
  unfold natOfDigits? at h
  split at h
  · cases h
  · have read (cs : List Char) (start n : Nat)
        (h : cs.foldlM (fun n c => (digitValue? c).bind fun d =>
          if d < radix then some (n * radix + d) else none) start = some n) : '\n' ∉ cs := by
      induction cs generalizing start with
      | nil => exact List.not_mem_nil
      | cons c cs ih =>
        simp only [List.foldlM_cons, Option.bind_eq_bind, Option.bind_eq_some_iff] at h
        obtain ⟨next, ⟨digit, value, _⟩, rest⟩ := h
        rw [List.mem_cons, not_or]
        refine ⟨?_, ih next rest⟩
        rintro rfl
        cases value
    exact read cs 0 n h

theorem newlines_escapedCode {digits : List Char} {line : Nat} {c : Char}
    (h : escapedCode digits line = .ok c) : '\n' ∉ digits := by
  unfold escapedCode at h
  split at h
  · next found =>
    obtain ⟨n, value, -⟩ := Option.bind_eq_some_iff.1 found
    unfold unsigned? at value
    split at value
    · rw [List.mem_cons, not_or]
      exact ⟨by decide, digits_of_natOfDigits? value⟩
    · exact digits_of_natOfDigits? value
  · cases h

theorem newlines_readString {close : List Char} (inside : '\n' ∉ close) {multiline : Bool}
    {start line : Nat} {done cs : List Char} {p : Piece String}
    (h : readString close multiline start line done cs = .ok p) :
    p.line + newlines p.rest = line + newlines cs := by
  fun_induction readString close multiline start line done cs
  case case2 found =>
    cases h
    rw [newlines_afterPiece inside found]
  case case3 ih =>
    rw [ih h, newlines_cons, if_pos rfl]
    omega
  case case6 ih =>
    rw [ih h, newlines_cons_of_ne (by decide), newlines_cons, if_pos rfl]
    omega
  case case7 a b c d rest e code _ _ ih =>
    have digits := newlines_escapedCode code
    simp only [List.mem_cons, not_or] at digits
    rw [ih h, newlines_cons_of_ne (by decide), newlines_cons_of_ne (by decide),
      newlines_cons_of_ne (Ne.symm digits.1), newlines_cons_of_ne (Ne.symm digits.2.1),
      newlines_cons_of_ne (Ne.symm digits.2.2.1), newlines_cons_of_ne (Ne.symm digits.2.2.2.1)]
  case case9 a b rest e code _ _ ih =>
    have digits := newlines_escapedCode code
    simp only [List.mem_cons, not_or] at digits
    rw [ih h, newlines_cons_of_ne (by decide), newlines_cons_of_ne (by decide),
      newlines_cons_of_ne (Ne.symm digits.1), newlines_cons_of_ne (Ne.symm digits.2.1)]
  case case12 no_line _ _ _ _ _ ih =>
    rw [ih h, newlines_cons_of_ne (by decide), newlines_cons_of_ne no_line]
  case case13 no_line _ ih =>
    rw [ih h, newlines_cons_of_ne no_line]
  all_goals cases h

theorem newlines_readRaw {close : List Char} (inside : '\n' ∉ close) {multiline : Bool}
    {start line : Nat} {done cs : List Char} {p : Piece String}
    (h : readRaw close multiline start line done cs = .ok p) :
    p.line + newlines p.rest = line + newlines cs := by
  fun_induction readRaw close multiline start line done cs
  case case2 found =>
    cases h
    rw [newlines_afterPiece inside found]
  case case3 ih =>
    rw [ih h, newlines_cons, if_pos rfl]
    omega
  case case5 no_line ih =>
    rw [ih h, newlines_cons_of_ne no_line]
  all_goals cases h

theorem newlines_openQuotes {c : Char} (quote : c ≠ '\n') (cs : List Char) :
    newlines (openQuotes (c :: cs)).2.2 = newlines (c :: cs) := by
  unfold openQuotes
  split
  · next a b d rest same =>
    cases same
    split
    · next triple =>
      obtain ⟨rfl, rfl⟩ := triple
      rw [newlines_cons_of_ne quote, newlines_cons_of_ne quote, newlines_cons_of_ne quote]
    · rw [newlines_cons_of_ne quote]
  · next same =>
    cases same
    rw [newlines_cons_of_ne quote]
  · next same => cases same

theorem newlines_readExponent? {cs exponent rest : List Char}
    (h : readExponent? cs = some (exponent, rest)) : newlines rest = newlines cs := by
  have stops : Char.isDigit '\n' = false := by decide
  have sign : newlines (readSign cs).2 = newlines cs := by
    unfold readSign
    split
    · rw [newlines_cons_of_ne (by decide)]
    · rw [newlines_cons_of_ne (by decide)]
    · rfl
  simp only [readExponent?] at h
  split at h
  · cases h
  · cases h
    rw [newlines_dropWhile stops, sign]

theorem newlines_readDecimal (float : Bool) (done cs : List Char) :
    newlines (readDecimal float done cs).2.2 = newlines cs := by
  induction cs generalizing float done with
  | nil => rfl
  | cons c cs ih =>
    rw [readDecimal]
    split
    · next digit =>
      rw [ih, newlines_cons_of_ne]
      rintro rfl
      cases digit
    · split
      · next same => rw [ih, newlines_cons_of_ne (by rw [same]; decide)]
      · split
        · next same => rw [ih, newlines_cons_of_ne (by rw [same.1]; decide)]
        · split
          · next same =>
            have other : c ≠ '\n' := by obtain rfl | rfl := same <;> decide
            split
            · next found => rw [newlines_readExponent? found, newlines_cons_of_ne other]
            · rfl
          · rfl

theorem newlines_readNumber {line : Nat} {cs rest : List Char} {kind : TokenKind}
    (h : readNumber line cs = .ok (kind, rest)) : newlines rest = newlines cs := by
  have numeral {cs : List Char} (h : readNumeral line cs = .ok (kind, rest)) :
      newlines rest = newlines cs := by
    have counted := newlines_readDecimal false [] cs
    unfold readNumeral at h
    split at h <;> split at h <;> cases h <;> simp_all
  unfold readNumber at h
  split at h
  · next letter after =>
    split at h
    · next found =>
      have stops : isRadixDigit '\n' = false := by decide
      have other : letter ≠ '\n' := by
        rintro rfl
        cases found
      unfold readRadix at h
      dsimp only at h
      split at h
      · cases h
        rw [newlines_dropWhile stops, newlines_cons_of_ne (by decide), newlines_cons_of_ne other]
      · cases h
    · exact numeral h
  · exact numeral h

theorem newlines_readSymbol? {cs rest : List Char} {symbols : List Symbol} {symbol : Symbol}
    (h : readSymbol? cs symbols = some (symbol, rest)) : newlines rest = newlines cs := by
  induction symbols with
  | nil => cases h
  | cons first symbols ih =>
    have inside : '\n' ∉ first.text.toList := by cases first <;> decide
    rw [readSymbol?] at h
    split at h
    · next found =>
      cases h
      exact newlines_afterPiece inside found
    · exact ih h

end SnippetKernel.Source
