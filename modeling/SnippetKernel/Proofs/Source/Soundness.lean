import SnippetKernel.Proofs.Source.Scanning

/-! What holds of a scan at every moment: the lines and the open brackets and blocks are those of the text
and of the tokens that were read. -/
namespace SnippetKernel.Source

open Text

/-- The brackets that are open after the token, when `n` are open before it. -/
def TokenKind.depth (n : Nat) : TokenKind → Nat
  | .symbol s => if s.opens then n + 1 else if s.closes then n - 1 else n
  | _ => n

/-- The brackets that are open after the tokens. -/
def depthAfter (n : Nat) (kinds : List TokenKind) : Nat := kinds.foldl TokenKind.depth n

/-- A token that neither brackets nor blocks are made of, and that is not the end. -/
structure TokenKind.Plain (kind : TokenKind) : Prop where
  depth : ∀ n, kind.depth n = n
  not_indent : kind ≠ .indent
  not_dedent : kind ≠ .dedent
  not_eof : kind ≠ .eof

theorem TokenKind.plain_str (text : String) : (TokenKind.str text).Plain :=
  ⟨fun _ => rfl, nofun, nofun, nofun⟩

theorem TokenKind.plain_template (body : String) : (TokenKind.template body).Plain :=
  ⟨fun _ => rfl, nofun, nofun, nofun⟩

/-- What is read as a number is a number. -/
theorem kind_of_readNumber {line : Nat} {cs rest : List Char} {kind : TokenKind}
    (h : readNumber line cs = .ok (kind, rest)) : (∃ i, kind = .int i) ∨ ∃ d, kind = .float d := by
  have numeral {cs : List Char} (h : readNumeral line cs = .ok (kind, rest)) :
      (∃ i, kind = .int i) ∨ ∃ d, kind = .float d := by
    unfold readNumeral at h
    split at h <;> split at h <;> cases h
    · exact .inr ⟨_, rfl⟩
    · exact .inl ⟨_, rfl⟩
  unfold readNumber at h
  split at h
  · split at h
    · unfold readRadix at h
      dsimp only at h
      split at h <;> cases h
      exact .inl ⟨_, rfl⟩
    · exact numeral h
  · exact numeral h

theorem plain_of_readNumber {line : Nat} {cs rest : List Char} {kind : TokenKind}
    (h : readNumber line cs = .ok (kind, rest)) : kind.Plain := by
  obtain ⟨i, rfl⟩ | ⟨d, rfl⟩ := kind_of_readNumber h <;> exact ⟨fun _ => rfl, nofun, nofun, nofun⟩

def Token.isIndent (t : Token) : Bool := t.kind = .indent

def Token.isDedent (t : Token) : Bool := t.kind = .dedent

theorem depthAfter_append (n : Nat) (xs ys : List TokenKind) :
    depthAfter n (xs ++ ys) = depthAfter (depthAfter n xs) ys := List.foldl_append

namespace Scan

/-! ### All that a turn can do -/

section

variable {s t : Scan} {c : Char} {tail : List Char}

theorem takeString_ok {raw : Bool} {kind : String → TokenKind} (h : s.takeString raw kind = .ok t) :
    ∃ p, s.readQuotes raw = .ok p ∧ t = ({ s with rest := p.rest, line := p.line } : Scan).push (kind p.value) := by
  unfold takeString at h
  split at h
  · next p read =>
    cases h
    exact ⟨p, read, rfl⟩
  · cases h

theorem takeNumber_ok (h : s.takeNumber = .ok t) :
    ∃ kind rest, readNumber s.line s.rest = .ok (kind, rest) ∧ t = ({ s with rest := rest } : Scan).push kind := by
  unfold takeNumber at h
  split at h
  · next kind rest read =>
    cases h
    exact ⟨kind, rest, read, rfl⟩
  · cases h

theorem takeSymbol_ok (h : s.takeSymbol c = .ok t) :
    ∃ symbol rest, readSymbol? s.rest Symbol.all = some (symbol, rest) ∧
      t = ({ s with rest := rest, depth := (TokenKind.symbol symbol).depth s.depth } : Scan).push (.symbol symbol) := by
  unfold takeSymbol at h
  split at h
  · next symbol rest read =>
    cases h
    exact ⟨symbol, rest, read, rfl⟩
  · cases h

/-- What a name can come to: a token of its own, or the way to read the string literal behind it. -/
inductive Named (name : List Char) (s : Scan) : Scan → Prop
  | alone : Named name s (s.push (.name (String.ofList name)))
  | template {c : Char} {tail : List Char} {t : Scan} (letter : name = ['f'] ∨ name = ['F'])
      (behind : s.rest = c :: tail) (quote : isQuote c = true) (took : s.takeString false .template = .ok t) :
      Named name s t
  | rawStr {c : Char} {tail : List Char} {t : Scan} (letter : name = ['r'] ∨ name = ['R'])
      (behind : s.rest = c :: tail) (quote : isQuote c = true) (took : s.takeString true .str = .ok t) :
      Named name s t

theorem named_of_takeNamed {name : List Char} (h : s.takeNamed name = .ok t) : Named name s t := by
  unfold takeNamed at h
  dsimp only at h
  split at h
  · next behind =>
    split at h
    · next quote =>
      split at h
      · next letter => exact .template letter behind quote h
      · split at h
        · next letter => exact .rawStr letter behind quote h
        · cases h
          exact .alone
    · cases h
      exact .alone
  · cases h
    exact .alone

/-- The ways to take a token, or a stretch without one. -/
inductive Taken (s : Scan) : Char → List Char → Scan → Prop
  | lineEnd (tail : List Char) : Taken s '\n' tail ({ s with rest := tail } : Scan).passLineEnd
  | blank {c : Char} (tail : List Char) (white : c = ' ' ∨ c = '\t' ∨ c = '\r') : Taken s c tail { s with rest := tail }
  | comment (tail : List Char) : Taken s '#' tail { s with rest := dropComment tail }
  | goesOn (tail : List Char) : Taken s '\\' ('\n' :: tail) { s with rest := tail, line := s.line + 1 }
  | number {c : Char} {tail : List Char} {t : Scan} (starts : startsNumber c tail = true)
      (took : s.takeNumber = .ok t) : Taken s c tail t
  | string {c : Char} {tail : List Char} {t : Scan} (quote : isQuote c = true)
      (took : s.takeString false .str = .ok t) : Taken s c tail t
  | name {c : Char} {tail : List Char} {t : Scan} (starts : isNameStart c = true) (took : s.takeName = .ok t) :
      Taken s c tail t
  | symbol {c : Char} {tail : List Char} {t : Scan} (took : s.takeSymbol c = .ok t) : Taken s c tail t

theorem taken_of_takeToken (h : s.takeToken c tail = .ok t) : Taken s c tail t := by
  unfold takeToken at h
  split at h
  · next line_end =>
    cases h
    exact line_end ▸ .lineEnd tail
  split at h
  · next white =>
    cases h
    exact .blank tail white
  split at h
  · next hash =>
    cases h
    exact hash ▸ .comment tail
  split at h
  · next goes_on =>
    cases h
    obtain ⟨rfl, follows⟩ := goes_on
    obtain ⟨after, rfl⟩ := List.head?_eq_some_iff.1 follows
    exact .goesOn after
  split at h
  · next starts => exact .number starts h
  split at h
  · next quote => exact .string quote h
  split at h
  · next starts => exact .name starts h
  · exact .symbol h

/-- The ways to begin a line: it is blank, or it counts, and blocks are opened and closed in front of it. -/
inductive Begun (s : Scan) : Scan → Prop
  | nothing {width : Nat} (white : leadingWidth 0 s.rest = (width, [])) : Begun s { s with rest := [] }
  | lineEnd {width : Nat} {tail : List Char} (white : leadingWidth 0 s.rest = (width, '\n' :: tail)) :
      Begun s { s with rest := tail, line := s.line + 1 }
  | comment {width : Nat} {tail : List Char} (white : leadingWidth 0 s.rest = (width, '#' :: tail)) :
      Begun s { s with rest := dropComment tail }
  | counts {width : Nat} {c : Char} {tail : List Char} {u t : Scan} (white : leadingWidth 0 s.rest = (width, c :: tail))
      (no_line_end : c ≠ '\n') (no_comment : c ≠ '#')
      (indented : indentTo width { s with rest := c :: tail, atLineStart := false } = .ok u)
      (took : u.takeToken c tail = .ok t) : Begun s t

theorem begun_of_takeLineStart (h : s.takeLineStart = .ok t) : Begun s t := by
  unfold takeLineStart at h
  split at h
  · next white =>
    cases h
    exact .nothing white
  · next white =>
    split at h
    · next line_end =>
      cases h
      exact .lineEnd (line_end ▸ white)
    next no_line_end =>
    split at h
    · next hash =>
      cases h
      exact .comment (hash ▸ white)
    next no_comment =>
    split at h
    · next indented => exact .counts white no_line_end no_comment indented h
    · cases h

end

/-! ### What holds at every moment -/

/-- The text has `total` lines, and the tokens of `oldest` were read before all others. -/
structure Sound (total : Nat) (oldest : List Token) (s : Scan) : Prop where
  behind : oldest <:+ s.tokens
  lines : s.line + newlines s.rest = total
  depth : depthAfter 0 (s.tokens.reverse.map (·.kind)) = s.depth
  widths : ∀ width ∈ s.indents, 0 < width
  blocks : s.tokens.countP Token.isIndent = s.tokens.countP Token.isDedent + s.indents.length
  no_eof : ∀ t ∈ s.tokens, t.kind ≠ .eof
  start : s.atLineStart = true → s.depth = 0 ∧ Settled s.tokens

namespace Sound

variable {total : Nat} {oldest : List Token} {s t : Scan}

theorem goOn (sound : Sound total oldest s) {rest : List Char} {line : Nat}
    (lines : line + newlines rest = total) : Sound total oldest { s with rest := rest, line := line } :=
  ⟨sound.behind, lines, sound.depth, sound.widths, sound.blocks, sound.no_eof, sound.start⟩

theorem push {kind : TokenKind} (sound : Sound total oldest s) (plain : kind.Plain)
    (start : s.atLineStart = true → s.depth = 0 ∧ Settled (s.push kind).tokens) :
    Sound total oldest (s.push kind) where
  behind := sound.behind.trans (List.suffix_cons ..)
  lines := sound.lines
  depth := by
    have read := sound.depth
    simp only [Scan.push, List.reverse_cons, List.map_append, depthAfter_append, List.map_cons,
      List.map_nil, read]
    exact plain.depth s.depth
  widths := sound.widths
  blocks := by
    have no_indent : Token.isIndent ⟨kind, s.line⟩ = false := decide_eq_false plain.not_indent
    have no_dedent : Token.isDedent ⟨kind, s.line⟩ = false := decide_eq_false plain.not_dedent
    simp only [Scan.push, List.countP_cons, no_indent, no_dedent, sound.blocks]
    rfl
  no_eof := List.forall_mem_cons.2 ⟨plain.not_eof, sound.no_eof⟩
  start := start

theorem begin (source : String) : Sound (1 + newlines source.toList) [] (Scan.start source) where
  behind := List.suffix_refl []
  lines := rfl
  depth := rfl
  widths := fun _ none => nomatch none
  blocks := rfl
  no_eof := fun _ none => nomatch none
  start := fun _ => ⟨rfl, trivial⟩

theorem endLine (sound : Sound total oldest s) : Sound total oldest s.endLine := by
  have plain : TokenKind.newline.Plain := ⟨fun _ => rfl, nofun, nofun, nofun⟩
  unfold Scan.endLine
  split
  · exact sound
  · split
    · exact sound
    · exact sound.push plain fun start => ⟨(sound.start start).1, .inl rfl⟩

theorem settled_endLine (s : Scan) : Settled s.endLine.tokens := by
  unfold Scan.endLine
  split
  · next none =>
    rw [none]
    trivial
  · next last older same =>
    split
    · next settled =>
      rw [same]
      exact settled
    · exact .inl rfl

theorem endLine_depth (s : Scan) : s.endLine.depth = s.depth := by
  unfold Scan.endLine
  split
  · rfl
  · split <;> rfl

theorem endLine_tokens (s : Scan) (rest : List Char) :
    ({ s with rest := rest } : Scan).endLine = { s.endLine with rest := rest } := by
  unfold Scan.endLine
  dsimp only
  split
  · rfl
  · split <;> rfl

theorem passLineEnd (sound : Sound total oldest s) {tail : List Char} (line_end : s.rest = '\n' :: tail) :
    Sound total oldest ({ s with rest := tail } : Scan).passLineEnd := by
  have lines : s.line + 1 + newlines tail = total := by
    have counted := sound.lines
    rw [line_end, newlines_cons, if_pos rfl] at counted
    omega
  unfold Scan.passLineEnd
  rw [endLine_tokens]
  dsimp only
  split
  · next outside =>
    have ended := sound.endLine.goOn lines
    exact ⟨ended.behind, ended.lines, ended.depth, ended.widths, ended.blocks, ended.no_eof,
      fun _ => ⟨(endLine_depth s).trans outside, settled_endLine s⟩⟩
  · exact sound.goOn lines

theorem closeBlocks (sound : Sound total oldest s) (width : Nat) :
    Sound total oldest (Scan.closeBlocks width s s.indents) := by
  have close (s : Scan) (widths : List Nat) (sound : Sound total oldest { s with indents := widths }) :
      Sound total oldest (Scan.closeBlocks width s widths) := by
    induction widths generalizing s with
    | nil => exact sound
    | cons inner outer ih =>
      rw [Scan.closeBlocks]
      split
      · refine ih (s.push .dedent) ⟨sound.behind.trans (List.suffix_cons ..), sound.lines, ?_, ?_, ?_, ?_, ?_⟩
        · have read := sound.depth
          simp only [Scan.push, List.reverse_cons, List.map_append, depthAfter_append, List.map_cons,
            List.map_nil] at read ⊢
          exact read
        · exact fun width outer => sound.widths width (List.mem_cons_of_mem _ outer)
        · have counted := sound.blocks
          simp only [List.length_cons] at counted
          simp only [Scan.push, List.countP_cons, counted]
          simp only [Token.isIndent, Token.isDedent]
          simp
          omega
        · exact List.forall_mem_cons.2 ⟨by simp, sound.no_eof⟩
        · exact fun start => ⟨(sound.start start).1, .inr (.inr rfl)⟩
      · exact sound
  exact close s s.indents sound

theorem indentTo (sound : Sound total oldest s) {width : Nat} (h : Scan.indentTo width s = .ok t) :
    Sound total oldest t := by
  unfold Scan.indentTo at h
  dsimp only at h
  split at h
  · next wider =>
    cases h
    refine ⟨sound.behind.trans (List.suffix_cons ..), sound.lines, ?_, ?_, ?_, ?_, ?_⟩
    · have read := sound.depth
      simp only [Scan.push, List.reverse_cons, List.map_append, depthAfter_append, List.map_cons,
        List.map_nil] at read ⊢
      exact read
    · exact List.forall_mem_cons.2 ⟨by omega, sound.widths⟩
    · simp [Scan.push, sound.blocks, Token.isIndent, Token.isDedent]
      omega
    · exact List.forall_mem_cons.2 ⟨nofun, sound.no_eof⟩
    · exact fun start => ⟨(sound.start start).1, .inr (.inl rfl)⟩
  · split at h
    · cases h
      exact sound.closeBlocks width
    · cases h

theorem indentTo_atLineStart {width : Nat} (h : Scan.indentTo width s = .ok t) :
    t.atLineStart = s.atLineStart := by
  have closed (s : Scan) (widths : List Nat) :
      (Scan.closeBlocks width s widths).atLineStart = s.atLineStart := by
    induction widths generalizing s with
    | nil => rfl
    | cons inner outer ih =>
      rw [Scan.closeBlocks]
      split
      · exact ih (s.push .dedent)
      · rfl
  unfold Scan.indentTo at h
  dsimp only at h
  split at h
  · cases h
    rfl
  · split at h
    · cases h
      exact closed s s.indents
    · cases h

theorem no_line_end_of_quote {c : Char} (quote : isQuote c = true) : c ≠ '\n' := by
  rintro rfl
  cases quote

theorem takeString (sound : Sound total oldest s) (inside : s.atLineStart = false) {raw : Bool}
    {kind : String → TokenKind} {c : Char} {tail : List Char} (plain : ∀ text, (kind text).Plain)
    (begins : s.rest = c :: tail) (quote : c ≠ '\n') (h : s.takeString raw kind = .ok t) :
    Sound total oldest t := by
  have closing := line_end_not_mem_openQuotes quote tail
  have opened := newlines_openQuotes quote tail
  have counted := sound.lines
  obtain ⟨p, read, rfl⟩ := takeString_ok h
  have lines : p.line + newlines p.rest = total := by
    unfold readQuotes at read
    rw [begins] at read counted
    rw [← opened] at counted
    dsimp only at read
    split at read
    · rw [newlines_readRaw closing read, counted]
    · rw [newlines_readString closing read, counted]
  refine (sound.goOn lines).push (plain p.value) fun start => ?_
  rw [inside] at start
  cases start

theorem takeNamed (sound : Sound total oldest s) (inside : s.atLineStart = false) {name : List Char}
    (h : s.takeNamed name = .ok t) : Sound total oldest t := by
  cases named_of_takeNamed h with
  | alone =>
    refine sound.push ⟨fun _ => rfl, nofun, nofun, nofun⟩ fun start => ?_
    rw [inside] at start
    cases start
  | template _ behind quote took =>
    exact sound.takeString inside TokenKind.plain_template behind (no_line_end_of_quote quote) took
  | rawStr _ behind quote took =>
    exact sound.takeString inside TokenKind.plain_str behind (no_line_end_of_quote quote) took

theorem takeName (sound : Sound total oldest s) (inside : s.atLineStart = false) (h : s.takeName = .ok t) :
    Sound total oldest t := by
  have stops : isNamePart '\n' = false := by decide
  have lines : s.line + newlines (s.rest.dropWhile isNamePart) = total := by
    rw [newlines_dropWhile stops, sound.lines]
  exact takeNamed (sound.goOn lines) inside h

theorem takeNumber (sound : Sound total oldest s) (inside : s.atLineStart = false)
    (h : s.takeNumber = .ok t) : Sound total oldest t := by
  obtain ⟨kind, rest, read, rfl⟩ := takeNumber_ok h
  have lines : s.line + newlines rest = total := by rw [newlines_readNumber read, sound.lines]
  refine (sound.goOn lines).push (plain_of_readNumber read) fun start => ?_
  rw [inside] at start
  cases start

theorem takeSymbol (sound : Sound total oldest s) (inside : s.atLineStart = false) {c : Char}
    (h : s.takeSymbol c = .ok t) : Sound total oldest t := by
  obtain ⟨symbol, rest, read, rfl⟩ := takeSymbol_ok h
  refine ⟨sound.behind.trans (List.suffix_cons ..), ?_, ?_, sound.widths, ?_, ?_, ?_⟩
  · exact (congrArg (s.line + ·) (newlines_readSymbol? read)).trans sound.lines
  · have depth := sound.depth
    simp only [Scan.push, List.reverse_cons, List.map_append, depthAfter_append, List.map_cons,
      List.map_nil, depth]
    rfl
  · exact sound.blocks
  · exact List.forall_mem_cons.2 ⟨nofun, sound.no_eof⟩
  · intro start
    rw [Scan.push, inside] at start
    cases start

theorem takeToken (sound : Sound total oldest s) (inside : s.atLineStart = false) {c : Char}
    {tail : List Char} (begins : s.rest = c :: tail) (h : s.takeToken c tail = .ok t) :
    Sound total oldest t := by
  have counted := sound.lines
  rw [begins, newlines_cons] at counted
  cases taken_of_takeToken h with
  | lineEnd => exact sound.passLineEnd begins
  | blank _ white =>
    have no_line_end : c ≠ '\n' := by rcases white with rfl | rfl | rfl <;> decide
    rw [if_neg no_line_end, Nat.add_zero] at counted
    exact sound.goOn counted
  | comment =>
    rw [if_neg (by decide), Nat.add_zero] at counted
    refine sound.goOn ?_
    rw [dropComment, newlines_dropWhile (by simp), counted]
  | goesOn tail =>
    rw [if_neg (by decide), Nat.add_zero, newlines_cons, if_pos rfl] at counted
    exact sound.goOn (by omega)
  | number _ took => exact sound.takeNumber inside took
  | string quote took =>
    exact sound.takeString inside TokenKind.plain_str begins (no_line_end_of_quote quote) took
  | name _ took => exact sound.takeName inside took
  | symbol took => exact sound.takeSymbol inside took

/-- White space in front of a line is passed. -/
theorem enter (sound : Sound total oldest s) {width : Nat} {rest : List Char}
    (white : leadingWidth 0 s.rest = (width, rest)) :
    Sound total oldest { s with rest := rest, atLineStart := false } := by
  have counted := sound.lines
  rw [← newlines_leadingWidth 0, white] at counted
  exact ⟨sound.behind, counted, sound.depth, sound.widths, sound.blocks, sound.no_eof, nofun⟩

theorem takeLineStart (sound : Sound total oldest s) (h : s.takeLineStart = .ok t) : Sound total oldest t := by
  have counted := sound.lines
  rw [← newlines_leadingWidth 0] at counted
  cases begun_of_takeLineStart h with
  | nothing white =>
    rw [white] at counted
    exact sound.goOn counted
  | lineEnd white =>
    rw [white, newlines_cons, if_pos rfl] at counted
    exact sound.goOn (by omega)
  | comment white =>
    rw [white, newlines_cons, if_neg (by decide), Nat.add_zero] at counted
    refine sound.goOn ?_
    rw [dropComment, newlines_dropWhile (by simp), counted]
  | counts white _ _ indented took =>
    exact ((sound.enter white).indentTo indented).takeToken (indentTo_atLineStart indented)
      (indentTo_rest indented) took

theorem step (sound : Sound total oldest s) (h : s.step = .ok t) : Sound total oldest t := by
  unfold Scan.step at h
  split at h
  · exact sound.takeLineStart h
  · next not_start =>
    have inside : s.atLineStart = false := by
      refine Bool.eq_false_iff.2 fun start => ?_
      exact not_start ⟨start, (sound.start start).1⟩
    split at h
    · cases h
      exact sound
    · next begins => exact sound.takeToken inside begins h

end Sound

end Scan

end SnippetKernel.Source
