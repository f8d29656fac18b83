import Mathlib.Data.List.Chain
import SnippetKernel.Proofs.Source.Joining
import SnippetKernel.Proofs.Source.Reading

/-! Where the tokens of a text stand. `Laid` says which tokens a text may have, rule by rule and without a
stack of widths: the tokens that tell lines and blocks apart come where the lines of the text end and begin,
outside of brackets, and every other token is written in the text. What is read of any text is laid out like
that, so tokens are balanced, in order, and on the lines that they seem to be on. -/
namespace SnippetKernel.Source

open Text

/-- A token, and the text behind its end. A token for the layout takes no room: the line end that a `newline`
stands for is behind it. -/
structure Mark where
  token : Token
  rest : List Char

/-- How much of a logical line has been read. -/
inductive Stage where
  /-- White space since a line began, or nothing. -/
  | atStart
  /-- No token of the line itself; but blocks were opened or closed for it, or it went on behind a backslash. -/
  | empty
  | begun
  deriving DecidableEq

/-- The stage behind a line end that does not count. -/
def Stage.goOn : Stage → Stage
  | .atStart => .empty
  | stage => stage

/-- The text begins with a string literal. -/
structure Quoted (raw : Bool) (cs : List Char) (p : Piece String) : Prop where
  quote : ∃ c tail, cs = c :: tail ∧ isQuote c = true
  read : ∃ s : Scan, s.rest = cs ∧ s.readQuotes raw = .ok p

/-- The text begins with a token of this kind that is written there, and goes on with `rest`. -/
inductive TokenKind.Begins : TokenKind → List Char → List Char → Prop
  | name {c : Char} {cs : List Char} (start : isNameStart c = true) (parts : cs.all isNamePart = true)
    (rest : List Char) : Begins (.name (String.ofList (c :: cs))) (c :: (cs ++ rest)) rest
  | number {kind : TokenKind} {c : Char} {line : Nat} {tail rest : List Char} (starts : startsNumber c tail = true)
    (read : readNumber line (c :: tail) = .ok (kind, rest)) : Begins kind (c :: tail) rest
  | symbol (s : Symbol) (rest : List Char) : Begins (.symbol s) (s.text.toList ++ rest) rest
  | str {cs : List Char} {p : Piece String} (quoted : Quoted false cs p) : Begins (.str p.value) cs p.rest
  | rawStr {letter : Char} {cs : List Char} {p : Piece String} (raw : letter = 'r' ∨ letter = 'R')
    (quoted : Quoted true cs p) : Begins (.str p.value) (letter :: cs) p.rest
  | template {letter : Char} {cs : List Char} {p : Piece String} (template : letter = 'f' ∨ letter = 'F')
    (quoted : Quoted false cs p) : Begins (.template p.value) (letter :: cs) p.rest

def isInlineBlank (c : Char) : Bool := c = ' ' || c = '\t' || c = '\r'

/-- The text begins with something that makes a line count. -/
def Counts (cs : List Char) : Prop := ∃ c ∈ cs.head?, isInlineBlank c = false ∧ c ≠ '\n' ∧ c ≠ '#'

/-- How tokens are laid out over a text, where `depth` brackets and `blocks` blocks are open. -/
inductive Laid : (depth blocks : Nat) → Stage → List Char → List Mark → Prop
  | blank {depth blocks : Nat} {stage : Stage} {c : Char} {rest : List Char} {marks : List Mark}
    (white : isInlineBlank c) (behind : Laid depth blocks stage rest marks) :
    Laid depth blocks stage (c :: rest) marks
  | comment {depth blocks : Nat} {stage : Stage} {text rest : List Char} {marks : List Mark}
    (inside : '\n' ∉ text) (ends : AtLineEnd rest) (behind : Laid depth blocks stage rest marks) :
    Laid depth blocks stage ('#' :: (text ++ rest)) marks
  | goesOn {depth blocks : Nat} {stage : Stage} {rest : List Char} {marks : List Mark}
    (behind : Laid depth blocks stage.goOn rest marks) : Laid depth blocks stage ('\\' :: '\n' :: rest) marks
  /-- A line end that ends no logical line: in brackets, or where there is none to end. -/
  | lineEnd {depth blocks : Nat} {stage : Stage} {rest : List Char} {marks : List Mark}
    (nothing : depth = 0 → stage ≠ .begun)
    (behind : Laid depth blocks (if depth = 0 then .atStart else stage) rest marks) :
    Laid depth blocks stage ('\n' :: rest) marks
  | newline {blocks : Nat} {rest : List Char} {marks : List Mark} (line : Nat)
    (behind : Laid 0 blocks .atStart rest marks) :
    Laid 0 blocks .begun ('\n' :: rest) (⟨⟨.newline, line⟩, '\n' :: rest⟩ :: marks)
  | indent {blocks : Nat} {cs : List Char} {marks : List Mark} (line : Nat) (counts : Counts cs)
    (behind : Laid 0 (blocks + 1) .empty cs marks) :
    Laid 0 blocks .atStart cs (⟨⟨.indent, line⟩, cs⟩ :: marks)
  | dedent {blocks : Nat} {cs : List Char} {marks : List Mark} (line : Nat) (counts : Counts cs)
    (behind : Laid 0 blocks .atStart cs marks) :
    Laid 0 (blocks + 1) .atStart cs (⟨⟨.dedent, line⟩, cs⟩ :: marks)
  | written {depth blocks : Nat} {stage : Stage} {kind : TokenKind} {cs rest : List Char} {marks : List Mark}
    (line : Nat) (begins : kind.Begins cs rest) (behind : Laid (kind.depth depth) blocks .begun rest marks) :
    Laid depth blocks stage cs (⟨⟨kind, line⟩, rest⟩ :: marks)
  /-- The end of the text ends the last line, even in brackets. -/
  | lastNewline {depth blocks : Nat} {marks : List Mark} (line : Nat) (behind : Laid depth blocks .empty [] marks) :
    Laid depth blocks .begun [] (⟨⟨.newline, line⟩, []⟩ :: marks)
  | lastDedent {depth blocks : Nat} {stage : Stage} {marks : List Mark} (line : Nat) (ended : stage ≠ .begun)
    (behind : Laid depth blocks stage [] marks) :
    Laid depth (blocks + 1) stage [] (⟨⟨.dedent, line⟩, []⟩ :: marks)
  | eof {depth : Nat} {stage : Stage} (line : Nat) (ended : stage ≠ .begun) :
    Laid depth 0 stage [] [⟨⟨.eof, line⟩, []⟩]

/-! What is read is taken from the front of the text. -/

theorem suffix_of_readString {close : List Char} {multiline : Bool} {start line : Nat} {done cs : List Char}
    {p : Piece String} (h : readString close multiline start line done cs = .ok p) : p.rest <:+ cs := by
  fun_induction readString close multiline start line done cs
  case case2 found =>
    cases h
    rw [afterPiece_eq_some_iff.1 found]
    exact List.suffix_append ..
  all_goals first
    | contradiction
    | next ih => exact (ih h).trans (by simp only [List.suffix_cons_iff, List.suffix_refl, or_true])

theorem suffix_of_readRaw {close : List Char} {multiline : Bool} {start line : Nat} {done cs : List Char}
    {p : Piece String} (h : readRaw close multiline start line done cs = .ok p) : p.rest <:+ cs := by
  fun_induction readRaw close multiline start line done cs
  case case2 found =>
    cases h
    rw [afterPiece_eq_some_iff.1 found]
    exact List.suffix_append ..
  all_goals first
    | contradiction
    | next ih => exact (ih h).trans (List.suffix_cons ..)

theorem suffix_openQuotes (cs : List Char) : (openQuotes cs).2.2 <:+ cs := by
  unfold openQuotes
  split
  · split <;> simp only [List.suffix_cons_iff, List.suffix_refl, or_true]
  · exact List.suffix_cons ..
  · exact List.suffix_refl _

theorem suffix_of_readQuotes {raw : Bool} {s : Scan} {p : Piece String} (h : s.readQuotes raw = .ok p) :
    p.rest <:+ s.rest := by
  unfold Scan.readQuotes at h
  dsimp only at h
  split at h
  · exact (suffix_of_readRaw h).trans (suffix_openQuotes s.rest)
  · exact (suffix_of_readString h).trans (suffix_openQuotes s.rest)

theorem suffix_readDecimal (float : Bool) (done cs : List Char) : (readDecimal float done cs).2.2 <:+ cs := by
  induction cs generalizing float done with
  | nil => exact List.suffix_refl _
  | cons c cs ih =>
    have behind (float : Bool) (done : List Char) : (readDecimal float done cs).2.2 <:+ c :: cs :=
      (ih float done).trans (List.suffix_cons ..)
    have sign : (readSign cs).2 <:+ cs := by
      unfold readSign
      split <;> simp only [List.suffix_cons_iff, List.suffix_refl, or_true]
    rw [readDecimal]
    repeat' split
    · exact behind ..
    · exact behind ..
    · exact behind ..
    · next found =>
      simp only [readExponent?] at found
      split at found
      · cases found
      · cases found
        exact (List.dropWhile_suffix _).trans (sign.trans (List.suffix_cons ..))
    · exact List.suffix_refl _
    · exact List.suffix_refl _

theorem suffix_of_readNumber {line : Nat} {cs rest : List Char} {kind : TokenKind}
    (h : readNumber line cs = .ok (kind, rest)) : rest <:+ cs := by
  have numeral {cs : List Char} (h : readNumeral line cs = .ok (kind, rest)) : rest <:+ cs := by
    have taken := suffix_readDecimal false [] cs
    unfold readNumeral at h
    split at h <;> split at h <;> cases h <;> simp_all
  unfold readNumber at h
  split at h
  · split at h
    · unfold readRadix at h
      dsimp only at h
      split at h <;> cases h
      exact (List.dropWhile_suffix _).trans ((List.suffix_cons ..).trans (List.suffix_cons ..))
    · exact numeral h
  · exact numeral h

theorem Quoted.suffix {raw : Bool} {cs : List Char} {p : Piece String} (quoted : Quoted raw cs p) :
    p.rest <:+ cs := by
  obtain ⟨s, rfl, read⟩ := quoted.read
  exact suffix_of_readQuotes read

namespace TokenKind.Begins

variable {kind : TokenKind} {cs rest : List Char}

theorem word (begins : kind.Begins cs rest) : kind.isLayout = false := by
  cases begins with
  | number _ read => obtain ⟨i, rfl⟩ | ⟨d, rfl⟩ := kind_of_readNumber read <;> rfl
  | _ => rfl

theorem suffix (begins : kind.Begins cs rest) : rest <:+ cs := by
  cases begins with
  | name => exact (List.suffix_append ..).trans (List.suffix_cons ..)
  | number _ read => exact suffix_of_readNumber read
  | symbol => exact List.suffix_append ..
  | str quoted => exact quoted.suffix
  | rawStr _ quoted | template _ quoted => exact quoted.suffix.trans (List.suffix_cons ..)

theorem ne_nil (begins : kind.Begins cs rest) : cs ≠ [] := by
  cases begins with
  | symbol s =>
    exact List.append_ne_nil_of_left_ne_nil (List.ne_nil_of_length_pos s.text_ne_nil) _
  | str quoted =>
    obtain ⟨c, tail, rfl, -⟩ := quoted.quote
    exact List.cons_ne_nil _ _
  | _ => exact List.cons_ne_nil _ _

end TokenKind.Begins

/-- Where `blocks` blocks are open, the tokens close no block that is not open, and all that are. -/
structure Balanced (blocks : Nat) (tokens : List Token) : Prop where
  within : ∀ part, part <+: tokens → part.countP Token.isDedent ≤ blocks + part.countP Token.isIndent
  total : tokens.countP Token.isDedent = blocks + tokens.countP Token.isIndent

namespace Balanced

variable {blocks : Nat} {t : Token} {tokens : List Token}

theorem nil : Balanced 0 [] where
  within part started := by
    rw [List.prefix_nil.1 started]
    exact Nat.le_refl 0
  total := rfl

/-- A token before others, and the blocks that are open behind it. -/
theorem cons (behind : Balanced blocks tokens) {before : Nat}
    (first : blocks + [t].countP Token.isDedent = before + [t].countP Token.isIndent) :
    Balanced before (t :: tokens) where
  within part started := by
    obtain rfl | ⟨more, rfl, goes_on⟩ := List.prefix_cons_iff.1 started
    · exact Nat.zero_le _
    · have counted := behind.within more goes_on
      rw [List.countP_cons, List.countP_cons]
      simp only [List.countP_singleton] at first
      omega
  total := by
    have counted := behind.total
    rw [List.countP_cons, List.countP_cons]
    simp only [List.countP_singleton] at first
    omega

theorem word (behind : Balanced blocks tokens) (word : t.kind.isLayout = false) : Balanced blocks (t :: tokens) := by
  have no_indent : t.isIndent = false := decide_eq_false fun same => by rw [same] at word; cases word
  have no_dedent : t.isDedent = false := decide_eq_false fun same => by rw [same] at word; cases word
  exact behind.cons (by simp only [List.countP_singleton, no_indent, no_dedent])

end Balanced

theorem depth_of_isLayout {kind : TokenKind} (layout : kind.isLayout = true) (n : Nat) : kind.depth n = n := by
  cases kind <;> first | rfl | cases layout

/-- Where a bracket is open, the brackets around it stay open. -/
theorem TokenKind.depth_add (kind : TokenKind) (outer : Nat) {n : Nat} (positive : 0 < n) :
    kind.depth (outer + n) = outer + kind.depth n := by
  unfold depth
  split
  · split
    · rfl
    · split
      · omega
      · rfl
  · rfl

/-! ### What follows from the rules -/

namespace Laid

variable {depth blocks : Nat} {stage : Stage} {cs : List Char} {marks : List Mark}

/-- The texts behind the tokens, from the first one on, are each a part of the one before. -/
theorem suffixes (laid : Laid depth blocks stage cs marks) :
    (∀ m ∈ marks, m.rest <:+ cs) ∧ marks.Pairwise fun m n => n.rest <:+ m.rest := by
  induction laid with
  | @blank _ _ _ c rest _ _ _ ih =>
    exact ⟨fun m mem => (ih.1 m mem).trans (List.suffix_cons ..), ih.2⟩
  | @comment _ _ _ text rest _ _ _ _ ih =>
    exact ⟨fun m mem => (ih.1 m mem).trans ((List.suffix_append ..).trans (List.suffix_cons ..)), ih.2⟩
  | goesOn _ ih =>
    exact ⟨fun m mem => (ih.1 m mem).trans ((List.suffix_cons ..).trans (List.suffix_cons ..)), ih.2⟩
  | lineEnd _ _ ih => exact ⟨fun m mem => (ih.1 m mem).trans (List.suffix_cons ..), ih.2⟩
  | newline line _ ih =>
    have behind := fun m mem => (ih.1 m mem).trans (List.suffix_cons '\n' _)
    exact ⟨List.forall_mem_cons.2 ⟨List.suffix_refl _, behind⟩, List.pairwise_cons.2 ⟨behind, ih.2⟩⟩
  | indent line _ _ ih | dedent line _ _ ih | lastNewline line _ ih | lastDedent line _ _ ih =>
    exact ⟨List.forall_mem_cons.2 ⟨List.suffix_refl _, ih.1⟩, List.pairwise_cons.2 ih⟩
  | written line begins _ ih =>
    refine ⟨List.forall_mem_cons.2 ⟨begins.suffix, ?_⟩, List.pairwise_cons.2 ih⟩
    exact fun m mem => (ih.1 m mem).trans begins.suffix
  | eof line _ =>
    exact ⟨List.forall_mem_singleton.2 (List.suffix_refl _), List.pairwise_singleton ..⟩

/-- There is one `eof`, at the end. -/
theorem ends (laid : Laid depth blocks stage cs marks) :
    ∃ before line, marks = before ++ [⟨⟨.eof, line⟩, []⟩] ∧ ∀ m ∈ before, m.token.kind ≠ .eof := by
  induction laid with
  | blank _ _ ih | comment _ _ _ ih | goesOn _ ih | lineEnd _ _ ih => exact ih
  | newline _ _ ih | indent _ _ _ ih | dedent _ _ _ ih | lastNewline _ _ ih | lastDedent _ _ _ ih =>
    obtain ⟨before, last, rfl, others⟩ := ih
    exact ⟨_ :: before, last, rfl, List.forall_mem_cons.2 ⟨nofun, others⟩⟩
  | written line begins _ ih =>
    obtain ⟨before, last, rfl, others⟩ := ih
    refine ⟨_ :: before, last, rfl, List.forall_mem_cons.2 ⟨?_, others⟩⟩
    rintro rfl
    cases begins.word
  | eof line _ => exact ⟨[], line, rfl, List.forall_mem_nil _⟩

/-- No token closes a block that is not open, and at the end all are closed. -/
theorem balanced (laid : Laid depth blocks stage cs marks) : Balanced blocks (marks.map (·.token)) := by
  induction laid with
  | blank _ _ ih | comment _ _ _ ih | goesOn _ ih | lineEnd _ _ ih => exact ih
  | newline _ _ ih | indent _ _ _ ih | dedent _ _ _ ih | lastNewline _ _ ih | lastDedent _ _ _ ih =>
    exact ih.cons rfl
  | written line begins _ ih => exact ih.word begins.word
  | eof line _ => exact Balanced.nil.cons rfl

/-- What may come where a line has gone on may come at its start. -/
theorem at_start (laid : Laid depth blocks .empty cs marks) : Laid depth blocks .atStart cs marks := by
  generalize empty : Stage.empty = stage at laid
  induction laid with
  | blank white _ ih => exact .blank white (ih empty)
  | comment inside ends _ ih => exact .comment inside ends (ih empty)
  | goesOn behind _ =>
    subst empty
    exact .goesOn behind
  | lineEnd _ behind ih =>
    subst empty
    refine .lineEnd nofun ?_
    split
    · next flat => rwa [if_pos flat] at behind
    · next deep => exact ih (if_neg deep).symm
  | newline | indent | dedent | lastNewline => cases empty
  | written line begins behind _ => exact .written line begins behind
  | lastDedent line _ _ ih => exact .lastDedent line nofun (ih empty)
  | eof line _ => exact .eof line nofun

/-- Where the text is over, only lines and blocks are left to end. -/
theorem finished_marks (laid : Laid depth blocks stage cs marks) (finished : cs = []) :
    ∀ m ∈ marks, m.token.kind.isLayout = true := by
  induction laid with
  | blank | comment | goesOn | lineEnd | newline => cases finished
  | indent _ counts _ _ | dedent _ counts _ _ =>
    subst finished
    obtain ⟨c, mem, -⟩ := counts
    cases mem
  | written line begins _ _ => exact absurd finished begins.ne_nil
  | lastNewline _ _ ih | lastDedent _ _ _ ih => exact List.forall_mem_cons.2 ⟨rfl, ih rfl⟩
  | eof line _ => exact List.forall_mem_singleton.2 rfl

/-- Between a bracket and the one that closes it no line ends, and no block begins or ends. `n` counts the
brackets that are open since, with the bracket itself. -/
theorem inside_brackets (laid : Laid depth blocks stage cs marks) {outer n : Nat} (open_ : depth = outer + n)
    {inside : List TokenKind} {close : TokenKind} {after : List TokenKind}
    (split : marks.map (·.token.kind) = inside ++ close :: after)
    (within : ∀ part, part <+: inside → 0 < depthAfter n part) (closes : depthAfter n (inside ++ [close]) = 0) :
    ∀ kind ∈ inside, kind.isLayout = false := by
  have closing : close.isLayout = false := by
    refine Bool.eq_false_iff.2 fun layout => ?_
    have opened := within inside (List.prefix_refl _)
    rw [depthAfter_append] at closes
    exact Nat.ne_of_gt opened ((depth_of_isLayout layout _).symm.trans closes)
  have not_over {depth blocks : Nat} {stage : Stage} {marks : List Mark} {inside : List TokenKind}
      (laid : Laid depth blocks stage [] marks) (split : marks.map (·.token.kind) = inside ++ close :: after) :
      False := by
    have mem : close ∈ marks.map (·.token.kind) := split ▸ List.mem_append_right _ List.mem_cons_self
    obtain ⟨m, among, rfl⟩ := List.mem_map.1 mem
    rw [laid.finished_marks rfl m among] at closing
    cases closing
  induction laid generalizing n inside with
  | blank _ _ ih | comment _ _ _ ih | goesOn _ ih | lineEnd _ _ ih => exact ih open_ split within closes
  | newline | indent | dedent =>
    have positive : 0 < n := within [] (List.nil_prefix ..)
    omega
  | @written depth _ _ kind _ _ marks line begins _ ih =>
    cases inside with
    | nil => exact List.forall_mem_nil _
    | cons first more =>
      obtain ⟨rfl, behind_split⟩ := List.cons.inj split
      have deeper : kind.depth depth = outer + kind.depth n := by
        have positive : 0 < n := within [] (List.nil_prefix ..)
        rw [open_, kind.depth_add outer positive]
      refine List.forall_mem_cons.2 ⟨begins.word, ih deeper behind_split (fun part started => ?_) closes⟩
      exact within (kind :: part) ((List.prefix_cons_inj kind).2 started)
  | lastNewline line behind => exact (not_over (.lastNewline line behind) split).elim
  | lastDedent line ended behind => exact (not_over (.lastDedent line ended behind) split).elim
  | eof line ended => exact (not_over (@eof 0 _ line ended) split).elim

/-- What is laid out behind the first token. -/
theorem tail {m : Mark} (laid : Laid depth blocks stage cs (m :: marks)) (more : marks ≠ []) :
    ∃ blocks' stage' cs', Laid (m.token.kind.depth depth) blocks' stage' cs' marks := by
  generalize all : m :: marks = both at laid
  induction laid with
  | blank _ _ ih | comment _ _ _ ih | goesOn _ ih | lineEnd _ _ ih => exact ih all
  | newline _ behind _ | indent _ _ behind _ | dedent _ _ behind _ | written _ _ behind _ | lastNewline _ behind _
  | lastDedent _ _ behind _ =>
    cases all
    exact ⟨_, _, _, behind⟩
  | eof line _ =>
    cases all
    exact absurd rfl more

/-- What is laid out behind some of the tokens. -/
theorem behind {before after : List Mark} (laid : Laid depth blocks stage cs (before ++ after)) (more : after ≠ []) :
    ∃ blocks' stage' cs', Laid (depthAfter depth (before.map (·.token.kind))) blocks' stage' cs' after := by
  induction before generalizing depth blocks stage cs with
  | nil => exact ⟨blocks, stage, cs, laid⟩
  | cons m before ih =>
    obtain ⟨_, _, _, laid⟩ := laid.tail (List.append_ne_nil_of_right_ne_nil before more)
    exact ih laid

/-- A `newline` comes only behind a token of a line. -/
theorem newline_behind_word (laid : Laid depth blocks stage cs marks) :
    (stage ≠ .begun → (marks.map (·.token.kind)).head? ≠ some .newline) ∧
      (marks.map (·.token.kind)).IsChain fun last kind => kind = .newline → last.isLayout = false := by
  have settled {kind : TokenKind} {kinds : List TokenKind} (none : kinds.head? ≠ some .newline)
      (chain : kinds.IsChain fun last kind => kind = .newline → last.isLayout = false) :
      (kind :: kinds).IsChain fun last kind => kind = .newline → last.isLayout = false := by
    refine List.isChain_cons.2 ⟨?_, chain⟩
    rintro next first rfl
    exact absurd first none
  induction laid with
  | blank _ _ ih | comment _ _ _ ih => exact ih
  | @goesOn _ _ stage _ _ _ ih =>
    refine ⟨fun empty => ih.1 ?_, ih.2⟩
    cases stage <;> simp_all [Stage.goOn]
  | lineEnd _ _ ih =>
    refine ⟨fun empty => ih.1 ?_, ih.2⟩
    split
    · exact nofun
    · exact empty
  | newline line _ ih | lastNewline line _ ih => exact ⟨fun begun => absurd rfl begun, settled (ih.1 nofun) ih.2⟩
  | indent line _ _ ih | dedent line _ _ ih => exact ⟨nofun, settled (ih.1 nofun) ih.2⟩
  | written line begins _ ih =>
    refine ⟨fun _ first => ?_, List.isChain_cons.2 ⟨fun _ _ _ => begins.word, ih.2⟩⟩
    obtain rfl := Option.some.inj first
    cases begins.word
  | lastDedent line ended _ ih => exact ⟨nofun, settled (ih.1 ended) ih.2⟩
  | eof line _ => exact ⟨nofun, List.isChain_singleton _⟩

end Laid

/-! ### Every scan lays its tokens out -/

namespace Scan

/-- How much of a logical line the scan has read. -/
def stage (s : Scan) : Stage :=
  if s.atLineStart then .atStart
  else
    match s.tokens with
    | [] => .empty
    | last :: _ => if last.kind = .newline ∨ last.kind = .indent ∨ last.kind = .dedent then .empty else .begun

/-- Between two moments of a scan the tokens `made` were read, and what may be laid out behind them goes on with
them. -/
structure Lays (total : Nat) (s : Scan) (made : List Mark) (t : Scan) : Prop where
  tokens : t.tokens = (made.map (·.token)).reverse ++ s.tokens
  lines : ∀ m ∈ made, m.token.line + newlines m.rest = total
  laid : ∀ marks, Laid t.depth t.indents.length t.stage t.rest marks →
    Laid s.depth s.indents.length s.stage s.rest (made ++ marks)

namespace Lays

variable {total : Nat} {s t u : Scan} {made more : List Mark}

theorem trans (first : Lays total s made t) (second : Lays total t more u) : Lays total s (made ++ more) u where
  tokens := by
    rw [second.tokens, first.tokens, List.map_append, List.reverse_append, List.append_assoc]
  lines := List.forall_mem_append.2 ⟨first.lines, second.lines⟩
  laid marks laid := by
    rw [List.append_assoc]
    exact first.laid _ (second.laid marks laid)

/-- Something that makes no token. -/
theorem skip (same : t.tokens = s.tokens) (laid : ∀ marks, Laid t.depth t.indents.length t.stage t.rest marks →
    Laid s.depth s.indents.length s.stage s.rest marks) : Lays total s [] t :=
  ⟨same, List.forall_mem_nil _, laid⟩

/-- A token that is written in the text. -/
theorem written {kind : TokenKind} {rest : List Char} {line : Nat} (inside : s.atLineStart = false)
    (begins : kind.Begins s.rest rest) (counted : line + newlines rest = total)
    (same : t = { s with rest, line, depth := kind.depth s.depth, tokens := ⟨kind, line⟩ :: s.tokens }) :
    Lays total s [⟨⟨kind, line⟩, rest⟩] t where
  tokens := by
    rw [same]
    rfl
  lines := List.forall_mem_singleton.2 counted
  laid marks laid := by
    have begun : t.stage = .begun := by
      have word := begins.word
      rw [same]
      unfold stage
      simp only [inside, Bool.false_eq_true, if_false]
      refine if_neg ?_
      rintro (rfl | rfl | rfl) <;> cases word
    rw [begun, same] at laid
    exact .written line begins laid

end Lays

/-- The stage of a scan that is not at the start of a line. -/
theorem stage_inside {s : Scan} (inside : s.atLineStart = false) :
    (Settled s.tokens ∧ s.stage = .empty) ∨ (¬Settled s.tokens ∧ s.stage = .begun) := by
  unfold stage
  rw [if_neg (by simp [inside])]
  cases tokens : s.tokens with
  | nil => exact .inl ⟨trivial, rfl⟩
  | cons last older =>
    by_cases settled : last.kind = .newline ∨ last.kind = .indent ∨ last.kind = .dedent
    · exact .inl ⟨settled, if_pos settled⟩
    · exact .inr ⟨settled, if_neg settled⟩

variable {total : Nat} {oldest : List Token} {s t : Scan}

theorem eq_of_readSymbol? {cs rest : List Char} {symbols : List Symbol} {symbol : Symbol}
    (h : readSymbol? cs symbols = some (symbol, rest)) : cs = symbol.text.toList ++ rest := by
  induction symbols with
  | nil => cases h
  | cons first symbols ih =>
    rw [readSymbol?] at h
    split at h
    · next found =>
      cases h
      exact afterPiece_eq_some_iff.1 found
    · exact ih h

theorem takeName_lays (sound : Sound total oldest s) (inside : s.atLineStart = false) {c : Char} {tail : List Char}
    (begins : s.rest = c :: tail) (start : isNameStart c = true) (h : s.takeName = .ok t) :
    ∃ made, Lays total s made t := by
  have counted := (sound.takeName inside h).lines
  have first : isNamePart c = true := isNamePart_of_isNameStart start
  have taken : s.rest.takeWhile isNamePart = c :: tail.takeWhile isNamePart := by
    rw [begins, List.takeWhile_cons, if_pos first]
  have all : s.rest = c :: (tail.takeWhile isNamePart ++ s.rest.dropWhile isNamePart) := by
    rw [← List.cons_append, ← taken, List.takeWhile_append_dropWhile]
  have parts : (tail.takeWhile isNamePart).all isNamePart = true := List.all_takeWhile
  -- A letter that says how to read the string literal behind it is all of the name.
  have prefixed {letter : Char} (alone : s.rest.takeWhile isNamePart = [letter]) :
      s.rest = letter :: s.rest.dropWhile isNamePart := by
    rw [← List.singleton_append, ← alone, List.takeWhile_append_dropWhile]
  cases named_of_takeNamed h with
  | alone =>
    have written : (TokenKind.name (String.ofList (s.rest.takeWhile isNamePart))).Begins s.rest
        (s.rest.dropWhile isNamePart) := by
      rw [taken]
      nth_rewrite 1 [all]
      exact .name start parts _
    exact ⟨_, .written inside written counted rfl⟩
  | template letter behind quote took =>
    obtain ⟨p, read, rfl⟩ := takeString_ok took
    have quoted : Quoted false (s.rest.dropWhile isNamePart) p := ⟨⟨_, _, behind, quote⟩, _, rfl, read⟩
    have written : (TokenKind.template p.value).Begins s.rest p.rest := by
      rcases letter with alone | alone
      · rw [prefixed alone]
        exact .template (.inl rfl) quoted
      · rw [prefixed alone]
        exact .template (.inr rfl) quoted
    exact ⟨_, .written inside written counted rfl⟩
  | rawStr letter behind quote took =>
    obtain ⟨p, read, rfl⟩ := takeString_ok took
    have quoted : Quoted true (s.rest.dropWhile isNamePart) p := ⟨⟨_, _, behind, quote⟩, _, rfl, read⟩
    have written : (TokenKind.str p.value).Begins s.rest p.rest := by
      rcases letter with alone | alone
      · rw [prefixed alone]
        exact .rawStr (.inl rfl) quoted
      · rw [prefixed alone]
        exact .rawStr (.inr rfl) quoted
    exact ⟨_, .written inside written counted rfl⟩

/-- A comment reaches up to the end of its line. -/
theorem laid_comment {depth blocks : Nat} {stage : Stage} {tail : List Char} {marks : List Mark}
    (laid : Laid depth blocks stage (dropComment tail) marks) : Laid depth blocks stage ('#' :: tail) marks := by
  have all : tail = tail.takeWhile (· ≠ '\n') ++ dropComment tail := (List.takeWhile_append_dropWhile ..).symm
  rw [all]
  refine .comment (fun mem => ?_) (fun c rest same => ?_) laid
  · have other := List.all_eq_true.1 List.all_takeWhile _ mem
    simp at other
  · have stops := List.head?_dropWhile_not (· ≠ '\n') tail
    rw [show tail.dropWhile (· ≠ '\n') = c :: rest from same] at stops
    simpa using stops

theorem endLine_of_unsettled {s : Scan} (unsettled : ¬Settled s.tokens) : s.endLine = s.push .newline := by
  unfold endLine
  cases tokens : s.tokens with
  | nil => exact absurd (tokens ▸ trivial) unsettled
  | cons last older =>
    rw [tokens] at unsettled
    exact if_neg unsettled

/-- A line end makes a `newline` outside of brackets, behind a token of the line. -/
theorem passLineEnd_lays (sound : Sound total oldest s) (inside : s.atLineStart = false) {tail : List Char}
    (begins : s.rest = '\n' :: tail) :
    ∃ made, Lays total s made ({ s with rest := tail } : Scan).passLineEnd := by
  unfold passLineEnd
  split
  · next flat =>
    have flat : s.depth = 0 := flat
    obtain ⟨settled, stage⟩ | ⟨unsettled, stage⟩ := stage_inside inside
    · have still : Settled ({ s with rest := tail } : Scan).tokens := settled
      rw [endLine_of_settled still]
      refine ⟨[], .skip rfl fun marks laid => ?_⟩
      rw [begins, stage]
      refine .lineEnd nofun ?_
      rw [if_pos flat]
      exact laid
    · have unsettled : ¬Settled ({ s with rest := tail } : Scan).tokens := unsettled
      rw [endLine_of_unsettled unsettled]
      refine ⟨[⟨⟨.newline, s.line⟩, s.rest⟩], rfl, List.forall_mem_singleton.2 sound.lines, fun marks laid => ?_⟩
      rw [begins, stage, flat]
      refine .newline s.line ?_
      rw [← flat]
      exact laid
  · next deep =>
    refine ⟨[], .skip rfl fun marks laid => ?_⟩
    rw [begins]
    refine .lineEnd (fun flat => absurd flat deep) ?_
    rw [if_neg deep]
    exact laid

theorem takeToken_lays (sound : Sound total oldest s) (inside : s.atLineStart = false) {c : Char} {tail : List Char}
    (begins : s.rest = c :: tail) (h : s.takeToken c tail = .ok t) : ∃ made, Lays total s made t := by
  have counted := (sound.takeToken inside begins h).lines
  cases taken_of_takeToken h with
  | lineEnd => exact passLineEnd_lays sound inside begins
  | blank _ white =>
    refine ⟨[], .skip rfl fun marks laid => ?_⟩
    rw [begins]
    refine .blank ?_ laid
    rcases white with rfl | rfl | rfl <;> rfl
  | comment =>
    refine ⟨[], .skip rfl fun marks laid => ?_⟩
    rw [begins]
    exact laid_comment laid
  | goesOn =>
    refine ⟨[], .skip rfl fun marks laid => ?_⟩
    have same : s.stage.goOn = s.stage := by
      obtain ⟨-, stage⟩ | ⟨-, stage⟩ := stage_inside inside <;> rw [stage] <;> rfl
    rw [begins]
    refine .goesOn ?_
    rw [same]
    exact laid
  | number starts took =>
    obtain ⟨kind, rest, read, rfl⟩ := takeNumber_ok took
    have written : kind.Begins s.rest rest := by
      rw [begins] at read ⊢
      exact .number starts read
    refine ⟨_, .written inside written counted ?_⟩
    rw [(plain_of_readNumber read).depth]
    rfl
  | string quote took =>
    obtain ⟨p, read, rfl⟩ := takeString_ok took
    have quoted : Quoted false s.rest p := ⟨⟨c, tail, begins, quote⟩, s, rfl, read⟩
    exact ⟨_, .written inside (.str quoted) counted rfl⟩
  | name start took => exact takeName_lays sound inside begins start took
  | symbol took =>
    obtain ⟨symbol, rest, read, rfl⟩ := takeSymbol_ok took
    have written : (TokenKind.symbol symbol).Begins s.rest rest := by
      rw [eq_of_readSymbol? read]
      exact .symbol symbol rest
    exact ⟨_, .written inside written counted rfl⟩

/-! The start of a line. -/

theorem laid_leadingWidth {depth blocks : Nat} {stage : Stage} (width : Nat) {cs : List Char} {marks : List Mark}
    (laid : Laid depth blocks stage (leadingWidth width cs).2 marks) : Laid depth blocks stage cs marks := by
  fun_induction leadingWidth width cs with
  | case1 _ _ ih | case2 _ _ ih | case3 _ _ ih => exact .blank rfl (ih laid)
  | case4 => exact laid

theorem head_leadingWidth (width : Nat) (cs : List Char) :
    ∀ c ∈ (leadingWidth width cs).2.head?, isInlineBlank c = false := by
  fun_induction leadingWidth width cs with
  | case1 _ _ ih | case2 _ _ ih | case3 _ _ ih => exact ih
  | case4 width cs space tab back =>
    intro c first
    obtain ⟨tail, rfl⟩ := List.head?_eq_some_iff.1 first
    have other (d : Char) (blank : ∀ tail', c :: tail = d :: tail' → False) : c ≠ d := fun same =>
      blank tail (same ▸ rfl)
    simp only [isInlineBlank, other ' ' space, other '\t' tab, other '\r' back, decide_false, Bool.or_self]

theorem settled_closeBlocks {width : Nat} {widths : List Nat} (settled : Settled s.tokens) :
    Settled (closeBlocks width s widths).tokens := by
  induction widths generalizing s with
  | nil => exact settled
  | cons inner outer ih =>
    rw [closeBlocks]
    split
    · exact ih (.inr (.inr rfl))
    · exact settled

/-- The scan, still at the start of a line. -/
def atStart (s : Scan) : Scan := { s with atLineStart := true }

theorem closeBlocks_lays (width : Nat) (flat : s.depth = 0) (counts : Counts s.rest)
    (counted : s.line + newlines s.rest = total) (widths : List Nat) :
    ∃ made, Lays total ({ s with indents := widths } : Scan).atStart made (closeBlocks width s widths).atStart := by
  induction widths generalizing s with
  | nil => exact ⟨[], .skip rfl fun _ laid => laid⟩
  | cons inner outer ih =>
    rw [closeBlocks]
    split
    · obtain ⟨made, behind⟩ := @ih (s.push .dedent) flat counts counted
      have closed : Lays total ({ s with indents := inner :: outer } : Scan).atStart
          [⟨⟨.dedent, s.line⟩, s.rest⟩] ({ s.push .dedent with indents := outer } : Scan).atStart := by
        refine ⟨rfl, List.forall_mem_singleton.2 counted, fun marks laid => ?_⟩
        simp only [atStart, push, stage, if_true, flat] at laid ⊢
        exact .dedent s.line counts laid
      exact ⟨_, closed.trans behind⟩
    · exact ⟨[], .skip rfl fun _ laid => laid⟩

/-- Blocks are opened and closed in front of a line that counts. -/
theorem indentTo_lays {width : Nat} (flat : s.depth = 0) (settled : Settled s.tokens) (counts : Counts s.rest)
    (counted : s.line + newlines s.rest = total) (inside : s.atLineStart = false) (h : indentTo width s = .ok t) :
    ∃ made, Lays total s.atStart made t := by
  have inside_t : t.atLineStart = false := (Sound.indentTo_atLineStart h).trans inside
  have empty (settled : Settled t.tokens) : t.stage = .empty :=
    (stage_inside inside_t).elim And.right fun unsettled => absurd settled unsettled.1
  unfold indentTo at h
  dsimp only at h
  split at h
  · cases h
    refine ⟨[⟨⟨.indent, s.line⟩, s.rest⟩], rfl, List.forall_mem_singleton.2 counted, fun marks laid => ?_⟩
    rw [empty (.inr (.inl rfl))] at laid
    simp only [atStart, push, stage, if_true, flat] at laid ⊢
    exact .indent s.line counts laid
  · split at h
    · cases h
      obtain ⟨made, closed⟩ := closeBlocks_lays width flat counts counted s.indents
      have ended : Lays total (closeBlocks width s s.indents).atStart [] (closeBlocks width s s.indents) := by
        refine .skip rfl fun marks laid => ?_
        rw [empty (settled_closeBlocks settled)] at laid
        exact laid.at_start
      exact ⟨_, closed.trans ended⟩
    · cases h

theorem takeLineStart_lays (sound : Sound total oldest s) (start : s.atLineStart = true)
    (h : s.takeLineStart = .ok t) : ∃ made, Lays total s made t := by
  obtain ⟨flat, settled⟩ := sound.start start
  have stage_s : s.stage = .atStart := if_pos start
  have blank (marks : List Mark) (laid : Laid s.depth s.indents.length .atStart (leadingWidth 0 s.rest).2 marks) :
      Laid s.depth s.indents.length s.stage s.rest marks := by
    rw [stage_s]
    exact laid_leadingWidth 0 laid
  have visible := head_leadingWidth 0 s.rest
  cases begun_of_takeLineStart h with
  | nothing white =>
    refine ⟨[], .skip rfl fun marks laid => blank marks ?_⟩
    rw [white, ← stage_s]
    exact laid
  | lineEnd white =>
    refine ⟨[], .skip rfl fun marks laid => blank marks ?_⟩
    rw [white]
    refine .lineEnd nofun ?_
    rw [if_pos flat, ← stage_s]
    exact laid
  | comment white =>
    refine ⟨[], .skip rfl fun marks laid => blank marks ?_⟩
    rw [white, ← stage_s]
    exact laid_comment laid
  | @counts _ c tail _ _ white no_line_end no_comment indented took =>
    rw [white] at blank visible
    have entered := sound.enter white
    have counts : Counts (c :: tail) := ⟨c, rfl, visible c rfl, no_line_end, no_comment⟩
    obtain ⟨opened, lays_opened⟩ := indentTo_lays (s := { s with rest := c :: tail, atLineStart := false })
      flat settled counts entered.lines rfl indented
    obtain ⟨made, lays⟩ := takeToken_lays (entered.indentTo indented) (Sound.indentTo_atLineStart indented)
      (indentTo_rest indented) took
    have passed : Lays total s [] ({ s with rest := c :: tail, atLineStart := false } : Scan).atStart :=
      .skip rfl fun marks laid => blank marks laid
    exact ⟨_, passed.trans (lays_opened.trans lays)⟩

theorem step_lays (sound : Sound total oldest s) (h : s.step = .ok t) : ∃ made, Lays total s made t := by
  unfold step at h
  split at h
  · next start => exact takeLineStart_lays sound start.1 h
  · next not_start =>
    have inside : s.atLineStart = false :=
      Bool.eq_false_iff.2 fun start => not_start ⟨start, (sound.start start).1⟩
    split at h
    · cases h
      exact ⟨[], .skip rfl fun _ laid => laid⟩
    · next begins => exact takeToken_lays sound inside begins h

/-- What the end of the text makes: the open blocks are closed, and it ends. -/
def lastMarks (line : Nat) (widths : List Nat) : List Mark :=
  widths.map (fun _ => ⟨⟨.dedent, line⟩, []⟩) ++ [⟨⟨.eof, line⟩, []⟩]

theorem laid_lastMarks {depth : Nat} {stage : Stage} (ended : stage ≠ .begun) (line : Nat) (widths : List Nat) :
    Laid depth widths.length stage [] (lastMarks line widths) := by
  induction widths with
  | nil => exact .eof line ended
  | cons width widths ih => exact .lastDedent line ended ih

theorem finish_lays (sound : Sound total oldest s) (finished : s.rest = []) :
    ∃ marks : List Mark, s.finish = s.tokens.reverse ++ marks.map (·.token) ∧
      Laid s.depth s.indents.length s.stage s.rest marks ∧ ∀ m ∈ marks, m.token.line + newlines m.rest = total := by
  have counted : s.line + newlines [] = total := finished ▸ sound.lines
  have last : ∀ m ∈ lastMarks s.line s.indents, m.token.line + newlines m.rest = total := by
    refine List.forall_mem_append.2 ⟨fun m mem => ?_, List.forall_mem_singleton.2 counted⟩
    obtain ⟨_, -, rfl⟩ := List.mem_map.1 mem
    exact counted
  have tokens : (lastMarks s.line s.indents).map (·.token) = closings s.line s.indents ++ [⟨.eof, s.line⟩] := by
    simp only [lastMarks, closings, List.map_append, List.map_map, List.map_cons, List.map_nil]
    rfl
  have settled_or : Settled s.tokens ∧ s.stage ≠ .begun ∨ ¬Settled s.tokens ∧ s.stage = .begun := by
    cases start : s.atLineStart with
    | true => exact .inl ⟨(sound.start start).2, by simp [stage, start]⟩
    | false => exact (stage_inside start).imp_left (And.imp_right fun empty => by simp [empty])
  rw [finish_eq, finished]
  obtain ⟨settled, ended⟩ | ⟨unsettled, begun⟩ := settled_or
  · refine ⟨lastMarks s.line s.indents, ?_, laid_lastMarks ended s.line s.indents, last⟩
    rw [endLine_of_settled settled, tokens, List.append_assoc]
  · refine ⟨⟨⟨.newline, s.line⟩, []⟩ :: lastMarks s.line s.indents, ?_, ?_, List.forall_mem_cons.2 ⟨counted, last⟩⟩
    · rw [endLine_of_unsettled unsettled, List.map_cons, tokens, push, List.reverse_cons]
      simp only [List.append_assoc, List.cons_append, List.nil_append]
    · rw [begun]
      exact .lastNewline s.line (laid_lastMarks (show Stage.empty ≠ .begun by rintro ⟨⟩) s.line s.indents)

theorem run_lays (sound : Sound total oldest s) {tokens : List Token} (h : s.run = .ok tokens) :
    ∃ marks : List Mark, tokens = s.tokens.reverse ++ marks.map (·.token) ∧
      Laid s.depth s.indents.length s.stage s.rest marks ∧ ∀ m ∈ marks, m.token.line + newlines m.rest = total := by
  induction s using run.induct with
  | case1 s finished =>
    rw [run_of_rest finished] at h
    cases h
    exact finish_lays sound finished
  | case2 s more t turn _ ih =>
    rw [run_of_step more turn] at h
    obtain ⟨made, lays⟩ := step_lays sound turn
    obtain ⟨marks, rfl, laid, lines⟩ := ih (sound.step turn) h
    refine ⟨made ++ marks, ?_, lays.laid marks laid, List.forall_mem_append.2 ⟨lays.lines, lines⟩⟩
    rw [lays.tokens, List.reverse_append, List.reverse_reverse, List.map_append, List.append_assoc]
  | case3 s more e failed =>
    obtain ⟨t, turn, -⟩ := step_of_run more h
    rw [turn] at failed
    cases failed

end Scan

/-- How the tokens of a text follow one another. -/
structure WellFormed (tokens : List Token) : Prop where
  ends : ∃ before line, tokens = before ++ [⟨.eof, line⟩] ∧ ∀ t ∈ before, t.kind ≠ .eof
  /-- No `dedent` comes without an `indent` before it, and there are as many of both. -/
  balanced : Balanced 0 tokens
  first : (tokens.map (·.kind)).head? ≠ some .newline
  /-- No `newline` comes directly behind another one, an `indent` or a `dedent`. -/
  newlines : (tokens.map (·.kind)).IsChain fun last kind => kind = .newline → last.isLayout = false
  /-- Between a bracket and the one with which no bracket is open any more since then. -/
  brackets : ∀ before opening inside close after,
    tokens.map (·.kind) = before ++ .symbol opening :: inside ++ close :: after → opening.opens = true →
    (∀ part, part <+: inside → 0 < depthAfter 1 part) → depthAfter 1 (inside ++ [close]) = 0 →
    ∀ kind ∈ inside, kind.isLayout = false
  lines : tokens.Pairwise fun s t => s.line ≤ t.line

/-- The tokens of a text are laid out over it by the rules of `Laid`, and each is on the line where it ends: one
more than there are line ends before. A `newline` stands before the line end that it is for. -/
theorem tokenize_laid {source : String} {tokens : List Token} (h : tokenize source = .ok tokens) :
    WellFormed tokens ∧ ∃ marks, marks.map (·.token) = tokens ∧ Laid 0 0 .atStart source.toList marks ∧
      ∀ m ∈ marks, ∃ before, source.toList = before ++ m.rest ∧ m.token.line = 1 + newlines before := by
  obtain ⟨marks, same, laid, lines⟩ := Scan.run_lays (Scan.Sound.begin source) h
  obtain rfl : tokens = marks.map (·.token) := same
  have laid : Laid 0 0 .atStart source.toList marks := laid
  have kinds : (marks.map (·.token)).map (·.kind) = marks.map (·.token.kind) := List.map_map
  refine ⟨⟨?_, laid.balanced, ?_, ?_, ?_, ?_⟩, marks, rfl, laid, fun m mem => ?_⟩
  · obtain ⟨before, line, rfl, others⟩ := laid.ends
    refine ⟨before.map (·.token), line, List.map_append, fun t mem => ?_⟩
    obtain ⟨m, among, rfl⟩ := List.mem_map.1 mem
    exact others m among
  · rw [kinds]
    exact laid.newline_behind_word.1 nofun
  · rw [kinds]
    exact laid.newline_behind_word.2
  · intro before opening inside close after split opens within closes
    rw [kinds, List.append_assoc] at split
    obtain ⟨_, ms, rfl, rfl, from_opening⟩ := List.map_eq_append_iff.1 split
    obtain ⟨m, ms, rfl, opening_kind, behind⟩ := List.map_eq_cons_iff.1 from_opening
    obtain ⟨_, _, _, laid_opening⟩ := laid.behind (List.cons_ne_nil _ _)
    have more : ms ≠ [] := by
      rintro rfl
      cases inside <;> cases behind
    obtain ⟨_, _, _, laid_inside⟩ := laid_opening.tail more
    have deeper (depth : Nat) : m.token.kind.depth depth = depth + 1 := by
      rw [opening_kind]
      exact if_pos opens
    exact laid_inside.inside_brackets (deeper _) behind within closes
  · refine List.pairwise_map.2 (laid.suffixes.2.imp_of_mem fun {m n} among_m among_n behind => ?_)
    have fewer : newlines n.rest ≤ newlines m.rest := behind.sublist.count_le '\n'
    have line_m := lines m among_m
    have line_n := lines n among_n
    omega
  · obtain ⟨before, all⟩ := laid.suffixes.1 m mem
    refine ⟨before, all.symm, ?_⟩
    have counted := lines m mem
    rw [← all, newlines_append] at counted
    omega

/-- A block, a bracket over two lines, a comment, an empty line and a string literal over two lines. -/
theorem tokenize_laid_of_block :
    let tokens : List Token := [⟨.name "if", 1⟩, ⟨.name "a", 1⟩, ⟨.symbol .colon, 1⟩, ⟨.newline, 1⟩, ⟨.indent, 2⟩,
      ⟨.symbol .openBracket, 2⟩, ⟨.name "b", 2⟩, ⟨.symbol .comma, 2⟩, ⟨.name "c", 3⟩, ⟨.symbol .closeBracket, 3⟩,
      ⟨.newline, 3⟩, ⟨.dedent, 5⟩, ⟨.str "d\ne", 6⟩, ⟨.newline, 6⟩, ⟨.eof, 6⟩]
    tokenize "if a:\n\t[b,\n c] # d\n\n'''d\ne'''" = .ok tokens ∧ WellFormed tokens := by
  intro tokens
  have read : tokenize "if a:\n\t[b,\n c] # d\n\n'''d\ne'''" = .ok tokens := by decide +kernel
  exact ⟨read, (tokenize_laid read).1⟩

end SnippetKernel.Source
