import SnippetKernel.Number.Reading
import SnippetKernel.Source.Token
import SnippetKernel.Text.Blank
import SnippetKernel.Text.Letter
import SnippetKernel.Text.Search

/-! From text to tokens. `Scan.step` reads from the front of the text one token, or one stretch that
makes no token; it always takes at least one character (`Scan.step_shorter`), so `Scan.run` ends. -/
namespace SnippetKernel.Source

open Text

/-- What has been read of a text, and what is left of it. -/
structure Scan where
  rest : List Char
  line : Nat
  /-- Brackets that are open. -/
  depth : Nat
  /-- The widths of the open blocks, innermost first. -/
  indents : List Nat
  /-- The tokens read so far, last one first. -/
  tokens : List Token
  atLineStart : Bool

/-- A piece of text that was read, what follows it, and the line reached. -/
structure Piece (α : Type) where
  value : α
  rest : List Char
  line : Nat

def tabStop (width : Nat) : Nat := (width / 8 + 1) * 8

/-- The width of the white space in front of a line, and what follows it. -/
def leadingWidth (width : Nat) : List Char → Nat × List Char
  | ' ' :: rest => leadingWidth (width + 1) rest
  | '\t' :: rest => leadingWidth (tabStop width) rest
  | '\r' :: rest => leadingWidth width rest
  | rest => (width, rest)

theorem leadingWidth_length (width : Nat) (cs : List Char) :
    (leadingWidth width cs).2.length ≤ cs.length := by
  fun_induction leadingWidth width cs <;> simp_all <;> omega

def dropComment (cs : List Char) : List Char := cs.dropWhile (· ≠ '\n')

/-- A character given by `digits` of base sixteen. -/
def escapedCode (digits : List Char) (line : Nat) : Except SyntaxError Char :=
  match (unsigned? 16 digits).bind charOfCode? with
  | some c => .ok c
  | none => .error ⟨"invalid escape sequence", line⟩

/-- The characters that a backslash and the given letter stand for, unless the letter announces a code
or the line goes on. -/
def simpleEscape : Char → List Char
  | 'n' => ['\n']
  | 't' => ['\t']
  | 'r' => ['\r']
  | '0' => ['\x00']
  | '\\' => ['\\']
  | '\'' => ['\'']
  | '"' => ['"']
  | c => ['\\', c]

def unterminated (line : Nat) : SyntaxError := ⟨"unterminated string literal", line⟩

/-- Reads a string literal after its opening quotes, up to and with the closing quotes `close`.
`start` is the line it began on, `done` what it holds so far, last character first. -/
def readString (close : List Char) (multiline : Bool) (start line : Nat) (done : List Char) :
    List Char → Except SyntaxError (Piece String)
  | [] => .error (unterminated start)
  | c :: rest =>
    match afterPiece close (c :: rest) with
    | some after => .ok ⟨String.ofList done.reverse, after, line⟩
    | none =>
      if c = '\n' then
        if multiline then readString close multiline start (line + 1) ('\n' :: done) rest
        else .error (unterminated start)
      else if c = '\\' then
        match rest with
        | [] => .error (unterminated start)
        | '\n' :: rest => readString close multiline start (line + 1) done rest
        | 'u' :: a :: b :: c :: d :: rest =>
          match escapedCode [a, b, c, d] line with
          | .ok e => readString close multiline start line (e :: done) rest
          | .error e => .error e
        | 'x' :: a :: b :: rest =>
          match escapedCode [a, b] line with
          | .ok e => readString close multiline start line (e :: done) rest
          | .error e => .error e
        | e :: rest =>
          if e = 'u' ∨ e = 'x' then .error ⟨"truncated escape sequence", line⟩
          else readString close multiline start line ((simpleEscape e).reverse ++ done) rest
      else readString close multiline start line (c :: done) rest

theorem readString_length {close : List Char} {multiline : Bool} {start line : Nat}
    {done cs : List Char} {p : Piece String}
    (h : readString close multiline start line done cs = .ok p) : p.rest.length ≤ cs.length := by
  fun_induction readString close multiline start line done cs
  case case2 found =>
    cases h
    simp only [length_of_afterPiece found]
    omega
  all_goals first
    | contradiction
    | next ih =>
      have := ih h
      simp only [List.length_cons] at this ⊢
      omega

/-- Reads a string literal in which a backslash is a character like any other. -/
def readRaw (close : List Char) (multiline : Bool) (start line : Nat) (done : List Char) :
    List Char → Except SyntaxError (Piece String)
  | [] => .error (unterminated start)
  | c :: rest =>
    match afterPiece close (c :: rest) with
    | some after => .ok ⟨String.ofList done.reverse, after, line⟩
    | none =>
      if c = '\n' then
        if multiline then readRaw close multiline start (line + 1) ('\n' :: done) rest
        else .error (unterminated start)
      else readRaw close multiline start line (c :: done) rest

theorem readRaw_length {close : List Char} {multiline : Bool} {start line : Nat}
    {done cs : List Char} {p : Piece String}
    (h : readRaw close multiline start line done cs = .ok p) : p.rest.length ≤ cs.length := by
  fun_induction readRaw close multiline start line done cs
  case case2 found =>
    cases h
    simp only [length_of_afterPiece found]
    omega
  all_goals first
    | contradiction
    | next ih =>
      have := ih h
      simp only [List.length_cons] at this ⊢
      omega

/-- The quotes a string literal ends with, whether it may span lines, and its text after the opening
quotes; `cs` starts with a quote. -/
def openQuotes : List Char → List Char × Bool × List Char
  | a :: b :: c :: rest => if a = b ∧ a = c then ([a, b, c], true, rest) else ([a], false, b :: c :: rest)
  | a :: rest => ([a], false, rest)
  | [] => ([], false, [])

theorem openQuotes_length (c : Char) (cs : List Char) :
    (openQuotes (c :: cs)).2.2.length ≤ cs.length := by
  unfold openQuotes
  split
  · split <;> simp_all
    omega
  · simp_all
  · simp_all

def isQuote (c : Char) : Bool := c == '"' || c == '\''

/-- A sign in front of a text, and the text after it. -/
def readSign : List Char → List Char × List Char
  | '+' :: rest => (['+'], rest)
  | '-' :: rest => (['-'], rest)
  | rest => ([], rest)

theorem readSign_length (cs : List Char) : (readSign cs).2.length ≤ cs.length := by
  unfold readSign
  split <;> simp

/-- The signed digits after the letter of an exponent, and what follows them. -/
def readExponent? (cs : List Char) : Option (List Char × List Char) :=
  let (sign, rest) := readSign cs
  if (rest.takeWhile Char.isDigit).isEmpty then none
  else some (sign ++ rest.takeWhile Char.isDigit, rest.dropWhile Char.isDigit)

theorem readExponent?_length {cs exponent rest : List Char}
    (h : readExponent? cs = some (exponent, rest)) : rest.length ≤ cs.length := by
  simp only [readExponent?] at h
  split at h
  · cases h
  · cases h
    exact Nat.le_trans (length_dropWhile_le _ _) (readSign_length cs)

/-- Reads a decimal number: digits and underscores, one point that no other point follows, one
exponent. The result says whether it is a floating point number, and holds its text without the
underscores, last character first. -/
def readDecimal (float : Bool) (done : List Char) : List Char → Bool × List Char × List Char
  | [] => (float, done, [])
  | c :: rest =>
    if c.isDigit then readDecimal float (c :: done) rest
    else if c = '_' then readDecimal float done rest
    else if c = '.' ∧ !float ∧ rest.head? ≠ some '.' then readDecimal true (c :: done) rest
    else if c = 'e' ∨ c = 'E' then
      match readExponent? rest with
      | some (exponent, after) => (true, exponent.reverse ++ c :: done, after)
      | none => (float, done, c :: rest)
    else (float, done, c :: rest)

theorem readDecimal_length (float : Bool) (done cs : List Char) :
    (readDecimal float done cs).2.2.length ≤ cs.length := by
  fun_induction readDecimal float done cs
  case case5 found =>
    have := readExponent?_length found
    simp only [List.length_cons]
    omega
  all_goals simp_all <;> omega

def radixOf? : Char → Option Nat
  | 'x' | 'X' => some 16
  | 'o' | 'O' => some 8
  | 'b' | 'B' => some 2
  | _ => none

def isRadixDigit (c : Char) : Bool := c.isAlphanum || c == '_'

/-- Reads a number in base `radix`, after the letter that says so. -/
def readRadix (radix line : Nat) (cs : List Char) : Except SyntaxError (TokenKind × List Char) :=
  let digits := (cs.takeWhile isRadixDigit).filter (· ≠ '_')
  match (natOfDigits? radix digits).bind (narrow? ·) with
  | some i => .ok (.int i, cs.dropWhile isRadixDigit)
  | none => .error ⟨"invalid integer literal", line⟩

/-- Reads a number in decimal notation. -/
def readNumeral (line : Nat) (cs : List Char) : Except SyntaxError (TokenKind × List Char) :=
  match readDecimal false [] cs with
  | (true, reversed, rest) =>
    match decimal? reversed.reverse with
    | some d => .ok (.float d, rest)
    | none => .error ⟨"invalid float literal", line⟩
  | (false, reversed, rest) =>
    match (natOfDigits? 10 reversed.reverse).bind (narrow? ·) with
    | some i => .ok (.int i, rest)
    | none => .error ⟨"integer literal too large (integers are 64-bit)", line⟩

/-- Reads a number; the text starts with a digit, or with a point and a digit. -/
def readNumber (line : Nat) : List Char → Except SyntaxError (TokenKind × List Char)
  | '0' :: letter :: rest =>
    match radixOf? letter with
    | some radix => readRadix radix line rest
    | none => readNumeral line ('0' :: letter :: rest)
  | cs => readNumeral line cs

/-- A number is announced by a digit, or by a point before a digit. -/
def startsNumber (c : Char) (tail : List Char) : Bool :=
  c.isDigit || (c == '.' && tail.head?.any Char.isDigit)

theorem readDecimal_shorter {c : Char} {tail : List Char} (h : startsNumber c tail = true) :
    (readDecimal false [] (c :: tail)).2.2.length ≤ tail.length := by
  rw [readDecimal]
  split
  · exact readDecimal_length ..
  · next not_digit =>
    simp only [startsNumber, not_digit, Bool.false_or, Bool.and_eq_true, beq_iff_eq] at h
    obtain ⟨rfl, digit⟩ := h
    have other : tail.head? ≠ some '.' := by
      intro point
      rw [point] at digit
      simp at digit
    simp only [other, ne_eq, not_false_eq_true, and_self, Bool.not_false, if_true,
      if_neg (show '.' ≠ '_' by decide)]
    exact readDecimal_length ..

theorem readNumeral_shorter {line : Nat} {c : Char} {tail rest : List Char} {kind : TokenKind}
    (start : startsNumber c tail = true) (h : readNumeral line (c :: tail) = .ok (kind, rest)) :
    rest.length ≤ tail.length := by
  have shorter := readDecimal_shorter start
  unfold readNumeral at h
  split at h <;> split at h <;> cases h <;> simp_all

theorem readNumber_shorter {line : Nat} {c : Char} {tail rest : List Char} {kind : TokenKind}
    (start : startsNumber c tail = true) (h : readNumber line (c :: tail) = .ok (kind, rest)) :
    rest.length ≤ tail.length := by
  unfold readNumber at h
  split at h
  · next letter after same =>
    obtain ⟨rfl, rfl⟩ := List.cons.inj same
    split at h
    · next radix _ =>
      unfold readRadix at h
      dsimp only at h
      split at h <;> cases h
      exact Nat.le_trans (length_dropWhile_le _ _) (Nat.le_succ _)
    · exact readNumeral_shorter start h
  · exact readNumeral_shorter start h

/-- The first symbol of `symbols` that the text starts with, and what follows it. -/
def readSymbol? (cs : List Char) : List Symbol → Option (Symbol × List Char)
  | [] => none
  | s :: symbols =>
    match afterPiece s.text.toList cs with
    | some rest => some (s, rest)
    | none => readSymbol? cs symbols

theorem Symbol.text_ne_nil (s : Symbol) : 0 < s.text.toList.length := by cases s <;> decide

theorem readSymbol?_shorter {c : Char} {tail rest : List Char} {symbols : List Symbol} {s : Symbol}
    (h : readSymbol? (c :: tail) symbols = some (s, rest)) : rest.length ≤ tail.length := by
  induction symbols with
  | nil => cases h
  | cons first symbols ih =>
    rw [readSymbol?] at h
    split at h
    · next found =>
      cases h
      have := length_of_afterPiece found
      have := s.text_ne_nil
      simp only [List.length_cons] at *
      omega
    · exact ih h

namespace Scan

def start (source : String) : Scan :=
  { rest := source.toList, line := 1, depth := 0, indents := [], tokens := [], atLineStart := true }

def push (s : Scan) (kind : TokenKind) : Scan := { s with tokens := ⟨kind, s.line⟩ :: s.tokens }

/-- Ends the logical line, unless nothing was read since the last line or block began. -/
def endLine (s : Scan) : Scan :=
  match s.tokens with
  | [] => s
  | last :: _ =>
    if last.kind = .newline ∨ last.kind = .indent ∨ last.kind = .dedent then s else s.push .newline

/-- Closes the blocks that are wider than `width`. -/
def closeBlocks (width : Nat) (s : Scan) : List Nat → Scan
  | [] => { s with indents := [] }
  | inner :: outer =>
    if width < inner then closeBlocks width (s.push .dedent) outer
    else { s with indents := inner :: outer }

/-- Opens or closes blocks before a line that starts at `width`. -/
def indentTo (width : Nat) (s : Scan) : Except SyntaxError Scan :=
  let current := s.indents.headD 0
  if current < width then .ok { s.push .indent with indents := width :: s.indents }
  else
    let s := closeBlocks width s s.indents
    if width = s.indents.headD 0 then .ok s
    else .error ⟨"unindent does not match any outer indentation level", s.line⟩

/-- Reads a string literal that starts with a quote; `raw` if backslashes mean nothing in it. -/
def readQuotes (raw : Bool) (s : Scan) : Except SyntaxError (Piece String) :=
  let (close, multiline, body) := openQuotes s.rest
  if raw then readRaw close multiline s.line s.line [] body
  else readString close multiline s.line s.line [] body

/-- Takes a string literal as a token. -/
def takeString (raw : Bool) (kind : String → TokenKind) (s : Scan) : Except SyntaxError Scan :=
  match s.readQuotes raw with
  | .ok p => .ok ({ s with rest := p.rest, line := p.line }.push (kind p.value))
  | .error e => .error e

/-- Takes a name that was read, or the string literal behind it if the name says how to read one. -/
def takeNamed (name : List Char) (s : Scan) : Except SyntaxError Scan :=
  let named := s.push (.name (String.ofList name))
  match s.rest with
  | c :: _ =>
    if isQuote c then
      if name = ['f'] ∨ name = ['F'] then s.takeString false .template
      else if name = ['r'] ∨ name = ['R'] then s.takeString true .str
      else .ok named
    else .ok named
  | [] => .ok named

/-- Takes a name, or a string literal with a letter in front. -/
def takeName (s : Scan) : Except SyntaxError Scan :=
  takeNamed (s.rest.takeWhile isNamePart) { s with rest := s.rest.dropWhile isNamePart }

def takeSymbol (c : Char) (s : Scan) : Except SyntaxError Scan :=
  match readSymbol? s.rest Symbol.all with
  | some (symbol, rest) =>
    let depth :=
      if symbol.opens then s.depth + 1 else if symbol.closes then s.depth - 1 else s.depth
    .ok ({ s with rest := rest, depth := depth }.push (.symbol symbol))
  | none => .error ⟨"invalid character '" ++ c.toString ++ "'", s.line⟩

/-- Takes a number as a token. -/
def takeNumber (s : Scan) : Except SyntaxError Scan :=
  match readNumber s.line s.rest with
  | .ok (kind, rest) => .ok ({ s with rest := rest }.push kind)
  | .error e => .error e

/-- Passes a line end, which ends the logical line unless a bracket is open. -/
def passLineEnd (s : Scan) : Scan :=
  if s.depth = 0 then { s.endLine with line := s.line + 1, atLineStart := true }
  else { s with line := s.line + 1 }

/-- Takes the next token, or the next stretch without one, from a text that starts with `c`. -/
def takeToken (c : Char) (tail : List Char) (s : Scan) : Except SyntaxError Scan :=
  if c = '\n' then .ok { s with rest := tail }.passLineEnd
  else if c = ' ' ∨ c = '\t' ∨ c = '\r' then .ok { s with rest := tail }
  else if c = '#' then .ok { s with rest := dropComment tail }
  else if c = '\\' ∧ tail.head? = some '\n' then .ok { s with rest := tail.drop 1, line := s.line + 1 }
  else if startsNumber c tail then s.takeNumber
  else if isQuote c then s.takeString false .str
  else if isNameStart c then s.takeName
  else s.takeSymbol c

/-- Reads the white space in front of a line. A line that has nothing else, or only a comment, does not
count; any other opens or closes blocks and goes on with its first token. -/
def takeLineStart (s : Scan) : Except SyntaxError Scan :=
  match leadingWidth 0 s.rest with
  | (_, []) => .ok { s with rest := [] }
  | (width, c :: tail) =>
    if c = '\n' then .ok { s with rest := tail, line := s.line + 1 }
    else if c = '#' then .ok { s with rest := dropComment tail }
    else
      match indentTo width { s with rest := c :: tail, atLineStart := false } with
      | .ok s => s.takeToken c tail
      | .error e => .error e

/-- One turn; the text is not empty. -/
def step (s : Scan) : Except SyntaxError Scan :=
  if s.atLineStart ∧ s.depth = 0 then s.takeLineStart
  else
    match s.rest with
    | [] => .ok s
    | c :: tail => s.takeToken c tail

theorem endLine_rest (s : Scan) : s.endLine.rest = s.rest := by
  unfold endLine push
  split
  · rfl
  · split <;> rfl

theorem passLineEnd_rest (s : Scan) : s.passLineEnd.rest = s.rest := by
  unfold passLineEnd
  split
  · exact endLine_rest s
  · rfl

theorem closeBlocks_rest (width : Nat) (s : Scan) (widths : List Nat) :
    (closeBlocks width s widths).rest = s.rest := by
  induction widths generalizing s with
  | nil => rfl
  | cons inner outer ih =>
    rw [closeBlocks]
    split
    · rw [ih]; rfl
    · rfl

theorem indentTo_rest {width : Nat} {s t : Scan} (h : indentTo width s = .ok t) : t.rest = s.rest := by
  unfold indentTo at h
  dsimp only at h
  split at h
  · cases h; rfl
  · split at h <;> cases h
    exact closeBlocks_rest ..

theorem takeString_shorter {raw : Bool} {kind : String → TokenKind} {s t : Scan} {c : Char}
    {tail : List Char} (start : s.rest = c :: tail) (h : s.takeString raw kind = .ok t) :
    t.rest.length ≤ tail.length := by
  have body := openQuotes_length c tail
  unfold takeString at h
  split at h <;> cases h
  next p read =>
  unfold readQuotes at read
  rw [start] at read
  dsimp only [push] at read ⊢
  split at read
  · exact Nat.le_trans (readRaw_length read) body
  · exact Nat.le_trans (readString_length read) body

theorem isNamePart_of_isNameStart {c : Char} (h : isNameStart c = true) : isNamePart c = true := by
  simp only [isNameStart, isNamePart, Bool.or_eq_true] at *
  exact .inl h

theorem takeName_shorter {s t : Scan} {c : Char} {tail : List Char} (start : s.rest = c :: tail)
    (name : isNameStart c = true) (h : s.takeName = .ok t) : t.rest.length ≤ tail.length := by
  have part := isNamePart_of_isNameStart name
  have after : (s.rest.dropWhile isNamePart).length ≤ tail.length := by
    rw [start, List.dropWhile_cons, if_pos part]
    exact length_dropWhile_le ..
  have quoted {raw : Bool} {kind : String → TokenKind} {s' : Scan} {q : Char} {rest : List Char}
      (le : s'.rest.length ≤ tail.length) (start : s'.rest = q :: rest)
      (h : s'.takeString raw kind = .ok t) : t.rest.length ≤ tail.length := by
    have := takeString_shorter start h
    rw [start, List.length_cons] at le
    omega
  unfold takeName takeNamed at h
  dsimp only at h
  split at h
  · next q rest eq =>
    split at h
    · split at h
      · exact quoted after eq h
      · split at h
        · exact quoted after eq h
        · cases h; exact after
    · cases h; exact after
  · cases h; exact after

theorem takeToken_shorter {c : Char} {tail : List Char} {s t : Scan} (start : s.rest = c :: tail)
    (h : s.takeToken c tail = .ok t) : t.rest.length ≤ tail.length := by
  unfold takeToken at h
  split at h
  · cases h
    exact Nat.le_of_eq (congrArg List.length (passLineEnd_rest _))
  split at h
  · cases h; simp
  split at h
  · cases h; exact length_dropWhile_le ..
  split at h
  · cases h; simp
  split at h
  · next number =>
    unfold takeNumber at h
    rw [start] at h
    split at h <;> cases h
    next read => exact readNumber_shorter number read
  split at h
  · exact takeString_shorter start h
  split at h
  · next name => exact takeName_shorter start name h
  · unfold takeSymbol at h
    rw [start] at h
    split at h <;> cases h
    next read => exact readSymbol?_shorter read

theorem takeLineStart_shorter {c : Char} {tail : List Char} {s t : Scan} (start : s.rest = c :: tail)
    (h : s.takeLineStart = .ok t) : t.rest.length ≤ tail.length := by
  have le := leadingWidth_length 0 s.rest
  rw [start, List.length_cons] at le
  unfold takeLineStart at h
  rw [start] at h
  split at h
  · cases h; simp
  · next d rest eq =>
    rw [eq, List.length_cons] at le
    split at h
    · cases h; dsimp only; omega
    split at h
    · cases h
      have := length_dropWhile_le (fun e => decide (e ≠ '\n')) rest
      simp only [dropComment]
      omega
    split at h
    · next s' indented =>
      have := takeToken_shorter (indentTo_rest indented) h
      omega
    · cases h

/-- Each turn takes at least one character. -/
theorem step_shorter {s t : Scan} (more : s.rest ≠ []) (h : s.step = .ok t) :
    t.rest.length < s.rest.length := by
  obtain ⟨c, tail, start⟩ := List.exists_cons_of_ne_nil more
  rw [start, List.length_cons, Nat.lt_succ_iff]
  unfold step at h
  split at h
  · exact takeLineStart_shorter start h
  · rw [start] at h
    exact takeToken_shorter start h

/-- Ends the last line and closes every block. -/
def finish (s : Scan) : List Token :=
  let s := s.endLine
  let closed := s.indents.foldl (fun t _ => t.push .dedent) s
  (closed.push .eof).tokens.reverse

/-- The tokens of the whole text. -/
def run (s : Scan) : Except SyntaxError (List Token) :=
  if more : s.rest = [] then .ok s.finish
  else
    match turn : s.step with
    | .ok t =>
      have _shorter := step_shorter more turn
      run t
    | .error e => .error e
termination_by s.rest.length

end Scan

/-- The tokens of a text; the last one is `eof`. -/
def tokenize (source : String) : Except SyntaxError (List Token) := (Scan.start source).run

end SnippetKernel.Source
