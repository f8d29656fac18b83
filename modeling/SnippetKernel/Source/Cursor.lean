import SnippetKernel.Number.Layout
import SnippetKernel.Source.Token

/-! Reading tokens one by one. A `Parser` takes tokens from the front of a `Cursor` or fails with a
`SyntaxError` that names the line of the token it failed at. -/
namespace SnippetKernel.Source

/-- The tokens not yet taken. -/
structure Cursor where
  rest : List Token
  /-- The line of the last token of all, for errors after the end. -/
  lastLine : Nat
  /-- How many tokens there were at first; no loop over tokens turns more often. -/
  size : Nat

def Cursor.ofTokens (tokens : List Token) : Cursor :=
  { rest := tokens, lastLine := (tokens.getLast?.map (·.line)).getD 1, size := tokens.length }

/-- The line of the next token. -/
def Cursor.line (c : Cursor) : Nat :=
  match c.rest with
  | t :: _ => t.line
  | [] => c.lastLine

/-- The next token; after the end, `eof`. -/
def Cursor.peek (c : Cursor) : TokenKind :=
  match c.rest with
  | t :: _ => t.kind
  | [] => .eof

/-- The token after the next one. -/
def Cursor.peekSecond (c : Cursor) : TokenKind :=
  match c.rest with
  | _ :: t :: _ => t.kind
  | _ => .eof

/-- What a reader answers that has no turns left. Readers are given more turns than a text can take, and no rule of
the language has this message. -/
def outOfTurns : String := ""

abbrev Parser := StateT Cursor (Except SyntaxError)

namespace Parser

def fail {α : Type} (message : String) : Parser α := fun c => .error ⟨message, c.line⟩

def peek : Parser TokenKind := fun c => .ok (c.peek, c)

def peekSecond : Parser TokenKind := fun c => .ok (c.peekSecond, c)

def line : Parser Nat := fun c => .ok (c.line, c)

def skip : Parser Unit := fun c => .ok ((), { c with rest := c.rest.tail })

def check (kind : TokenKind) : Parser Bool := do return (← peek) = kind

/-- Takes the next token if it is this one. -/
def eat (kind : TokenKind) : Parser Bool := do
  if (← peek) = kind then
    skip
    return true
  else return false

def checkSymbol (s : Symbol) : Parser Bool := check (.symbol s)

def eatSymbol (s : Symbol) : Parser Bool := eat (.symbol s)

def checkWord (word : String) : Parser Bool := check (.name word)

def eatWord (word : String) : Parser Bool := eat (.name word)

def expectSymbol (s : Symbol) : Parser Unit := do
  unless ← eatSymbol s do fail ("expected '" ++ s.text ++ "'")

def expectWord (word : String) : Parser Unit := do
  unless ← eatWord word do fail ("expected '" ++ word ++ "'")

/-- Numbers in messages have neither an exponent nor a needless point. -/
def numberLayout : Layout :=
  { positionalFrom := -400, positionalTo := 400, keepsPoint := false, plusExponent := false,
    exponentWidth := 1, nanText := "NaN" }

def describe : TokenKind → String
  | .name text => "'" ++ text ++ "'"
  | .int i => toString i.toInt
  | .float d => d.text numberLayout
  | .str _ => "string"
  | .template _ => "string"
  | .symbol s => "'" ++ s.text ++ "'"
  | .newline => "end of line"
  | .indent => "indent"
  | .dedent => "dedent"
  | .eof => "end of input"

/-- The next token does not fit here. -/
def unexpected {α : Type} : Parser α := do
  fail ("invalid syntax (unexpected " ++ describe (← peek) ++ ")")

/-- Words that are not names. -/
def keywords : List String :=
  ["False", "None", "True", "and", "as", "assert", "break", "continue", "def", "del", "elif", "else",
    "except", "finally", "for", "global", "if", "import", "in", "is", "not", "or", "pass", "raise",
    "return", "try", "while"]

/-- Words that would start something the language does not have. -/
def reservedWords : List String :=
  ["class", "lambda", "with", "yield", "from", "nonlocal", "async", "await"]

def expectName : Parser String := do
  match ← peek with
  | .name text =>
    if keywords.contains text then unexpected
    else
      skip
      return text
  | _ => unexpected

/-- Repeats a step that takes tokens until it gives a result. -/
def turns {σ α : Type} (step : σ → Parser (σ ⊕ α)) : Nat → σ → Parser α
  | 0, _ => fail outOfTurns
  | n + 1, s => do
    match ← step s with
    | .inl s => turns step n s
    | .inr a => return a

/-- Every turn takes a token, so there are at most as many turns as tokens, and one that finds the
end. -/
def repeatFrom {σ α : Type} (s : σ) (step : σ → Parser (σ ⊕ α)) : Parser α := do
  turns step ((← get).size + 1) s

end Parser

end SnippetKernel.Source
