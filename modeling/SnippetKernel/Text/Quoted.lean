/-! The quoted form of a text, as values show it. The quote is `'`, or `"` for a text that has a `'`
and no `"`. A backslash, the chosen quote and the three common line controls are written with a
backslash; other control characters are written by their code. -/
namespace SnippetKernel.Text

/-- The general category *Cc*. -/
def isControl (c : Char) : Bool := c.toNat < 0x20 || (0x7F ≤ c.toNat && c.toNat < 0xA0)

/-- The quote that `cs` is written between. -/
def quoteFor (cs : List Char) : Char :=
  if cs.contains '\'' && !cs.contains '"' then '"' else '\''

/-- Two lower-case digits of base sixteen. -/
def hexPair (n : Nat) : List Char := [Nat.digitChar (n / 16), Nat.digitChar (n % 16)]

/-- One character between two `quote`s. -/
def quoteChar (quote c : Char) : List Char :=
  if c = '\\' then ['\\', '\\']
  else if c = '\n' then ['\\', 'n']
  else if c = '\t' then ['\\', 't']
  else if c = '\r' then ['\\', 'r']
  else if c = quote then ['\\', c]
  else if isControl c then ['\\', 'x'] ++ hexPair c.toNat
  else [c]

def quoteChars (cs : List Char) : List Char :=
  let quote := quoteFor cs
  quote :: cs.flatMap (quoteChar quote) ++ [quote]

def quoted (text : String) : String := String.ofList (quoteChars text.toList)

example : quoted "it's" = "\"it's\"" := by decide +kernel
example : quoted "a\n'\"" = "'a\\n\\'\"'" := by decide +kernel

end SnippetKernel.Text
