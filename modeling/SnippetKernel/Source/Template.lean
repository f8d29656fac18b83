import SnippetKernel.Source.Token
import SnippetKernel.Source.Tree
import SnippetKernel.Text.Blank

/-! The body of an f-string. Text stands for itself, a doubled brace for one brace, and
`\x7bexpr!conversion:spec\x7d` is a placeholder. An expression ends at the first `!`, `:` or closing
brace outside quotes and brackets. -/
namespace SnippetKernel.Source

open Text

/-- A placeholder as it is read: the expression's text, then the conversion's and the specification's if
there are any. Each is kept last character first. -/
structure Placeholder where
  source : List Char
  conversion : Option (List Char)
  spec : Option (List Char)

namespace Placeholder

/-- Adds a character to the part that is being read. -/
def push (c : Char) (p : Placeholder) : Placeholder :=
  match p.spec, p.conversion with
  | some spec, _ => { p with spec := some (c :: spec) }
  | none, some conversion => { p with conversion := some (c :: conversion) }
  | none, none => { p with source := c :: p.source }

/-- Reads a placeholder up to its closing brace. `depth` counts open brackets, and `quote` is the quote
of a string that is open. -/
def read? (p : Placeholder) (depth : Nat) (quote : Option Char) :
    List Char → Option (Placeholder × List Char)
  | [] => none
  | c :: rest =>
    match quote with
    | some q => read? (p.push c) depth (if c = q then none else quote) rest
    | none =>
      if c = '\'' ∨ c = '"' then read? (p.push c) depth (some c) rest
      else if c = '(' ∨ c = '[' ∨ c = '\x7b' then read? (p.push c) (depth + 1) none rest
      else if c = ')' ∨ c = ']' then read? (p.push c) (depth - 1) none rest
      else if c = '\x7d' then
        if depth = 0 then some (p, rest) else read? (p.push c) (depth - 1) none rest
      else if c = '!' ∧ depth = 0 ∧ p.spec.isNone ∧ rest.head? ≠ some '=' then
        read? { p with conversion := some [] } depth none rest
      else if c = ':' ∧ depth = 0 ∧ p.spec.isNone then
        read? { p with spec := some [] } depth none rest
      else read? (p.push c) depth none rest

theorem read?_length {p q : Placeholder} {depth : Nat} {quote : Option Char} {cs rest : List Char}
    (h : p.read? depth quote cs = some (q, rest)) : rest.length < cs.length := by
  induction cs generalizing p depth quote with
  | nil => cases h
  | cons c cs ih =>
    rw [List.length_cons, Nat.lt_succ_iff]
    unfold read? at h
    repeat' split at h
    all_goals first
      | exact Nat.le_of_lt (ih h)
      | cases h; exact Nat.le_refl _

/-- Whether the value is to be shown in its quoted form. -/
def wantsQuotes (p : Placeholder) (line : Nat) : Except SyntaxError Bool :=
  match p.conversion with
  | none => .ok false
  | some ['r'] => .ok true
  | some ['s'] => .ok false
  | some other =>
    .error ⟨"f-string: invalid conversion character '" ++ String.ofList other.reverse ++ "'", line⟩

/-- The part of a template that the placeholder stands for. -/
def part (parse : String → Nat → Except SyntaxError Expr) (line : Nat) (p : Placeholder) :
    Except SyntaxError TemplatePart := do
  let source := p.source.reverse
  if source.all isBlank then throw ⟨"f-string: empty expression not allowed", line⟩
  let quote ← p.wantsQuotes line
  let expr ← parse (String.ofList source) line
  pure (.value expr quote (p.spec.map fun spec => String.ofList spec.reverse))

end Placeholder

/-- The parts read so far, last one first, after the text `literal` that belongs to none of them yet. -/
def flushText (literal : List Char) (parts : List TemplatePart) : List TemplatePart :=
  if literal.isEmpty then parts else .text (String.ofList literal.reverse) :: parts

/-- The parts of a template. `literal` is the text since the last placeholder, last character first;
`done` are the parts before it, last one first. -/
def readTemplate (parse : String → Nat → Except SyntaxError Expr) (line : Nat)
    (literal : List Char) (done : List TemplatePart) (cs : List Char) :
    Except SyntaxError (List TemplatePart) :=
  match cs with
  | [] => .ok (flushText literal done).reverse
  | '\x7b' :: '\x7b' :: rest => readTemplate parse line ('\x7b' :: literal) done rest
  | '\x7d' :: '\x7d' :: rest => readTemplate parse line ('\x7d' :: literal) done rest
  | '\x7d' :: _ => .error ⟨"f-string: single '\x7d' is not allowed", line⟩
  | '\x7b' :: rest =>
    match found : Placeholder.read? ⟨[], none, none⟩ 0 none rest with
    | none => .error ⟨"f-string: expecting '\x7d'", line⟩
    | some (p, after) =>
      have _shorter := Placeholder.read?_length found
      match p.part parse line with
      | .error e => .error e
      | .ok part => readTemplate parse line [] (part :: flushText literal done) after
  | c :: rest => readTemplate parse line (c :: literal) done rest
termination_by cs.length

end SnippetKernel.Source
