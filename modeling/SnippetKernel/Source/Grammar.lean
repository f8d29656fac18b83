import SnippetKernel.Source.Cursor
import SnippetKernel.Source.Lexer
import SnippetKernel.Source.Template

/-! Expressions. A bracket, an operator in front, an exponent and a branch open a nested expression,
and at most `maxNesting` of these may be open. Two recursive ways into the grammar open none: the
operands of `for … in …` and `if` in a comprehension, and its targets. The rules of one level take
what they need of other levels from a `Level`; `read` ties the knot. -/
namespace SnippetKernel.Source

namespace Grammar

open Source.Parser

/-- Nested expressions that may be open. -/
def maxNesting : Nat := 100

/-- Operators of one kind in a row. -/
def maxChain : Nat := 1000

/-- Where the grammar is entered again. -/
inductive Entry where
  | expr
  /-- After `not`. -/
  | negated
  /-- After a sign, or after `**`. -/
  | factor
  /-- After an opening bracket. -/
  | bracket (s : Symbol)
  /-- An expression without `if … else …`. -/
  | operand
  /-- An atom with what follows it directly. -/
  | postfixed

/-- What one level takes from others. -/
structure Level where
  /-- One nested expression more. -/
  deeper : Entry → Parser Expr
  here : Entry → Parser Expr

def Level.expr (k : Level) : Parser Expr := k.deeper .expr

/-- Reads the parts of a template that begins on the given line. -/
abbrev TemplateReader := String → Nat → Except SyntaxError (List TemplatePart)

/-- The next one of a chain of `count` operators may come. -/
def chainStep (count : Nat) : Parser Unit := do
  if maxChain ≤ count then fail "expression too long"

/-- Operands joined from the left. `next?` takes an operator if there is one and says what it makes. -/
def chain (operand : Parser Expr) (next? : Parser (Option (Expr → Expr → Expr))) : Parser Expr := do
  let first ← operand
  repeatFrom (first, 0) fun (left, count) => do
    match ← next? with
    | none => return .inr left
    | some join =>
      chainStep count
      let right ← operand
      return .inl (join left right, count + 1)

/-- Takes the first of the given symbols that comes next. -/
def eatOneOf {α : Type} : List (Symbol × α) → Parser (Option α)
  | [] => return none
  | (s, a) :: rest => do
    if ← eatSymbol s then return some a else eatOneOf rest

def atSimpleEnd : Parser Bool := do
  match ← peek with
  | .newline | .eof | .dedent | .symbol .semicolon => return true
  | _ => return false

/-- Operators that assign the result to the left side. -/
def augmented? : TokenKind → Option BinaryOp
  | .symbol .addAssign => some .add
  | .symbol .subAssign => some .sub
  | .symbol .mulAssign => some .mul
  | .symbol .divAssign => some .div
  | .symbol .floorDivAssign => some .floorDiv
  | .symbol .modAssign => some .mod
  | .symbol .powAssign => some .pow
  | _ => none

/-- Whether no further item can follow a comma. -/
def atListEnd : Parser Bool := do
  match ← peek with
  | .newline | .eof | .dedent => return true
  | .symbol .assign | .symbol .closeParen | .symbol .closeBracket | .symbol .closeBrace
  | .symbol .semicolon | .symbol .colon => return true
  | kind => return (augmented? kind).isSome

/-- Items after commas, up to a comma after which `atEnd` holds. -/
def moreItems {α : Type} (item : Parser α) (atEnd : Parser Bool) (first : List α) :
    Parser (List α) :=
  repeatFrom first.reverse fun done => do
    if ← eatSymbol .comma then
      if ← atEnd then return .inr done.reverse
      return .inl ((← item) :: done)
    return .inr done.reverse

/-- An expression; several with commas, or one with a comma after it, make a tuple. -/
def exprList (k : Level) : Parser Expr := do
  let first ← k.expr
  if ← checkSymbol .comma then return .tuple (← moreItems k.expr atListEnd [first])
  return first

mutual

/-- What an expression stands for when it is assigned to. -/
def target? : Expr → Option Target
  | .name id => some (.name id)
  | .index object index => some (.index object index)
  | .attr object name => some (.attr object name)
  | .tuple items => (targets? items).map .unpack
  | .list items => (targets? items).map .unpack
  | _ => none

def targets? : List Expr → Option (List Target)
  | [] => some []
  | e :: es => do
    let t ← target? e
    let ts ← targets? es
    some (t :: ts)

end

def asTarget (e : Expr) : Parser Target := do
  match target? e with
  | some t => return t
  | none => fail "cannot assign to expression"

/-- What `read` reads, or nothing if `stop` holds. -/
def orNothing {α : Type} (stop : Parser Bool) (read : Parser α) : Parser (Option α) := do
  if ← stop then return none else return some (← read)

/-- Whether a bound of a slice is left out. -/
def atBoundEnd : Parser Bool := do
  return (← checkSymbol .colon) || (← checkSymbol .closeBracket)

def sliceStep (k : Level) : Parser (Option Expr) := do
  if ← eatSymbol .colon then orNothing (checkSymbol .closeBracket) k.expr else return none

def subscript (k : Level) : Parser Expr := do
  let start ← orNothing (checkSymbol .colon) (exprList k)
  let colon ← checkSymbol .colon
  match start, colon with
  | some e, false => return e
  | _, _ =>
    expectSymbol .colon
    let stop ← orNothing atBoundEnd k.expr
    let step ← sliceStep k
    return .slice start stop step

/-- Adjacent string literals are one. `text` holds them as long as no f-string is among them; `parts`
holds the parts from the first f-string on. -/
def adjacentStrings (template : TemplateReader) (line : Nat) (text : String)
    (parts : Option (List TemplatePart)) : Parser Expr :=
  repeatFrom (text, parts) fun (text, parts) => do
    match ← peek with
    | .str s =>
      skip
      match parts with
      | some parts => return .inl (text, some (parts ++ [.text s]))
      | none => return .inl (text ++ s, none)
    | .template body =>
      skip
      let before := parts.getD (if text.isEmpty then [] else [.text text])
      match template body line with
      | .ok more => return .inl ("", some (before ++ more))
      | .error e => throw e
    | _ =>
      match parts with
      | some parts => return .inr (.template parts)
      | none => return .inr (.literal (.str text))

def atom (template : TemplateReader) (k : Level) : Parser Expr := do
  let line ← Parser.line
  match ← peek with
  | .int i => skip; return .literal (.int i)
  | .float d => skip; return .literal (.float d)
  | .str s => skip; adjacentStrings template line s none
  | .template _ => adjacentStrings template line "" none
  | .name "None" => skip; return .literal .none
  | .name "True" => skip; return .literal (.bool true)
  | .name "False" => skip; return .literal (.bool false)
  | .name word =>
    if reservedWords.contains word then
      skip
      fail ("'" ++ word ++ "' is not supported")
    else if keywords.contains word then unexpected
    else
      skip
      return .name word
  | .symbol s =>
    if s.opens then
      skip
      k.deeper (.bracket s)
    else unexpected
  | _ => unexpected

/-- The targets of `for`; they stop before `in`. -/
def targetList (k : Level) : Parser Target := do
  let first ← asTarget (← k.here .postfixed)
  let comma ← checkSymbol .comma
  let targets ← moreItems (do asTarget (← k.here .postfixed)) (checkWord "in") [first]
  return if comma then .unpack targets else first

/-- `if cond` at the end of a comprehension. -/
def filter (k : Level) : Parser (Option Expr) := do
  if ← eatWord "if" then return some (← k.here .operand) else return none

/-- `for target in source if cond`, after the element. -/
def comprehensionTail (k : Level) (element : Expr) : Parser Expr := do
  expectWord "for"
  let target ← targetList k
  expectWord "in"
  let source ← k.here .operand
  let cond ← filter k
  if ← checkWord "for" then fail "nested comprehensions are not supported"
  return .comprehension element target source cond

/-- The arguments of a call; the last one of each kind comes first. -/
structure Arguments where
  args : List Expr
  keywords : List (String × Expr)

/-- Whether an argument comes that is given by name. -/
def atKeyword : Parser Bool := do
  match ← peek with
  | .name _ => return (← peekSecond) = .symbol .assign
  | _ => return false

def keywordArgument (k : Level) (taken : Arguments) : Parser Arguments := do
  let name ← expectName
  expectSymbol .assign
  if taken.keywords.any (·.1 == name) then fail ("keyword argument repeated: " ++ name)
  let value ← k.expr
  return { taken with keywords := (name, value) :: taken.keywords }

def positionalArgument (k : Level) (taken : Arguments) : Parser Arguments := do
  unless taken.keywords.isEmpty do fail "positional argument follows keyword argument"
  let arg ← k.expr
  if ← checkWord "for" then
    let all ← comprehensionTail k arg
    return { taken with args := all :: taken.args }
  else return { taken with args := arg :: taken.args }

def argument (k : Level) (taken : Arguments) : Parser Arguments := do
  if ← atKeyword then keywordArgument k taken else positionalArgument k taken

/-- The arguments of a call, after the opening parenthesis. -/
def arguments (k : Level) : Parser Arguments := do
  let taken ← repeatFrom ⟨[], []⟩ fun taken => do
    if ← checkSymbol .closeParen then return .inr taken
    let taken ← argument k taken
    if ← eatSymbol .comma then return .inl taken else return .inr taken
  expectSymbol .closeParen
  return ⟨taken.args.reverse, taken.keywords.reverse⟩

def attributeName : Parser String := do
  match ← peek with
  | .name text => skip; return text
  | _ =>
    skip
    fail "expected attribute name"

/-- An atom, and the calls, subscripts and attributes after it. -/
def postfixed (template : TemplateReader) (k : Level) : Parser Expr := do
  let first ← atom template k
  repeatFrom (first, 0) fun (object, count) => do
    match ← peek with
    | .symbol .openParen =>
      chainStep count
      skip
      let given ← arguments k
      return .inl (.call object given.args given.keywords, count + 1)
    | .symbol .openBracket =>
      chainStep count
      skip
      let index ← subscript k
      expectSymbol .closeBracket
      return .inl (.index object index, count + 1)
    | .symbol .dot =>
      chainStep count
      skip
      let name ← attributeName
      return .inl (.attr object name, count + 1)
    | _ => return .inr object

/-- A power binds tighter than a sign on its left and less tight than one on its right. -/
def power (template : TemplateReader) (k : Level) : Parser Expr := do
  let base ← postfixed template k
  if ← eatSymbol .pow then
    let exponent ← k.deeper .factor
    return .binary .pow base exponent
  return base

/-- The sign of a literal becomes part of it, where the negative number exists. -/
def negate : Expr → Expr
  | .literal (.int i) =>
    match narrow? (-i.toInt) with
    | some n => .literal (.int n)
    | none => .unary .neg (.literal (.int i))
  | .literal (.float d) => .literal (.float d.neg)
  | e => .unary .neg e

def factor (template : TemplateReader) (k : Level) : Parser Expr := do
  if ← eatSymbol .minus then return negate (← k.deeper .factor)
  if ← eatSymbol .plus then return .unary .pos (← k.deeper .factor)
  power template k

def binaryOf (ops : List (Symbol × BinaryOp)) : Parser (Option (Expr → Expr → Expr)) := do
  return (← eatOneOf ops).map .binary

def term (template : TemplateReader) (k : Level) : Parser Expr :=
  chain (factor template k)
    (binaryOf [(.star, .mul), (.slash, .div), (.floorDiv, .floorDiv), (.percent, .mod)])

def arith (template : TemplateReader) (k : Level) : Parser Expr :=
  chain (term template k) (binaryOf [(.plus, .add), (.minus, .sub)])

/-- Takes a comparison operator if there is one. -/
def compareOp : Parser (Option CompareOp) := do
  match ← peek with
  | .symbol .equal => skip; return some .eq
  | .symbol .notEqual => skip; return some .ne
  | .symbol .less => skip; return some .lt
  | .symbol .lessEqual => skip; return some .le
  | .symbol .greater => skip; return some .gt
  | .symbol .greaterEqual => skip; return some .ge
  | .name "in" => skip; return some .isIn
  | .name "is" =>
    skip
    if ← eatWord "not" then return some .isNot else return some .is
  | .name "not" =>
    if (← peekSecond) = .name "in" then
      skip
      expectWord "in"
      return some .notIn
    else return none
  | _ => return none

def comparison (template : TemplateReader) (k : Level) : Parser Expr := do
  let first ← arith template k
  let rest ← repeatFrom [] fun done => do
    match ← compareOp with
    | some op => return .inl ((op, ← arith template k) :: done)
    | none => return .inr done.reverse
  return if rest.isEmpty then first else .compare first rest

def negation (template : TemplateReader) (k : Level) : Parser Expr := do
  if ← eatWord "not" then return .unary .not (← k.deeper .negated)
  comparison template k

def joinWord (word : String) (join : Expr → Expr → Expr) :
    Parser (Option (Expr → Expr → Expr)) := do
  if ← eatWord word then return some join else return none

def andTest (template : TemplateReader) (k : Level) : Parser Expr :=
  chain (negation template k) (joinWord "and" .and)

def orTest (template : TemplateReader) (k : Level) : Parser Expr :=
  chain (andTest template k) (joinWord "or" .or)

def conditional (template : TemplateReader) (k : Level) : Parser Expr := do
  let yes ← orTest template k
  if ← eatWord "if" then
    let cond ← orTest template k
    expectWord "else"
    let no ← k.expr
    return .ifElse cond yes no
  return yes

/-- After an opening parenthesis: a tuple, a comprehension or an expression in parentheses. -/
def parenTail (k : Level) : Parser Expr := do
  if ← eatSymbol .closeParen then return .tuple []
  let first ← k.expr
  if ← checkWord "for" then
    let all ← comprehensionTail k first
    expectSymbol .closeParen
    return all
  if ← eatSymbol .closeParen then return first
  let items ← moreItems k.expr (checkSymbol .closeParen) [first]
  expectSymbol .closeParen
  return .tuple items

/-- After an opening square bracket: a list or a comprehension. -/
def listTail (k : Level) : Parser Expr := do
  if ← eatSymbol .closeBracket then return .list []
  let first ← k.expr
  if ← checkWord "for" then
    let all ← comprehensionTail k first
    expectSymbol .closeBracket
    return all
  let items ← moreItems k.expr (checkSymbol .closeBracket) [first]
  expectSymbol .closeBracket
  return .list items

/-- After an opening brace: the entries of a dict. -/
def dictTail (k : Level) : Parser Expr := do
  let entries ← repeatFrom [] fun done => do
    if ← checkSymbol .closeBrace then return .inr done
    let key ← k.expr
    unless ← eatSymbol .colon do fail "set literals are not supported"
    let value ← k.expr
    let done := (key, value) :: done
    if ← eatSymbol .comma then return .inl done else return .inr done
  expectSymbol .closeBrace
  return .dict entries.reverse

def bracketTail (k : Level) : Symbol → Parser Expr
  | .openParen => parenTail k
  | .openBracket => listTail k
  | _ => dictTail k

/-- The level with `room` nested expressions left. -/
def levelWith (read : Nat → Entry → Parser Expr) (room : Nat) : Level where
  deeper entry :=
    match room with
    | 0 => fail "too many nested parentheses"
    | room + 1 => read room entry
  here entry := read room entry

/-- The whole grammar, with `room` nested expressions left. Every second nested reading has taken a token
before it, so `2 * size + 2` is enough for `fuel`. -/
def read (template : TemplateReader) : Nat → Nat → Entry → Parser Expr
  | 0, _, _ => fail outOfTurns
  | fuel + 1, room, entry =>
    let k := levelWith (fun room entry => read template fuel room entry) room
    match entry with
    | .expr => conditional template k
    | .negated => negation template k
    | .factor => factor template k
    | .bracket s => bracketTail k s
    | .operand => orTest template k
    | .postfixed => postfixed template k

/-- The level that statements read expressions from. -/
def outermost (template : TemplateReader) (size : Nat) : Level :=
  let fuel := 2 * size + 2
  { deeper := fun entry => read template fuel (maxNesting - 1) entry
    here := fun entry => read template fuel maxNesting entry }

/-- The end of a text that is nothing but an expression. -/
def aloneOn (line : Nat) (e : Expr) : Parser Expr := do
  let _ ← eat .newline
  if ← check .eof then return e else throw ⟨"f-string: invalid expression", line⟩

/-- The tokens, as if all were on one line. -/
def onLine (line : Nat) (tokens : List Token) : List Token := tokens.map fun t => { t with line }

/-- The expression in a placeholder; its tokens count as tokens of the given line. -/
def placeholder (template : TemplateReader) (source : String) (line : Nat) :
    Except SyntaxError Expr := do
  let tokens := onLine line (← tokenize (Text.trim source))
  let reading : Parser Expr := do aloneOn line (← exprList (outermost template tokens.length))
  return (← reading.run (Cursor.ofTokens tokens)).1

/-- The parts of a template whose placeholders hold templates at most `depth` deep. A template in a
placeholder is shorter than the one around it. -/
def template : Nat → TemplateReader
  | 0, _, line => .error ⟨outOfTurns, line⟩
  | depth + 1, body, line => readTemplate (placeholder (template depth)) line [] [] body.toList

end Grammar

end SnippetKernel.Source
