import SnippetKernel.Source.Grammar

/-! Statements, blocks and whole programs. `parse` is the way from text to tree; a text that is not a
program is refused with the line where that shows. -/
namespace SnippetKernel.Source

open Source.Parser Source.Grammar

/-- What may stand at a place: `break` and `continue` only in a loop, `return` only in a function. -/
structure Surroundings where
  inLoop : Bool
  inFunction : Bool

/-- What a program starts with. -/
def Surroundings.outermost : Surroundings := { inLoop := false, inFunction := false }

namespace Statement

/-- Names after commas. -/
def moreNames (first : String) : Parser (List String) :=
  moreItems expectName (return false) [first]

def dottedName : Parser String := do
  let first ← expectName
  repeatFrom first fun name => do
    if ← eatSymbol .dot then return .inl (name ++ "." ++ (← expectName)) else return .inr name

def asName : Parser (Option String) := do
  if ← eatWord "as" then return some (← expectName) else return none

/-- `module`, or `module as name`. -/
def loadItem : Parser (String × Option String) := do
  let name ← dottedName
  return (name, ← asName)

def asTargets : List Expr → Parser (List Target)
  | [] => return []
  | e :: es => do
    let t ← asTarget e
    return t :: (← asTargets es)

/-- The assignment of an operation on the target, after its symbol. -/
def augmented (k : Level) (target : Expr) (op : BinaryOp) : Parser StmtKind := do
  match ← asTarget target with
  | .unpack _ => fail "illegal expression for augmented assignment"
  | target => return .augAssign target op (← exprList k)

/-- An assignment, after its first target. -/
def assigned (k : Level) (first : Expr) : Parser StmtKind := do
  let exprs ← repeatFrom (first, []) fun (last, before) => do
    if ← eatSymbol .assign then return .inl (← exprList k, last :: before)
    else return .inr (last, before.reverse)
  return .assign (← asTargets exprs.2) exprs.1

/-- A statement that starts with an expression: an assignment of either kind, or the expression. -/
def fromExpr (k : Level) : Parser StmtKind := do
  let first ← exprList k
  match augmented? (← peek) with
  | some op =>
    skip
    augmented k first op
  | none => if ← checkSymbol .assign then assigned k first else return .expr first

/-- A statement without a block. -/
def simple (k : Level) (s : Surroundings) : Parser StmtKind := do
  match ← peek with
  | .name "pass" => skip; return .pass
  | .name "break" =>
    if s.inLoop then
      skip
      return .stop
    else fail "'break' outside loop"
  | .name "continue" =>
    if s.inLoop then
      skip
      return .next
    else fail "'continue' outside loop"
  | .name "return" =>
    if s.inFunction then
      skip
      return .ret (← orNothing atSimpleEnd (exprList k))
    else fail "'return' outside function"
  | .name "raise" =>
    skip
    return .raise (← orNothing atSimpleEnd k.expr)
  | .name "assert" =>
    skip
    let cond ← k.expr
    if ← eatSymbol .comma then return .assert cond (some (← k.expr)) else return .assert cond none
  | .name "del" =>
    skip
    let item : Parser Target := do asTarget (← k.expr)
    return .del (← moreItems item (return false) [← item])
  | .name "global" =>
    skip
    return .global (← moreNames (← expectName))
  | .name "import" =>
    skip
    return .load (← moreItems loadItem (return false) [← loadItem])
  | _ => fromExpr k

/-- A statement of the given kind, on the line of the next token. -/
def located (kind : Parser StmtKind) : Parser Stmt := do
  let line ← Parser.line
  return .mk line (← kind)

/-- Statements without a block, separated by semicolons. -/
def simples (k : Level) (s : Surroundings) : Parser (List Stmt) :=
  repeatFrom [] fun done => do
    let done := (← located (simple k s)) :: done
    if ← eatSymbol .semicolon then
      match ← peek with
      | .newline | .eof => return .inr done.reverse
      | _ => return .inl done
    else return .inr done.reverse

/-- Statements without a block, up to the end of their line. -/
def simpleLine (k : Level) (s : Surroundings) : Parser (List Stmt) := do
  let stmts ← simples k s
  match ← peek with
  | .newline => skip; return stmts
  | .eof | .dedent => return stmts
  | _ => unexpected

/-- Passes an empty line, or reads more statements. -/
def lineOr (statement : Parser (List Stmt)) : Parser (List Stmt) := do
  if ← eat .newline then return [] else statement

/-- The statements of a block, after the line that opens it and up to its end. -/
def indented (statement : Parser (List Stmt)) : Parser (List Stmt) := do
  if ← eat .indent then
    repeatFrom [] fun done => do
      if ← eat .dedent then return .inr done.reverse
      else if ← check .eof then return .inr done.reverse
      else return .inl ((← lineOr statement).reverseAux done)
  else fail "expected an indented block"

/-- A colon, and then statements on the same line or in an indented block. -/
def block (statement : Parser (List Stmt)) : Parser (List Stmt) := do
  expectSymbol .colon
  if ← eat .newline then indented statement else statement

/-- The `elif` and `else` parts that follow the first branch. -/
def branches (k : Level) (block : Parser (List Stmt)) (first : Expr × List Stmt) :
    Parser StmtKind :=
  repeatFrom [first] fun done => do
    if ← eatWord "elif" then
      let cond ← k.expr
      return .inl ((cond, ← block) :: done)
    else if ← eatWord "else" then return .inr (.cond done.reverse (← block))
    else return .inr (.cond done.reverse [])

/-- What follows the name of a parameter that comes after those of `done`. -/
def parameterDefault (k : Level) (done : List Param) : Parser (Option Expr) := do
  if ← eatSymbol .assign then return some (← k.expr)
  else if done.any fun p => p.default.isSome then fail "non-default argument follows default argument"
  else return none

def parameter (k : Level) (done : List Param) : Parser Param := do
  let name ← expectName
  if done.any fun p => p.name == name then
    fail ("duplicate argument '" ++ name ++ "' in function definition")
  else return ⟨name, ← parameterDefault k done⟩

/-- Parameters up to the closing parenthesis. -/
def parameters (k : Level) : Parser (List Param) := do
  let params ← repeatFrom [] fun done => do
    if ← checkSymbol .closeParen then return .inr done
    let done := (← parameter k done) :: done
    if ← eatSymbol .comma then return .inl done else return .inr done
  expectSymbol .closeParen
  return params.reverse

/-- What a handler catches, and the name that it gives to it. -/
def caught (k : Level) : Parser (Option Expr × Option String) := do
  if ← checkSymbol .colon then return (none, none)
  else
    let class_ ← k.expr
    return (some class_, ← asName)

def handler (k : Level) (block : Parser (List Stmt)) : Parser Handler := do
  let (class_, name) ← caught k
  return .mk class_ name (← block)

def Handler.catchesAll : Handler → Bool
  | .mk class_ _ _ => class_.isNone

def handlers (k : Level) (block : Parser (List Stmt)) : Parser (List Handler) :=
  repeatFrom [] fun done => do
    if ← eatWord "except" then
      if done.head?.any Handler.catchesAll then fail "default 'except:' must be last"
      else return .inl ((← handler k block) :: done)
    else return .inr done.reverse

/-- The block after a word, if the word comes. -/
def partAfter (word : String) (block : Parser (List Stmt)) : Parser (List Stmt) := do
  if ← eatWord word then block else return []

/-- Only handlers can have an `else` part. -/
def elsePart (handlers : List Handler) (block : Parser (List Stmt)) : Parser (List Stmt) :=
  if handlers.isEmpty then return [] else partAfter "else" block

def attempt (k : Level) (block : Parser (List Stmt)) : Parser StmtKind := do
  let body ← block
  let handlers ← handlers k block
  let orelse ← elsePart handlers block
  let final ← partAfter "finally" block
  if handlers.isEmpty && final.isEmpty then fail "expected 'except' or 'finally' block"
  else return .attempt body handlers orelse final

/-- The name and the parameters of a function. -/
def signature (k : Level) : Parser (String × List Param) := do
  let name ← expectName
  expectSymbol .openParen
  let params ← parameters k
  if ← eatSymbol .arrow then let _ ← k.expr
  return (name, params)

/-- A function, after `def`. -/
def definition (k : Level) (block : Parser (List Stmt)) : Parser StmtKind := do
  let (name, params) ← signature k
  return .define name params (← block)

/-- What follows the first word of a statement with blocks; `inner` reads the statements in these. -/
def compound? (k : Level) (inner : Surroundings → Parser (List Stmt)) (s : Surroundings) :
    String → Option (Parser StmtKind)
  | "if" => some do
    let cond ← k.expr
    branches k (block (inner s)) (cond, ← block (inner s))
  | "while" => some do
    let cond ← k.expr
    return .loop cond (← block (inner { s with inLoop := true }))
  | "for" => some do
    let target ← targetList k
    expectWord "in"
    let source ← exprList k
    return .each target source (← block (inner { s with inLoop := true }))
  | "def" => some (definition k (block (inner { inLoop := false, inFunction := true })))
  | "try" => some (attempt k (block (inner s)))
  | _ => none

/-- One statement with blocks, or one line of statements without. -/
def oneOf (k : Level) (inner : Surroundings → Parser (List Stmt)) (s : Surroundings) :
    Parser (List Stmt) := do
  match ← peek with
  | .name word =>
    match compound? k inner s word with
    | some kind => return [← located (do skip; kind)]
    | none =>
      if reservedWords.contains word then fail ("'" ++ word ++ "' is not supported")
      else simpleLine k s
  | _ => simpleLine k s

/-- Statements whose blocks are at most `depth` deep. Each block has a colon of its own in front, so the
number of tokens bounds the depth. -/
def read (k : Level) : Nat → Surroundings → Parser (List Stmt)
  | 0, _ => fail outOfTurns
  | depth + 1, s => oneOf k (read k depth) s

end Statement

/-- One turn of reading a whole program. -/
def programTurn (statement : Parser (List Stmt)) (done : List Stmt) :
    Parser (List Stmt ⊕ List Stmt) := do
  if ← check .eof then return .inr done.reverse
  else return .inl ((← Statement.lineOr statement).reverseAux done)

/-- All statements up to the end. -/
def program (template : TemplateReader) : Parser (List Stmt) := do
  let size := (← get).size
  let statement := Statement.read (outermost template size) (size + 1) .outermost
  repeatFrom [] (programTurn statement)

/-- The program that a text is. -/
def parse (source : String) : Except SyntaxError (List Stmt) := do
  let tokens ← tokenize source
  return (← (program (template (source.length + 1))).run (Cursor.ofTokens tokens)).1

end SnippetKernel.Source
