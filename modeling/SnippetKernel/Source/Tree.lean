import SnippetKernel.Number.Double

/-! Programs as trees. -/
namespace SnippetKernel.Source

inductive Literal where
  | none
  | bool (b : Bool)
  | int (i : Int64)
  | float (d : Double)
  | str (text : String)
  deriving DecidableEq

inductive UnaryOp where
  | neg | pos | not
  deriving DecidableEq, Repr

inductive BinaryOp where
  | add | sub | mul | div | floorDiv | mod | pow
  deriving DecidableEq, Repr

def BinaryOp.text : BinaryOp → String
  | add => "+"
  | sub => "-"
  | mul => "*"
  | div => "/"
  | floorDiv => "//"
  | mod => "%"
  | pow => "**"

inductive CompareOp where
  | eq | ne | lt | le | gt | ge | isIn | notIn | is | isNot
  deriving DecidableEq, Repr

mutual

inductive Expr where
  | literal (value : Literal)
  | name (id : String)
  /-- An f-string. -/
  | template (parts : List TemplatePart)
  | list (items : List Expr)
  | tuple (items : List Expr)
  | dict (entries : List (Expr × Expr))
  /-- `[element for target in source if cond]` -/
  | comprehension (element : Expr) (target : Target) (source : Expr) (cond : Option Expr)
  | unary (op : UnaryOp) (operand : Expr)
  | binary (op : BinaryOp) (left right : Expr)
  /-- `first < a <= b`: each operand is compared with the next one. -/
  | compare (first : Expr) (rest : List (CompareOp × Expr))
  | and (left right : Expr)
  | or (left right : Expr)
  | ifElse (cond yes no : Expr)
  | call (callee : Expr) (args : List Expr) (keywords : List (String × Expr))
  | attr (object : Expr) (name : String)
  | index (object index : Expr)
  | slice (start stop step : Option Expr)

/-- What can be assigned to. -/
inductive Target where
  | name (id : String)
  | index (object index : Expr)
  | attr (object : Expr) (name : String)
  | unpack (targets : List Target)

inductive TemplatePart where
  | text (text : String)
  /-- `\x7bexpr!r:spec\x7d`; `quote` says whether the value is shown in its quoted form. -/
  | value (expr : Expr) (quote : Bool) (spec : Option String)

end

/-- The plain names that assigning to the target binds. -/
def Target.names : Target → List String
  | .name id => [id]
  | .unpack targets => namesOf targets
  | .index .. => []
  | .attr .. => []
where
  namesOf : List Target → List String
    | [] => []
    | t :: ts => t.names ++ namesOf ts

structure Param where
  name : String
  default : Option Expr

mutual

/-- A statement and the line on which it starts. -/
inductive Stmt where
  | mk (line : Nat) (kind : StmtKind)

inductive StmtKind where
  | expr (value : Expr)
  /-- `a = b = value` -/
  | assign (targets : List Target) (value : Expr)
  | augAssign (target : Target) (op : BinaryOp) (value : Expr)
  | cond (branches : List (Expr × List Stmt)) (orelse : List Stmt)
  | loop (cond : Expr) (body : List Stmt)
  | each (target : Target) (source : Expr) (body : List Stmt)
  | define (name : String) (params : List Param) (body : List Stmt)
  | ret (value : Option Expr)
  | raise (value : Option Expr)
  | attempt (body : List Stmt) (handlers : List Handler) (orelse finally_ : List Stmt)
  | assert (cond : Expr) (message : Option Expr)
  | del (targets : List Target)
  /-- Modules and the names they are bound to, if these are others. -/
  | load (modules : List (String × Option String))
  | global (names : List String)
  | pass
  | stop
  | next

/-- `except class as name`; without a class it handles everything. -/
inductive Handler where
  | mk (class_ : Option Expr) (name : Option String) (body : List Stmt)

end

def Stmt.line : Stmt → Nat
  | .mk line _ => line

def Stmt.kind : Stmt → StmtKind
  | .mk _ kind => kind

def Handler.body : Handler → List Stmt
  | .mk _ _ body => body

end SnippetKernel.Source
