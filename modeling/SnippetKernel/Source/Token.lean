import SnippetKernel.Number.Double

/-! The tokens of the snippet language. Besides words, literals and symbols there are tokens for the
layout of a text: `newline` ends a logical line, `indent` and `dedent` open and close a block. -/
namespace SnippetKernel.Source

/-- Operators and punctuation. -/
inductive Symbol where
  | floorDivAssign | powAssign | equal | notEqual | lessEqual | greaterEqual | floorDiv | pow
  | addAssign | subAssign | mulAssign | divAssign | modAssign | arrow | plus | minus | star | slash
  | percent | less | greater | assign | openParen | closeParen | openBracket | closeBracket
  | openBrace | closeBrace | comma | colon | dot | semicolon
  deriving DecidableEq, Repr

namespace Symbol

def text : Symbol → String
  | floorDivAssign => "//="
  | powAssign => "**="
  | equal => "=="
  | notEqual => "!="
  | lessEqual => "<="
  | greaterEqual => ">="
  | floorDiv => "//"
  | pow => "**"
  | addAssign => "+="
  | subAssign => "-="
  | mulAssign => "*="
  | divAssign => "/="
  | modAssign => "%="
  | arrow => "->"
  | plus => "+"
  | minus => "-"
  | star => "*"
  | slash => "/"
  | percent => "%"
  | less => "<"
  | greater => ">"
  | assign => "="
  | openParen => "("
  | closeParen => ")"
  | openBracket => "["
  | closeBracket => "]"
  | openBrace => "\x7b"
  | closeBrace => "\x7d"
  | comma => ","
  | colon => ":"
  | dot => "."
  | semicolon => ";"

/-- The symbols, longer ones first: of two that start at the same place the longer one is meant. -/
def all : List Symbol :=
  [floorDivAssign, powAssign, equal, notEqual, lessEqual, greaterEqual, floorDiv, pow, addAssign,
    subAssign, mulAssign, divAssign, modAssign, arrow, plus, minus, star, slash, percent, less,
    greater, assign, openParen, closeParen, openBracket, closeBracket, openBrace, closeBrace, comma,
    colon, dot, semicolon]

/-- Brackets inside which a line end means nothing. -/
def opens (s : Symbol) : Bool := s == openParen || s == openBracket || s == openBrace

def closes (s : Symbol) : Bool := s == closeParen || s == closeBracket || s == closeBrace

end Symbol

inductive TokenKind where
  | name (text : String)
  | int (value : Int64)
  | float (value : Double)
  | str (text : String)
  /-- The body of an f-string, its placeholders still to be read. -/
  | template (body : String)
  | symbol (s : Symbol)
  | newline
  | indent
  | dedent
  | eof
  deriving DecidableEq

/-- A token and the line on which it ends. -/
structure Token where
  kind : TokenKind
  line : Nat
  deriving DecidableEq

/-- A text is not a program; `line` is where that was noticed. -/
structure SyntaxError where
  message : String
  line : Nat
  deriving DecidableEq

end SnippetKernel.Source
