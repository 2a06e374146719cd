import ConstraintText.Source.Span

/-!
# Tokens

A token is a lexeme of the text with its kind, its span, whether it is the first one on its line,
and, for integers, its value.
-/
namespace ConstraintText

inductive TokenKind
  | integer
  | identifier
  | andWord
  | existsWord
  | plus
  | minus
  | equal
  | lessEqual
  | greaterEqual
  | less
  | greater
  | leftParen
  | rightParen
  | leftBracket
  | rightBracket
  | leftBrace
  | rightBrace
  | comma
  | colon
  | semicolon
  | arrow
  | finish
  deriving DecidableEq, Repr

namespace TokenKind

/-- Words that cannot be used as identifiers. -/
def isKeyword (k : TokenKind) : Bool := k == .andWord || k == .existsWord

def isRelation (k : TokenKind) : Bool := k == .equal || k == .lessEqual || k == .greaterEqual

def keyword? (word : String) : Option TokenKind :=
  if word = "and" then some .andWord
  else if word = "exists" then some .existsWord
  else none

/-- The kind as a message names it: its only lexeme, where it has only one. -/
def text : TokenKind → String
  | integer => "integer"
  | identifier => "identifier"
  | andWord => "and"
  | existsWord => "exists"
  | plus => "+"
  | minus => "-"
  | equal => "="
  | lessEqual => "<="
  | greaterEqual => ">="
  | less => "<"
  | greater => ">"
  | leftParen => "("
  | rightParen => ")"
  | leftBracket => "["
  | rightBracket => "]"
  | leftBrace => "\x7b"
  | rightBrace => "\x7d"
  | comma => ","
  | colon => ":"
  | semicolon => ";"
  | arrow => "->"
  | finish => "end of file"

def title : TokenKind → String
  | integer => "Integer"
  | identifier => "Identifier"
  | andWord => "And"
  | existsWord => "Exists"
  | plus => "Plus"
  | minus => "Minus"
  | equal => "Equal"
  | lessEqual => "LessEqual"
  | greaterEqual => "GreaterEqual"
  | less => "Less"
  | greater => "Greater"
  | leftParen => "LeftParen"
  | rightParen => "RightParen"
  | leftBracket => "LeftBracket"
  | rightBracket => "RightBracket"
  | leftBrace => "LeftBrace"
  | rightBrace => "RightBrace"
  | comma => "Comma"
  | colon => "Colon"
  | semicolon => "Semicolon"
  | arrow => "Arrow"
  | finish => "Eof"

def all : List TokenKind :=
  [integer, identifier, andWord, existsWord, plus, minus, equal, lessEqual, greaterEqual, less,
    greater, leftParen, rightParen, leftBracket, rightBracket, leftBrace, rightBrace, comma, colon,
    semicolon, arrow, finish]

def ofTitle? (title : String) : Option TokenKind := all.find? (·.title == title)

end TokenKind

structure Token where
  kind : TokenKind
  span : Span
  lexeme : String
  onNewLine : Bool
  value : Option Int
  deriving DecidableEq, Repr

namespace Token

def isFinish (t : Token) : Bool := t.kind == .finish

def text (t : Token) : String := s!"{t.kind.title}({t.lexeme})"

end Token
end ConstraintText
