import StoryMarkup.Text.Letter
import StoryMarkup.Text.Span

/-! Tokens of the expression language. -/
namespace StoryMarkup.Script

open Text (Span)

inductive Bracket where
  | round
  | square
  | curly
deriving DecidableEq, Repr

namespace Bracket

def openChar : Bracket → Char
  | .round => '('
  | .square => '['
  | .curly => '{'

def closeChar : Bracket → Char
  | .round => ')'
  | .square => ']'
  | .curly => '}'

end Bracket

/-- A template string is literal text and holes; a hole is the range of the expression between its
braces. -/
inductive TemplatePart where
  | text (s : String)
  | hole (span : Span)
deriving DecidableEq, Repr

inductive TokenKind where
  | ident (name : String)
  | number (x : Float)
  | string (s : String)
  | template (parts : List TemplatePart)
  | pattern (source flags : String)
  | opening (b : Bracket)
  | closing (b : Bracket)
  | comma
  | dot
  | atSign
  | op (sign : String)
  | comment (newlines : Nat)
  | eof
deriving Repr

structure Token where
  kind : TokenKind
  span : Span
deriving Repr

namespace TokenKind

def isOp (k : TokenKind) (sign : String) : Bool :=
  match k with
  | .op s => s == sign
  | _ => false

def isClosing (k : TokenKind) (b : Bracket) : Bool :=
  match k with
  | .closing c => c == b
  | _ => false

def isComma : TokenKind → Bool
  | .comma => true
  | _ => false

def isEof : TokenKind → Bool
  | .eof => true
  | _ => false

end TokenKind

def isIdentStart (c : Char) : Bool := Text.isAlphabetic c || c == '_' || c == '$'
def isIdentPart (c : Char) : Bool := Text.isAlphanumeric c || c == '_' || c == '$'

def leadingWords : List String :=
  ["return", "typeof", "case", "do", "else", "in", "instanceof", "new", "delete", "void", "throw", "of", "yield",
   "await"]

/-- The operator signs; a longer one stands before those it starts with. -/
def operatorSigns : List String :=
  ["===", "!==", "**=", "...", "&&=", "||=", "??=", "==", "!=", "<=", ">=", "&&", "||", "??", "?.", "=>", "++", "--",
   "+=", "-=", "*=", "/=", "%=", "**", "+", "-", "*", "/", "%", "<", ">", "=", "!", "?", ":", "&", "|", "^", "~", ";"]

def TokenKind.allowsPattern : TokenKind → Bool
  | .ident name => leadingWords.contains name
  | .number _ | .string _ | .template _ | .pattern .. | .closing _ => false
  | .op sign => sign != "++" && sign != "--"
  | _ => true

/-- Deepest nesting of template strings in one another and of expressions in one another. -/
def maxNesting : Nat := 64

end StoryMarkup.Script
