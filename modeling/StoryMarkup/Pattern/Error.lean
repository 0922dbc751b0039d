/-! What is wrong with a pattern, and in which part of its text. -/
namespace StoryMarkup.Pattern

structure Extent where
  start : Nat
  stop : Nat
deriving DecidableEq, Repr, Inhabited

inductive Problem where
  | escapeInClass
  | rangeOrder
  | rangeEnd
  | openClass
  | badDecimal
  | emptyHex
  | badHex
  | hexDigit
  | openEscape
  | unknownEscape
  | danglingNegation
  | repeatedFlag
  | repeatedNegation
  | openFlags
  | unknownFlag
  | repeatedName
  | emptyName
  | nameCharacter
  | openName
  | openGroup
  | strayBracket
  | tooDeep (limit : Nat)
  | countOrder
  | noCount
  | openCount
  | nothingToRepeat
  | openBoundary
  | unknownBoundary
  | boundaryOrCount
  | propertyLetter
  | backreference
  | lookAround
  | notUnicode
  | notText
  | unknownProperty
  | unknownValue
deriving DecidableEq, Repr

def Problem.message : Problem → String
  | .escapeInClass => "invalid escape sequence found in character class"
  | .rangeOrder => "invalid character class range, the start must be <= the end"
  | .rangeEnd => "invalid range boundary, must be a literal"
  | .openClass => "unclosed character class"
  | .badDecimal => "decimal literal invalid"
  | .emptyHex => "hexadecimal literal empty"
  | .badHex => "hexadecimal literal is not a Unicode scalar value"
  | .hexDigit => "invalid hexadecimal digit"
  | .openEscape => "incomplete escape sequence, reached end of pattern prematurely"
  | .unknownEscape => "unrecognized escape sequence"
  | .danglingNegation => "dangling flag negation operator"
  | .repeatedFlag => "duplicate flag"
  | .repeatedNegation => "flag negation operator repeated"
  | .openFlags => "expected flag but got end of regex"
  | .unknownFlag => "unrecognized flag"
  | .repeatedName => "duplicate capture group name"
  | .emptyName => "empty capture group name"
  | .nameCharacter => "invalid capture group character"
  | .openName => "unclosed capture group name"
  | .openGroup => "unclosed group"
  | .strayBracket => "unopened group"
  | .tooDeep limit => "exceed the maximum number of nested parentheses/brackets (" ++ toString limit ++ ")"
  | .countOrder => "invalid repetition count range, the start must be <= the end"
  | .noCount => "repetition quantifier expects a valid decimal"
  | .openCount => "unclosed counted repetition"
  | .nothingToRepeat => "repetition operator missing expression"
  | .openBoundary =>
    "special word boundary assertion is either unclosed or contains an invalid character"
  | .unknownBoundary =>
    "unrecognized special word boundary assertion, valid choices are: start, end, start-half or end-half"
  | .boundaryOrCount =>
    "found either the beginning of a special word boundary or a bounded repetition on a \\b with an opening brace, but no closing brace"
  | .propertyLetter => "invalid Unicode character class"
  | .backreference => "backreferences are not supported"
  | .lookAround => "look-around, including look-ahead and look-behind, is not supported"
  | .notUnicode => "Unicode not allowed here"
  | .notText => "pattern can match invalid UTF-8"
  | .unknownProperty => "Unicode property not found"
  | .unknownValue => "Unicode property value not found"

structure Fault where
  problem : Problem
  extent : Extent
  first : Option Extent := none
deriving DecidableEq, Repr

namespace Fault

/-- Carets under the extents, which are in order; the line has reached column `column`. An empty
extent has one caret. -/
def marks (column : Nat) : List Extent → List Char
  | [] => []
  | e :: rest =>
    let width := max 1 (e.stop - e.start)
    List.replicate (e.start - column) ' ' ++ List.replicate width '^' ++ marks (max column e.start + width) rest

def message (f : Fault) (pattern : String) : String :=
  "regex parse error:\n    " ++ pattern ++ "\n    " ++
    String.ofList (marks 0 (f.first.toList ++ [f.extent])) ++ "\nerror: " ++ f.problem.message

end Fault
end StoryMarkup.Pattern
