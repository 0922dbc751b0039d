import StoryMarkup.Json.Error
import StoryMarkup.Pattern.Error
import StoryMarkup.Text.Blank
import StoryMarkup.Text.Span

/-! What can go wrong with an expression, worded by `Cause.message`, and the part of the source it
happened in. -/
namespace StoryMarkup.Script

open Text (Span)

inductive SyntaxProblem where
  | strangeCharacter (c : Char)
  | openComment
  | openString
  | openTemplate
  | openPattern
  | hexNumber
  | decimalNumber (text : String)
  | byteEscape
  | unicodeEscape
  | unexpected (found : String)
  | expected (wanted found : String)
  | assignmentTarget
  | spread
  | emptyArgument
  | missing (bracket : Char)
  | mismatched (found wanted : Char)
  | json (reason : Json.ReadError)
deriving DecidableEq, Repr

def SyntaxProblem.message : SyntaxProblem → String
  | .strangeCharacter c => "unexpected character '" ++ c.toString ++ "'"
  | .openComment => "unterminated comment"
  | .openString => "unterminated string"
  | .openTemplate => "unterminated template string"
  | .openPattern => "unterminated regular expression"
  | .hexNumber => "invalid hexadecimal literal"
  | .decimalNumber text => "invalid number '" ++ text ++ "'"
  | .byteEscape => "invalid \\x escape"
  | .unicodeEscape => "invalid \\u escape"
  | .unexpected found => "unexpected " ++ found
  | .expected wanted found => "expected " ++ wanted ++ ", found " ++ found
  | .assignmentTarget => "invalid assignment target"
  | .spread => "unexpected spread"
  | .emptyArgument => "empty argument"
  | .missing bracket => "missing '" ++ bracket.toString ++ "'"
  | .mismatched found wanted => "mismatched '" ++ found.toString ++ "', expected '" ++ wanted.toString ++ "'"
  | .json reason => "JSON.parse: " ++ reason.message

inductive TypeProblem where
  | notIterable (kind : String)
  | notFunction (what : String)
  | noReceiver (method : String)
  | read (key kind : String)
  | write (key kind : String)
  | writeArray (key : String)
  | arrayLength
  | search (key kind : String)
  | macroCall (name : String)
  | callback (method : String)
  | repeatCount
  | radix
  | emptyReduce
  | assignTarget
deriving DecidableEq, Repr

def TypeProblem.message : TypeProblem → String
  | .notIterable kind => kind ++ " is not iterable"
  | .notFunction what => what ++ " is not a function"
  | .noReceiver method => "method '" ++ method ++ "' called without a receiver"
  | .read key kind => "cannot read property '" ++ key ++ "' of " ++ kind
  | .write key kind => "cannot set property '" ++ key ++ "' of " ++ kind
  | .writeArray key => "cannot set property '" ++ key ++ "' of an array"
  | .arrayLength => "invalid array length"
  | .search key kind => "cannot use 'in' to search for '" ++ key ++ "' in " ++ kind
  | .macroCall name => "macro @" ++ name ++ " cannot be called here"
  | .callback method => method ++ " expects a function"
  | .repeatCount => "invalid repeat count"
  | .radix => "toString radix must be between 2 and 36"
  | .emptyReduce => "reduce of empty array with no initial value"
  | .assignTarget => "Object.assign expects an object target"

inductive PatternProblem where
  | flag (c : Char)
  | malformed (pattern : String) (fault : Pattern.Fault)
  | tooLarge (limit : Nat)
deriving DecidableEq, Repr

def PatternProblem.message : PatternProblem → String
  | .flag c => "invalid flag '" ++ c.toString ++ "'"
  | .malformed pattern fault => fault.message pattern
  | .tooLarge limit => "Compiled regex exceeds size limit of " ++ toString limit ++ " bytes."

inductive Cause where
  | typeMismatch (problem : TypeProblem)
  | unknownName (name : String)
  | malformed (problem : SyntaxProblem)
  | readOnly (what : String)
  | tooManyIterations
  | callDepth (limit : Nat)
  | pattern (problem : PatternProblem)
  | textTooLong (limit : Nat)
  | nestingTooDeep (limit : Nat)
  | other (message : String)
deriving DecidableEq, Repr

def Cause.message : Cause → String
  | .typeMismatch p => "type error: " ++ p.message
  | .unknownName name => name ++ " is not defined"
  | .malformed p => "syntax error: " ++ p.message
  | .readOnly what => "cannot assign to " ++ what
  | .tooManyIterations => "too many iterations"
  | .callDepth limit =>
    "function call depth exceeded maximum (" ++ toString limit ++ "). Possible infinite recursion."
  | .pattern p => "invalid regular expression: " ++ p.message
  | .textTooLong limit => "string would be longer than " ++ toString limit ++ " characters"
  | .nestingTooDeep limit => "expression nesting too deep (maximum " ++ toString limit ++ ")"
  | .other message => message

structure ScriptError where
  cause : Cause
  span : Option Span := none
deriving DecidableEq, Repr

namespace ScriptError

def message (e : ScriptError) : String := e.cause.message

/-- Say where the error happened, unless that is known already. -/
def locate (e : ScriptError) (span : Span) : ScriptError :=
  match e.span with
  | some _ => e
  | none => { e with span := some span }

def malformed (problem : SyntaxProblem) (span : Span) : ScriptError := ⟨.malformed problem, some span⟩

def typeMismatch (problem : TypeProblem) : ScriptError := ⟨.typeMismatch problem, none⟩

/-- The part of the source the error points at, shortened, when its span lies in the source. -/
def excerpt? (e : ScriptError) (source : List Char) : Option String := do
  let span ← e.span
  (span.extract? source).map Text.clip

end ScriptError
end StoryMarkup.Script
