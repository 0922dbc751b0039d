/-! Why a text is no JSON, and where. -/
namespace StoryMarkup.Json

inductive Problem where
  | openArray
  | openObject
  | openString
  | openValue
  | noColon
  | noItemEnd
  | noFieldEnd
  | misspelledWord
  | noValue
  | badEscape
  | badNumber
  | numberTooLarge
  | controlCharacter
  | noKey
  | loneSurrogate
  | trailingComma
  | trailingText
  | halfPair
  | tooDeep
deriving DecidableEq, Repr

def Problem.message : Problem → String
  | .openArray => "EOF while parsing a list"
  | .openObject => "EOF while parsing an object"
  | .openString => "EOF while parsing a string"
  | .openValue => "EOF while parsing a value"
  | .noColon => "expected `:`"
  | .noItemEnd => "expected `,` or `]`"
  | .noFieldEnd => "expected `,` or `\x7d`"
  | .misspelledWord => "expected ident"
  | .noValue => "expected value"
  | .badEscape => "invalid escape"
  | .badNumber => "invalid number"
  | .numberTooLarge => "number out of range"
  | .controlCharacter => "control character (\\u0000-\\u001F) found while parsing a string"
  | .noKey => "key must be a string"
  | .loneSurrogate => "lone leading surrogate in hex escape"
  | .trailingComma => "trailing comma"
  | .trailingText => "trailing characters"
  | .halfPair => "unexpected end of hex escape"
  | .tooDeep => "recursion limit exceeded"

structure ReadError where
  problem : Problem
  line : Nat
  column : Nat
deriving DecidableEq, Repr

namespace ReadError

def message (e : ReadError) : String :=
  e.problem.message ++ " at line " ++ toString e.line ++ " column " ++ toString e.column

def ofIndex (problem : Problem) (text : String) (index : Nat) : ReadError :=
  let seen := text.toUTF8.data.toList.take index
  ⟨problem, seen.count 10 + 1, (seen.reverse.takeWhile (· != 10)).length⟩

end ReadError
end StoryMarkup.Json
