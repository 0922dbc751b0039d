import StoryMarkup.Markup.Template

/-! What can be wrong with the text of a passage. -/
namespace StoryMarkup.Markup

inductive Problem where
  | tooDeep (limit : Nat)
  | openBody
  | openElement (name : String)
  | illegalEscape (c : Char)
  | openComment
  | bannedElement (name : String)
  | emptyId
  | emptyClass
  | openTag (name : String)
  | attribute (element : String)
  | openAttribute (element : String)
  | attributeBracket
  | emptyExpression
  | missingValue (element : String)
  | emptyIndex
  | iterationMissing (name : String)
  | iterationBinding (name : String)
  | iterationWord (name : String)
  | iterationSingle (name : String)
  | iterationEmpty (name : String)
  | openLink
  | link
  | script (cause : Script.Cause)
deriving DecidableEq, Repr

def Problem.message : Problem → String
  | .tooDeep limit => "markup nested too deeply (more than " ++ toString limit ++ " levels)"
  | .openBody => "missing '\x7d' to close the macro body"
  | .openElement name => "missing closing tag for <" ++ name ++ ">"
  | .illegalEscape c => "illegal escape '\\" ++ c.toString ++ "'"
  | .openComment => "unterminated comment"
  | .bannedElement name => "<" ++ name ++ "> is not allowed"
  | .emptyId => "empty #id shorthand"
  | .emptyClass => "empty .class shorthand"
  | .openTag name => "unterminated <" ++ name ++ "> tag"
  | .attribute element => "invalid attribute syntax in <" ++ element ++ ">"
  | .openAttribute element => "unterminated attribute value in <" ++ element ++ ">"
  | .attributeBracket => "expected ')' after attribute expression"
  | .emptyExpression => "empty attribute expression"
  | .missingValue element => "missing attribute value in <" ++ element ++ ">"
  | .emptyIndex => "empty index"
  | .iterationMissing name => "@" ++ name ++ " needs (_name of ...)"
  | .iterationBinding name => "@" ++ name ++ " expects a temporary variable (_name) before 'of'"
  | .iterationWord name => "expected 'of' in @" ++ name
  | .iterationSingle name => "@" ++ name ++ " takes a single iterable"
  | .iterationEmpty name => "missing iterable in @" ++ name
  | .openLink => "unterminated link"
  | .link => "invalid link syntax"
  | .script cause => cause.message

structure ParseError where
  problem : Problem
  loc : Location
  sample : String
deriving DecidableEq, Repr

namespace ParseError

def message (e : ParseError) : String := e.problem.message

def text (e : ParseError) : String :=
  "Parse error in " ++ e.loc.passage ++ " at line " ++ toString e.loc.line ++ ": " ++ e.message

def template (e : ParseError) : Template := .error e.message e.sample e.loc

end ParseError

structure Warning where
  message : String
  loc : Location
deriving DecidableEq, Repr

def Warning.text (w : Warning) : String :=
  "Warning in " ++ w.loc.passage ++ " at line " ++ toString w.loc.line ++ ": " ++ w.message

end StoryMarkup.Markup
