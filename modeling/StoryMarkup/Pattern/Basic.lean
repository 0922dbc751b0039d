import StoryMarkup.Pattern.Reader
import StoryMarkup.Pattern.Search
import StoryMarkup.Pattern.Size
import StoryMarkup.Script.Error

/-! Patterns ready to match, made from a literal with flags or from a text taken literally. -/
namespace StoryMarkup

open Script (ScriptError PatternProblem)

structure Pattern where
  source : String
  flags : String
  program : Pattern.Program
  names : List (String × Nat) := []

namespace Pattern

def refuse (problem : PatternProblem) : Except ScriptError Pattern := .error ⟨.pattern problem, none⟩

def ofTree (source flags : String) (names : List (String × Nat)) (t : Tree) : Except ScriptError Pattern :=
  if t.fits then .ok { source, flags, program := Program.ofTree t, names }
  else refuse (.tooLarge Tree.maxSize)

/-- Letters that may follow a literal; those that do not change how it matches are passed over. -/
def literalFlags (flags : String) : Except ScriptError (List Char) :=
  match flags.toList.find? fun c => !"imsguy".toList.contains c with
  | some c => .error ⟨.pattern (.flag c), none⟩
  | none => .ok (flags.toList.filter fun c => "ims".toList.contains c)

def flagged (letters source : List Char) : List Char :=
  if letters.isEmpty then source else ['(', '?'] ++ letters ++ ')' :: source

def compile (source flags : String) : Except ScriptError Pattern := do
  let letters ← literalFlags flags
  let text := flagged letters source.toList
  match parse text with
  | .ok (t, names) => ofTree source flags names t
  | .error fault => refuse (.malformed (String.ofList text) fault)

def ofText (s : String) : Except ScriptError Pattern := ofTree s "" [] (Tree.literal s.toList)

def isGlobal (p : Pattern) : Bool := p.flags.toList.contains 'g'

def display (p : Pattern) : String := "/" ++ p.source ++ "/" ++ p.flags

end Pattern

def Text.slice (text : Array Char) (start stop : Nat) : String := String.ofList (text.extract start stop).toList

namespace Pattern

def Match.text (m : Match) (text : Array Char) : String := Text.slice text m.start m.stop

def Match.groupTexts (m : Match) (text : Array Char) : List (Option String) :=
  m.groups.map fun g => g.map fun (start, stop) => Text.slice text start stop

def split (p : Pattern) (text : Array Char) : List String :=
  pieces 0 (p.program.allMatches text)
where
  pieces (start : Nat) : List Match → List String
    | [] => [Text.slice text start text.size]
    | m :: rest => Text.slice text start m.start :: pieces m.stop rest

def Match.reference (p : Pattern) (m : Match) (text : Array Char) (name : List Char) : List Char :=
  let index := match Decimal.readIndex? (String.ofList name) with
    | some i => some i
    | none => p.names.lookup (String.ofList name)
  match index with
  | some i => ((m.groupTexts text)[i]?.join.getD "").toList
  | none => []

def isReferenceChar (c : Char) : Bool := Text.isAsciiAlphanumeric c || c == '_'

/-- A replacement text with its references filled in: a dollar sign and the longest name after it, a
name in braces, or two dollar signs for one. -/
def Match.expand (p : Pattern) (m : Match) (text : Array Char) : Nat → List Char → List Char
  | 0, cs => cs
  | fuel + 1, cs =>
    let lead := cs.takeWhile (· != '$')
    match cs.drop lead.length with
    | [] => lead
    | _ :: rest =>
      match rest with
      | '$' :: more => lead ++ '$' :: m.expand p text fuel more
      | '\x7b' :: more =>
        let name := more.takeWhile (· != '\x7d')
        match more.drop name.length with
        | [] => lead ++ '$' :: m.expand p text fuel rest
        | _ :: after => lead ++ m.reference p text name ++ m.expand p text fuel after
      | _ =>
        let name := rest.takeWhile isReferenceChar
        if name.isEmpty then lead ++ '$' :: m.expand p text fuel rest
        else lead ++ m.reference p text name ++ m.expand p text fuel (rest.drop name.length)

end Pattern
end StoryMarkup
