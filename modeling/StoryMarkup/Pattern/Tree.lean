import StoryMarkup.Unicode.Fold
import StoryMarkup.Unicode.Query

/-! Patterns as trees. -/
namespace StoryMarkup.Pattern

open Text (CharSet)

/-! The classes of ASCII characters that patterns call by name. -/

def asciiDigit : CharSet := .range '0' '9'

def asciiLetter : CharSet := .unions [.range 'a' 'z', .range 'A' 'Z']

def asciiAlphanumeric : CharSet := asciiLetter.union asciiDigit

def asciiWord : CharSet := asciiAlphanumeric.union (.single '_')

def asciiSpace : CharSet := .unions [.codes 9 13, .single ' ']

def namedClass? (name : String) : Option CharSet :=
  match name with
  | "alnum" => some asciiAlphanumeric
  | "alpha" => some asciiLetter
  | "ascii" => some (.codes 0 127)
  | "blank" => some (.ofChars ['\t', ' '])
  | "cntrl" => some (.unions [.codes 0 31, .codes 127 127])
  | "digit" => some asciiDigit
  | "graph" => some (.range '!' '~')
  | "lower" => some (.range 'a' 'z')
  | "print" => some (.range ' ' '~')
  | "punct" => some ((CharSet.range '!' '~').minus asciiAlphanumeric)
  | "space" => some asciiSpace
  | "upper" => some (.range 'A' 'Z')
  | "word" => some asciiWord
  | "xdigit" => some (.unions [asciiDigit, .range 'a' 'f', .range 'A' 'F'])
  | _ => none

inductive WordLook where
  | boundary
  | noBoundary
  | start
  | stop
  | startHalf
  | stopHalf
deriving DecidableEq, Repr

def WordLook.holds (before after : Bool) : WordLook → Bool
  | .boundary => before != after
  | .noBoundary => before == after
  | .start => !before && after
  | .stop => before && !after
  | .startHalf => !before
  | .stopHalf => !after

inductive Look where
  | textStart
  | textEnd
  /-- With `pairs` a carriage return ends a line too, alone or together with the line feed after
  it. -/
  | lineStart (pairs : Bool)
  | lineEnd (pairs : Bool)
  | word (ascii : Bool) (l : WordLook)
deriving DecidableEq, Repr

def isWord (ascii : Bool) (c : Char) : Bool :=
  if ascii || Text.isAscii c then Text.isAsciiAlphanumeric c || c == '_' else Unicode.word.contains c

def Look.holds (before after : Option Char) : Look → Bool
  | .textStart => before.isNone
  | .textEnd => after.isNone
  | .lineStart pairs =>
    before.isNone || before == some '\n' || (pairs && before == some '\r' && after != some '\n')
  | .lineEnd false => after.isNone || after == some '\n'
  | .lineEnd true => after.isNone || after == some '\r' || (after == some '\n' && before != some '\r')
  | .word ascii l => l.holds (before.any (isWord ascii)) (after.any (isWord ascii))

inductive Tree where
  | empty
  | set (s : CharSet)
  | look (l : Look)
  | group (index : Nat) (body : Tree)
  | times (least : Nat) (most : Option Nat) (greedy : Bool) (body : Tree)
  | seq (first second : Tree)
  | alt (first second : Tree)
deriving Repr

namespace Tree

def consumes : Tree → Bool
  | .empty | .look _ => false
  | .set _ => true
  | .group _ body => body.consumes
  | .times least _ _ body => least > 0 && body.consumes
  | .seq a b => a.consumes || b.consumes
  | .alt a b => a.consumes && b.consumes

def isWidthless : Tree → Bool
  | .empty | .look _ => true
  | .set _ => false
  | .group _ body => body.isWidthless
  | .times _ _ _ body => body.isWidthless
  | .seq a b => a.isWidthless && b.isWidthless
  | .alt a b => a.isWidthless && b.isWidthless

def lastGroup : Tree → Nat
  | .empty | .set _ | .look _ => 0
  | .group index body => max index body.lastGroup
  | .times _ _ _ body => body.lastGroup
  | .seq a b => max a.lastGroup b.lastGroup
  | .alt a b => max a.lastGroup b.lastGroup

/-- A repetition. What takes no character is tried at most once, and no repetition at all is the
empty pattern. -/
def repeated (least : Nat) (most : Option Nat) (greedy : Bool) (body : Tree) : Tree :=
  let (least, most) := if body.isWidthless then (min least 1, some (min (most.getD 1) 1)) else (least, most)
  if most == some 0 then .empty
  else if least == 1 && most == some 1 then body
  else .times least most greedy body

def ofList : List Tree → Tree
  | [] => .empty
  | [t] => t
  | t :: rest => .seq t (ofList rest)

def set? : Tree → Option CharSet
  | .set s => some s
  | _ => none

def alternatives : List Tree → Tree
  | [] => .empty
  | [t] => t
  | t :: rest => .alt t (alternatives rest)

def firstOf (ts : List Tree) : Tree :=
  match ts, ts.mapM set? with
  | _ :: _ :: _, some ss => .set (.unions ss)
  | _, _ => alternatives ts

def literal (cs : List Char) : Tree := ofList (cs.map fun c => .set (.single c))

end Tree

end StoryMarkup.Pattern
