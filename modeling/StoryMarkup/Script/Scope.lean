/-! The three variable scopes and the sigils that select them. -/
namespace StoryMarkup.Script

inductive Scope where
  /-- Macros and values fixed before the story starts, written `@name`. -/
  | constants
  /-- Variables that last through the story, written `$name`. -/
  | story
  /-- Variables of one shown passage, written `_name`. -/
  | temp
deriving DecidableEq, Repr

namespace Scope

def sigil : Scope → Char
  | .constants => '@'
  | .story => '$'
  | .temp => '_'

def root : Scope → String
  | .constants => "constants"
  | .story => "story"
  | .temp => "temp"

def ofRoot? (name : String) : Option Scope :=
  if name == "story" then some .story
  else if name == "temp" then some .temp
  else if name == "constants" then some .constants
  else none

end Scope
end StoryMarkup.Script
