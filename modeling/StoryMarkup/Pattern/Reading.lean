import StoryMarkup.Pattern.Error
import StoryMarkup.Text.Blank

/-! The state of reading a pattern. A flag written inside a group holds up to the end of that
group. -/
namespace StoryMarkup.Pattern

open Text (isBlank)

structure Flags where
  caseless : Bool := false
  multiline : Bool := false
  dotAll : Bool := false
  lazy : Bool := false
  unicode : Bool := true
  lineFeedPairs : Bool := false
  spaced : Bool := false
deriving DecidableEq, Repr

def Flags.set? (f : Flags) (letter : Char) (value : Bool) : Option Flags :=
  match letter with
  | 'i' => some { f with caseless := value }
  | 'm' => some { f with multiline := value }
  | 's' => some { f with dotAll := value }
  | 'U' => some { f with lazy := value }
  | 'u' => some { f with unicode := value }
  | 'R' => some { f with lineFeedPairs := value }
  | 'x' => some { f with spaced := value }
  | _ => none

structure GroupName where
  name : String
  index : Nat
  extent : Extent
deriving Repr

structure Reading where
  rest : List Char
  place : Nat := 0
  flags : Flags := {}
  groups : Nat := 0
  names : List GroupName := []
  noted : Option Fault := none
deriving Repr

abbrev Reader := StateT Reading (Except Fault)

namespace Reader

def peek? : Reader (Option Char) := do return (← get).rest.head?

def atEnd : Reader Bool := do return (← get).rest.isEmpty

def remaining : Reader Nat := do return (← get).rest.length + 1

def here : Reader Nat := do return (← get).place

def since (start : Nat) : Reader Extent := do return ⟨start, ← here⟩

def spot : Reader Extent := do since (← here)

def nextChar : Reader Extent := do
  let place ← here
  return ⟨place, place + 1⟩

def refuse {α : Type} (problem : Problem) (extent : Extent) : Reader α := throw ⟨problem, extent, none⟩

def note (problem : Problem) (extent : Extent) : Reader Unit :=
  modify fun r => { r with noted := r.noted <|> some ⟨problem, extent, none⟩ }

def drop (n : Nat) : Reader Unit := modify fun r =>
  { r with rest := r.rest.drop n, place := r.place + (r.rest.take n).length }

def startsWith (s : String) : Reader Bool := do return s.toList.isPrefixOf (← get).rest

def eat (s : String) : Reader Bool := do
  if ← startsWith s then
    drop s.length
    return true
  else return false

/-- How many blanks and characters of comments stand at the start. A comment ends with its line. -/
def spaceLength (inComment : Bool) : List Char → Nat
  | [] => 0
  | c :: cs =>
    if inComment then spaceLength (c != '\n') cs + 1
    else if isBlank c then spaceLength false cs + 1
    else if c == '#' then spaceLength true cs + 1
    else 0

def skipSpace : Reader Unit := do
  let r ← get
  if r.flags.spaced then drop (spaceLength false r.rest)

def skipBlanks : Reader Unit := do drop ((← get).rest.takeWhile isBlank).length

def pass : Reader Unit := do
  drop 1
  skipSpace

def takeSpaced (p : Char → Bool) : Nat → Reader (List Char)
  | 0 => return []
  | fuel + 1 => do
    match ← peek? with
    | some c =>
      if p c then
        pass
        return c :: (← takeSpaced p fuel)
      else return []
    | none => return []

def takeAllSpaced (p : Char → Bool) : Reader (List Char) := do takeSpaced p (← remaining)

def flags : Reader Flags := do return (← get).flags

def setFlags (f : Flags) : Reader Unit := modify fun r => { r with flags := f }

end Reader
end StoryMarkup.Pattern
