import StoryMarkup.Pattern.Bracket

/-! Pattern text: alternatives of sequences, with repetitions and groups. -/
namespace StoryMarkup.Pattern

open Reader
open Text (CharSet)

def readNumber : Reader (Except Fault Nat) := do
  skipBlanks
  let start ← here
  let digits ← takeAllSpaced Text.isAsciiDigit
  let extent ← since start
  skipBlanks
  if digits.isEmpty then return .error ⟨.noCount, extent, none⟩
  else match (Decimal.radixValue? 10 digits).filter (· < Nat.pow 2 32) with
    | some n => return .ok n
    | none => return .error ⟨.badDecimal, extent, none⟩

def goOnCount (start : Nat) : Reader Unit := do
  if ← atEnd then refuse .openCount (← since start)

/-- The counts of a repetition, from its opening brace up to the closing one. That the pattern ends
is told before that the first number is missing or wrong. -/
def readCounts : Reader (Nat × Option Nat) := do
  let start ← here
  pass
  goOnCount start
  let least ← readNumber
  goOnCount start
  if (← peek?) == some ',' then
    pass
    goOnCount start
    let least ← least
    if (← peek?) == some '\x7d' then return (least, none)
    else
      let most ← (← readNumber)
      return (least, some most)
  else
    let count ← least
    return (count, some count)

/-- The parts of a sequence, last one first. A change of flags is a part without a tree. -/
abbrev Pieces := List (Nested (Option Tree))

def lastTree (pieces : Pieces) : Reader (Nested Tree × Pieces) := do
  match pieces with
  | ⟨⟨some value, extent⟩, outline⟩ :: rest => return ({ value, extent, outline }, rest)
  | _ => refuse .nothingToRepeat (← spot)

def repeatedTree (least : Nat) (most : Option Nat) (body : Nested Tree) : Reader (Nested (Option Tree)) := do
  let reluctant ← eat "?"
  let extent ← since body.extent.start
  return {
    value := some (body.value.repeated least most (reluctant == (← flags).lazy)), extent
    outline := outlineAround extent body.outline }

def readCounted (pieces : Pieces) : Reader Pieces := do
  let start ← here
  let (body, rest) ← lastTree pieces
  let (least, most) ← readCounts
  if (← peek?) == some '\x7d' then
    pass
    let piece ← repeatedTree least most body
    if most.all (least ≤ ·) then return piece :: rest else refuse .countOrder (← since start)
  else refuse .openCount (← since start)

def readRepetition (least : Nat) (most : Option Nat) (pieces : Pieces) : Reader Pieces := do
  let (body, rest) ← lastTree pieces
  drop 1
  return (← repeatedTree least most body) :: rest

/-- The letters of a flag group up to a colon or the closing bracket. Those read are in `seen`, last
one first, with their places; after a hyphen flags are turned off. -/
def readFlags : Nat → List (Char × Nat) → Flags → Reader (Flags × Bool)
  | 0, _, _ => do refuse .openFlags (← spot)
  | fuel + 1, seen, flags => do
    match ← peek? with
    | none => refuse .openFlags (← spot)
    | some c =>
      let place ← here
      let twice (problem : Problem) (go : Reader (Flags × Bool)) : Reader (Flags × Bool) :=
        match seen.lookup c with
        | some first => throw ⟨problem, ⟨place, place + 1⟩, some ⟨first, first + 1⟩⟩
        | none => go
      if c == ':' || c == ')' then
        match seen with
        | ('-', hyphen) :: _ => refuse .danglingNegation ⟨hyphen, hyphen + 1⟩
        | _ => return (flags, seen.isEmpty)
      else if c == '-' then
        twice .repeatedNegation do
          drop 1
          readFlags fuel ((c, place) :: seen) flags
      else
        match flags.set? c (seen.lookup '-').isNone with
        | none => refuse .unknownFlag ⟨place, place + 1⟩
        | some changed =>
          twice .repeatedFlag do
            drop 1
            readFlags fuel ((c, place) :: seen) changed

def isNameChar (first : Bool) (c : Char) : Bool :=
  if first then c == '_' || Text.isAlphabetic c
  else c == '_' || c == '.' || c == '[' || c == ']' || Text.isAlphanumeric c

def nameChars : Nat → Bool → Reader (List Char)
  | 0, _ => do refuse .openName (← spot)
  | fuel + 1, first => do
    match ← peek? with
    | none => refuse .openName (← spot)
    | some '>' => return []
    | some c =>
      if isNameChar first c then
        drop 1
        return c :: (← nameChars fuel false)
      else refuse .nameCharacter (← nextChar)

def readGroupName (index : Nat) : Reader Unit := do
  let start ← here
  let name := String.ofList (← nameChars (← remaining) true)
  let extent ← since start
  drop 1
  if name.isEmpty then refuse .emptyName extent
  match (← get).names.find? (·.name == name) with
  | some g => throw ⟨.repeatedName, extent, some g.extent⟩
  | none => modify fun r => { r with names := r.names ++ [⟨name, index, extent⟩] }

inductive Opening where
  | flags (f : Flags)
  | plain (f : Flags)
  | capture (index : Nat)

def newGroup : Reader Nat := do
  let index := (← get).groups + 1
  modify fun r => { r with groups := index }
  return index

def readOpening : Reader Opening := do
  let start ← here
  pass
  let inner ← spot
  if (← eat "?=") || (← eat "?!") || (← eat "?<=") || (← eat "?<!") then refuse .lookAround (← since start)
  else if (← eat "?P<") || (← eat "?<") then
    let index ← newGroup
    readGroupName index
    return .capture index
  else if ← eat "?" then
    if ← atEnd then refuse .openGroup ⟨start, start + 1⟩
    let (flags, isEmpty) ← readFlags (← remaining) [] (← flags)
    if ← eat ":" then return .plain flags
    else
      drop 1
      if isEmpty then refuse .nothingToRepeat inner else return .flags flags
  else return .capture (← newGroup)

structure Alternatives where
  start : Nat
  current : Nat
  done : List (Nested Tree) := []
  pieces : Pieces := []

namespace Alternatives

def startingAt (place : Nat) : Alternatives := { start := place, current := place }

def push (a : Alternatives) (piece : Nested (Option Tree)) : Alternatives := { a with pieces := piece :: a.pieces }

def sequence (a : Alternatives) (stop : Nat) : Nested Tree :=
  let extent : Extent := ⟨a.current, stop⟩
  let value := Tree.ofList (a.pieces.reverse.filterMap (·.value))
  match a.pieces with
  | [] => { value, extent }
  | [piece] => { value, extent := piece.extent, outline := piece.outline }
  | _ => { value, extent, outline := outlineAround extent (outlineOf a.pieces.reverse) }

def close (a : Alternatives) (stop : Nat) : Nested Tree :=
  let last := a.sequence stop
  match a.done with
  | [] => last
  | done =>
    let extent : Extent := ⟨a.start, stop⟩
    let all := (last :: done).reverse
    { value := Tree.firstOf (all.map (·.value)), extent, outline := outlineAround extent (outlineOf all) }

def next (a : Alternatives) (stop : Nat) : Alternatives :=
  { a with current := stop + 1, done := a.sequence stop :: a.done, pieces := [] }

end Alternatives

structure OpenGroup where
  start : Nat
  index : Option Nat
  outerFlags : Flags
  outer : Alternatives

def OpenGroup.close (g : OpenGroup) (body : Nested Tree) : Reader Alternatives := do
  setFlags g.outerFlags
  let extent ← since g.start
  let value := match g.index with
    | some index => Tree.group index body.value
    | none => body.value
  return g.outer.push { value := some value, extent, outline := outlineAround extent body.outline }

def dotSet (f : Flags) : CharSet :=
  if f.dotAll then .any
  else if f.lineFeedPairs then (CharSet.ofChars ['\r', '\n']).complement
  else (CharSet.single '\n').complement

def lineStart (f : Flags) : Look := if f.multiline then .lineStart f.lineFeedPairs else .textStart

def lineEnd (f : Flags) : Look := if f.multiline then .lineEnd f.lineFeedPairs else .textEnd

def readPlain : Reader (Nested (Option Tree)) := do
  let start ← here
  let f ← flags
  let tree ← match ← peek? with
    | some '.' =>
      drop 1
      if !f.unicode then note .notText (← since start)
      pure (.set (dotSet f))
    | some '^' =>
      drop 1
      pure (.look (lineStart f))
    | some '$' =>
      drop 1
      pure (.look (lineEnd f))
    | _ => itemTree (← readItem)
  return { value := some tree, extent := ← since start }

def readPieces : Nat → List OpenGroup → Alternatives → Reader (Nested Tree)
  | 0, _, _ => do refuse .openGroup (← spot)
  | fuel + 1, groups, a => do
    skipSpace
    let place ← here
    let goOn (pieces : Pieces) := readPieces fuel groups { a with pieces }
    match ← peek? with
    | none => match groups with
      | [] => return a.close place
      | g :: _ => refuse .openGroup ⟨g.start, g.start + 1⟩
    | some '(' =>
      let outerFlags ← flags
      let enter (index : Option Nat) : Reader (Nested Tree) := do
        readPieces fuel (⟨place, index, outerFlags, a⟩ :: groups) (.startingAt (← here))
      match ← readOpening with
      | .flags f =>
        setFlags f
        readPieces fuel groups (a.push { value := none, extent := ← since place })
      | .plain f =>
        setFlags f
        enter none
      | .capture index => enter (some index)
    | some ')' => match groups with
      | [] => refuse .strayBracket (← nextChar)
      | g :: groups =>
        drop 1
        readPieces fuel groups (← g.close (a.close place))
    | some '|' =>
      drop 1
      readPieces fuel groups (a.next place)
    | some '[' =>
      let s ← readBracket
      readPieces fuel groups (a.push { value := some (.set s.value), extent := s.extent, outline := s.outline })
    | some '?' => goOn (← readRepetition 0 (some 1) a.pieces)
    | some '*' => goOn (← readRepetition 0 none a.pieces)
    | some '+' => goOn (← readRepetition 1 none a.pieces)
    | some '\x7b' => goOn (← readCounted a.pieces)
    | some _ => readPieces fuel groups (a.push (← readPlain))

/-- The tree a whole text writes, with the names of its groups. How the text is written is looked at
first, then how deep its parts are nested, then what they mean. -/
def parse (source : List Char) : Except Fault (Tree × List (String × Nat)) := do
  let (tree, r) ← (readPieces (source.length + 1) [] (.startingAt 0)).run { rest := source }
  match tree.outline[maxHeight]?, r.noted with
  | some extent, _ => .error ⟨.tooDeep maxHeight, extent, none⟩
  | none, some fault => .error fault
  | none, none => .ok (tree.value, r.names.map fun g => (g.name, g.index))

end StoryMarkup.Pattern
