import StoryMarkup.Pattern.Item

/-! Classes written between brackets, which may stand in one another. -/
namespace StoryMarkup.Pattern

open Reader
open Text (CharSet isBlank)

def maxHeight : Nat := 250

/-- Something read, where it stands, and for each depth of nesting the first of its parts at that
depth. -/
structure Nested (α : Type) extends Located α where
  outline : List Extent := []

def besides (first second : List Extent) : List Extent :=
  match second with
  | [] => first
  | _ => first ++ second.drop first.length

def outlineOf {α : Type} (parts : List (Nested α)) : List Extent :=
  parts.foldl (fun outline part => besides outline part.outline) []

/-- The outline of what holds other parts. What is nested too deep for a pattern is not looked
into. -/
def outlineAround (extent : Extent) (inside : List Extent) : List Extent :=
  (extent :: inside).take (maxHeight + 1)

inductive SetOp where
  | meet
  | minus
  | apart

def SetOp.join : SetOp → CharSet → CharSet → CharSet
  | .meet, s, t => s.meet t
  | .minus, s, t => s.minus t
  | .apart, s, t => s.apart t

structure Bracket where
  opening : Extent
  negated : Bool
  left : Option (Nested CharSet × SetOp) := none
  start : Nat
  items : List (Nested CharSet) := []

namespace Bracket

def add (b : Bracket) (item : Nested CharSet) : Bracket := { b with items := item :: b.items }

def operand (b : Bracket) : Nested CharSet :=
  match b.items.reverse with
  | [] => { value := .empty, extent := ⟨b.start, b.start⟩ }
  | [item] => item
  | first :: rest =>
    let extent : Extent := ⟨first.extent.start, (rest.getLast?.getD first).extent.stop⟩
    { value := .unions (b.items.map (·.value)), extent
      outline := outlineAround extent (outlineOf (first :: rest)) }

def content (f : Flags) (b : Bracket) : Nested CharSet :=
  let right := b.operand
  match b.left with
  | none => right
  | some (l, op) =>
    let extent : Extent := ⟨l.extent.start, right.extent.stop⟩
    { value := op.join (foldIf f l.value) (foldIf f right.value), extent
      outline := outlineAround extent (besides l.outline right.outline) }

end Bracket

/-- A class written `[:name:]`, from its opening bracket on, with whether it is negated and its
length. -/
def asciiClass? (cs : List Char) : Option (CharSet × Bool × Nat) :=
  match cs with
  | '[' :: ':' :: more =>
    let (negated, more) := match more with
      | '^' :: more => (true, more)
      | _ => (false, more)
    let name := more.takeWhile (· != ':')
    match more.drop name.length with
    | ':' :: ']' :: _ =>
      (namedClass? (String.ofList name)).map fun s => (s, negated, name.length + if negated then 5 else 4)
    | _ => none
  | _ => none

/-- The character that decides whether a hyphen makes a range. Where space does not count, blanks
are passed over, and one number sign with the blanks after it. -/
def beyondHyphen (spaced : Bool) (cs : List Char) : Option Char :=
  if spaced then
    let seen := match cs.dropWhile isBlank with
      | '#' :: more => more.dropWhile isBlank
      | more => more
    seen.head? <|> cs.head?
  else cs.head?

def singleMember (item : Located Item) : Reader (Nested CharSet) := do
  match item.value with
  | .char c isByte =>
    memberChar c isByte item.extent
    return { value := .single c, extent := item.extent }
  | .set s => return { value := s, extent := item.extent }
  | .look _ => refuse .escapeInClass item.extent

def memberRange (first last : Located Item) : Reader (Nested CharSet) := do
  match first.value, last.value with
  | .char a isByteA, .char b isByteB =>
    let extent : Extent := ⟨first.extent.start, last.extent.stop⟩
    if a ≤ b then
      memberChar a isByteA first.extent
      memberChar b isByteB last.extent
      return { value := .range a b, extent }
    else refuse .rangeOrder extent
  | .char _ _, _ => refuse .rangeEnd last.extent
  | _, _ => refuse .rangeEnd first.extent

def readMember (opening : Extent) : Reader (Nested CharSet) := do
  let first ← readItem
  skipSpace
  match (← get).rest with
  | [] => refuse .openClass opening
  | '-' :: more =>
    let beyond := beyondHyphen (← flags).spaced more
    if beyond == some ']' || beyond == some '-' then singleMember first
    else
      pass
      if ← atEnd then refuse .openClass opening
      memberRange first (← readItem)
  | _ => singleMember first

def leadingHyphens (start : Nat) : Nat → Bracket → Reader Bracket
  | 0, b => return b
  | fuel + 1, b => do
    if (← peek?) == some '-' then
      let extent ← nextChar
      pass
      if ← atEnd then refuse .openClass ⟨start, start⟩
      leadingHyphens start fuel (b.add { value := .single '-', extent })
    else return b

def passInside (start : Nat) : Reader Unit := do
  pass
  if ← atEnd then refuse .openClass (← since start)

/-- The start of a class. A closing bracket that comes first stands for itself. -/
def openBracket : Reader Bracket := do
  let start ← here
  passInside start
  let negated := (← peek?) == some '^'
  if negated then passInside start
  let place ← here
  let b ← leadingHyphens start (← remaining) { opening := ⟨start, start⟩, negated, start := place }
  if b.items.isEmpty && (← peek?) == some ']' then
    let extent ← nextChar
    passInside start
    return { b with items := [{ value := .single ']', extent }], opening := ← since start }
  else return { b with opening := ← since start }

def closeBracket (b : Bracket) : Reader (Nested CharSet) := do
  let content := b.content (← flags)
  drop 1
  let extent ← since b.opening.start
  let value ← complementIf b.negated (foldIf (← flags) content.value) extent
  return { value, extent, outline := outlineAround extent content.outline }

def readMembers : Nat → List Bracket → Bracket → Reader (Nested CharSet)
  | 0, _, b => refuse .openClass b.opening
  | fuel + 1, outer, b => do
    skipSpace
    let r ← get
    let join (op : SetOp) : Reader (Nested CharSet) := do
      drop 2
      readMembers fuel outer { b with left := some (b.content r.flags, op), start := ← here, items := [] }
    match r.rest with
    | [] => refuse .openClass b.opening
    | ']' :: _ =>
      let s ← closeBracket b
      match outer with
      | [] => return s
      | around :: outer => readMembers fuel outer (around.add s)
    | '&' :: '&' :: _ => join .meet
    | '-' :: '-' :: _ => join .minus
    | '~' :: '~' :: _ => join .apart
    | '[' :: _ =>
      match asciiClass? r.rest with
      | some (s, negated, length) =>
        drop length
        let extent ← since r.place
        let value ← complementIf negated (foldIf r.flags s) extent
        readMembers fuel outer (b.add { value, extent })
      | none => readMembers fuel (b :: outer) (← openBracket)
    | _ => readMembers fuel outer (b.add (← readMember b.opening))

def readBracket : Reader (Nested CharSet) := do readMembers (← remaining) [] (← openBracket)

end StoryMarkup.Pattern
