import StoryMarkup.Decimal.Reading
import StoryMarkup.Pattern.Reading
import StoryMarkup.Pattern.Tree

/-! The items of a pattern: characters, sets and conditions. -/
namespace StoryMarkup.Pattern

open Reader
open Text (CharSet isAsciiHexDigit)

inductive Item where
  /-- A character; as a byte it is one of ASCII where the pattern is not over Unicode. -/
  | char (c : Char) (isByte : Bool)
  | set (s : CharSet)
  | look (l : Look)

structure Located (α : Type) where
  value : α
  extent : Extent

def isMeta (c : Char) : Bool := "\\.+*?()|[]\x7b\x7d^$#&-~".toList.contains c

def isEscapeable (c : Char) : Bool :=
  isMeta c || (Text.isAscii c && !Text.isAsciiAlphanumeric c && c != '<' && c != '>')

def charOfHex? (digits : List Char) : Option Char :=
  if digits.isEmpty then none else ((Decimal.radixValue? 16 digits).filter (·.isValidChar)).map Char.ofNat

def hexDigits : Nat → Reader (List Char)
  | 0 => return []
  | n + 1 => do
    match ← peek? with
    | none => refuse .openEscape (← spot)
    | some c =>
      if isAsciiHexDigit c then
        pass
        return c :: (← hexDigits n)
      else refuse .hexDigit (← nextChar)

def bracedHex : Reader Char := do
  let brace ← here
  pass
  let digits ← takeAllSpaced isAsciiHexDigit
  let stop ← here
  match ← peek? with
  | none => refuse .openEscape (← since brace)
  | some '\x7d' =>
    pass
    if digits.isEmpty then refuse .emptyHex (← since brace)
    else match charOfHex? digits with
      | some c => return c
      | none => refuse .badHex ⟨brace + 1, stop⟩
  | some _ => refuse .hexDigit (← nextChar)

def readHex (count : Nat) : Reader Item := do
  pass
  match ← peek? with
  | none => refuse .openEscape (← spot)
  | some '\x7b' => return .char (← bracedHex) false
  | some _ =>
    let start ← here
    match charOfHex? (← hexDigits count) with
    | some c => return .char c (count == 2)
    | none => refuse .badHex (← since start)

def complementIf (negated : Bool) (s : CharSet) (extent : Extent) : Reader CharSet := do
  if !negated then return s
  else if (← flags).unicode then return s.complement
  else
    note .notText extent
    return s

def foldIf (f : Flags) (s : CharSet) : CharSet :=
  if !f.caseless then s else if f.unicode then Unicode.fold s else Unicode.foldAscii s

def propertyName : Reader (List Char) := do
  pass
  match ← peek? with
  | none => refuse .openEscape (← spot)
  | some '\x7b' =>
    pass
    let name ← takeAllSpaced (· != '\x7d')
    if ← eat "\x7d" then return name else refuse .openEscape (← spot)
  | some '\\' => refuse .propertyLetter (← nextChar)
  | some c =>
    pass
    return [c]

def readProperty (start : Nat) (negated : Bool) : Reader Item := do
  let name ← propertyName
  let extent ← since start
  if (← flags).unicode then
    match Unicode.query name with
    | .ok (s, outside) => return .set (← complementIf (negated != outside) (foldIf (← flags) s) extent)
    | .error e =>
      note (match e with | .noProperty => .unknownProperty | .noValue => .unknownValue) extent
      return .set .empty
  else
    note .notUnicode extent
    return .set .empty

def readClassLetter (start : Nat) (s ascii : CharSet) (negated : Bool) : Reader Item := do
  drop 1
  return .set (← complementIf negated (if (← flags).unicode then s else ascii) (← since start))

def wordLook (l : WordLook) : Reader Item := do return .look (.word (!(← flags).unicode) l)

/-- A word boundary after its letter, with the kind of boundary in braces if one stands there.
Braces that hold something else are left for a repetition. -/
def readBoundary (start : Nat) : Reader Item := do
  let isKindChar (c : Char) : Bool := Text.isAsciiLetter c || c == '-'
  let r ← get
  if (← peek?) == some '\x7b' then
    pass
    let first ← here
    match ← peek? with
    | none => refuse .boundaryOrCount (← since start)
    | some c =>
      if isKindChar c then
        let kind ← takeAllSpaced isKindChar
        let extent ← since first
        if ← eat "\x7d" then
          match String.ofList kind with
          | "start" => wordLook .start
          | "end" => wordLook .stop
          | "start-half" => wordLook .startHalf
          | "end-half" => wordLook .stopHalf
          | _ => refuse .unknownBoundary extent
        else refuse .openBoundary (← since r.place)
      else
        set r
        wordLook .boundary
  else wordLook .boundary

def readSign (start : Nat) (c : Char) : Reader Item := do
  match c with
  | 'a' => return .char (Char.ofNat 7) false
  | 'f' => return .char (Char.ofNat 12) false
  | 't' => return .char '\t' false
  | 'n' => return .char '\n' false
  | 'r' => return .char '\r' false
  | 'v' => return .char (Char.ofNat 11) false
  | 'A' => return .look .textStart
  | 'z' => return .look .textEnd
  | 'b' => readBoundary start
  | 'B' => wordLook .noBoundary
  | '<' => wordLook .start
  | '>' => wordLook .stop
  | _ => if isEscapeable c then return .char c false else refuse .unknownEscape (← since start)

def readEscape : Reader Item := do
  let start ← here
  drop 1
  match ← peek? with
  | none => refuse .openEscape (← since start)
  | some c => match c with
    | 'x' => readHex 2
    | 'u' => readHex 4
    | 'U' => readHex 8
    | 'p' => readProperty start false
    | 'P' => readProperty start true
    | 'd' => readClassLetter start Unicode.digit asciiDigit false
    | 'D' => readClassLetter start Unicode.digit asciiDigit true
    | 's' => readClassLetter start Unicode.whiteSpace asciiSpace false
    | 'S' => readClassLetter start Unicode.whiteSpace asciiSpace true
    | 'w' => readClassLetter start Unicode.word asciiWord false
    | 'W' => readClassLetter start Unicode.word asciiWord true
    | _ =>
      if Text.isAsciiDigit c then refuse .backreference ⟨start, (← here) + 1⟩
      else
        drop 1
        readSign start c

def readItem : Reader (Located Item) := do
  let start ← here
  match ← peek? with
  | some '\\' =>
    let item ← readEscape
    return ⟨item, ← since start⟩
  | some c =>
    drop 1
    return ⟨.char c false, ← since start⟩
  | none => refuse .openEscape (← spot)

def memberChar (c : Char) (isByte : Bool) (extent : Extent) : Reader Unit := do
  if !(← flags).unicode && !Text.isAscii c then note (if isByte then .notText else .notUnicode) extent

def itemTree (item : Located Item) : Reader Tree := do
  match item.value with
  | .look l => return .look l
  | .set s => return .set s
  | .char c isByte =>
    if isByte && !Text.isAscii c && !(← flags).unicode then note .notText item.extent
    return .set (foldIf (← flags) (.single c))

end StoryMarkup.Pattern
