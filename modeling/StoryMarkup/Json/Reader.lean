import StoryMarkup.Decimal.Reading
import StoryMarkup.Json.Basic
import StoryMarkup.Json.Error
import StoryMarkup.Text.Span

/-! Reading JSON text. Arrays and objects nest at most `maxDepth` deep. -/
namespace StoryMarkup.Json

open Text (isAsciiDigit)
open Decimal (digitValue)

def maxDepth : Nat := 127

/-- Where reading ended early: the text not yet read, and the bytes of it that belong to the
problem. -/
structure Stop where
  problem : Problem
  rest : List Char
  ahead : Nat
deriving DecidableEq, Repr

abbrev Step (α : Type) := List Char → Except Stop (α × List Char)

def Stop.locate (text : String) (s : Stop) : ReadError :=
  .ofIndex s.problem text (text.utf8ByteSize - Text.byteLength s.rest + s.ahead)

def stopBefore {α : Type} (problem : Problem) : Step α := fun rest => .error ⟨problem, rest, 0⟩

def stopAt {α : Type} (problem : Problem) : Step α := fun rest => .error ⟨problem, rest, 1⟩

def stopUnless {α : Type} (ended problem : Problem) : Step α
  | [] => stopAt ended []
  | rest => stopAt problem rest

def isSpace (c : Char) : Bool := c == ' ' || c == '\n' || c == '\t' || c == '\r'

def skipSpace (cs : List Char) : List Char := cs.dropWhile isSpace

def scaleDecimal : Nat → Float → Int → Option Float
  | 0, x, _ => some x
  | steps + 1, x, exponent =>
    if exponent.natAbs ≤ 308 then
      let power := Decimal.ofDecimal 1 exponent.natAbs
      if exponent ≥ 0 then
        let y := x * power
        if y.isInf then none else some y
      else some (x / power)
    else if x == 0 then some x
    else if exponent ≥ 0 then none
    else scaleDecimal steps (x / 1e308) (exponent + 308)

def greatestSignificand : Nat := Nat.pow 2 64 - 1

def takeDigits (significand : Nat) : List Char → Nat × Nat × List Char
  | [] => (significand, 0, [])
  | c :: cs =>
    if isAsciiDigit c then
      let more := 10 * significand + digitValue c
      if more ≤ greatestSignificand then
        let (s, n, rest) := takeDigits more cs
        (s, n + 1, rest)
      else (significand, 0, c :: cs)
    else (significand, 0, c :: cs)

def exponentLimit : Nat := Nat.pow 2 31 - 1

/-- Digits of an exponent up to its limit; the rest of a greater one starts with the digit that is
too much. -/
def takeExponent (n : Nat) : List Char → Except (List Char) (Nat × List Char)
  | [] => .ok (n, [])
  | c :: cs =>
    if isAsciiDigit c then
      let more := 10 * n + digitValue c
      if more ≤ exponentLimit then takeExponent more cs else .error (c :: cs)
    else .ok (n, c :: cs)

def scaled (significand : Nat) (exponent : Int) : Step Float := fun rest =>
  match scaleDecimal 8000000 (Decimal.ofNat significand) exponent with
  | some y => .ok (y, rest)
  | none => stopBefore .numberTooLarge rest

def readExponent (significand : Nat) (shift : Int) (cs : List Char) : Except Stop (Float × List Char) :=
  let (positive, digits) := match cs with
    | '+' :: ds => (true, ds)
    | '-' :: ds => (false, ds)
    | ds => (true, ds)
  if digits.head?.any isAsciiDigit then
    match takeExponent 0 digits with
    | .ok (n, rest) => scaled significand (if positive then shift + n else shift - n) rest
    | .error rest =>
      if significand != 0 && positive then stopAt .numberTooLarge rest
      else .ok (0, rest.dropWhile isAsciiDigit)
  else stopUnless .openValue .badNumber digits

def readScaled (significand : Nat) (shift : Int) : Step Float
  | 'e' :: more | 'E' :: more => readExponent significand shift more
  | rest => scaled significand shift rest

def readPlaces (significand : Nat) (shift : Int) (cs : List Char) : Except Stop (Float × List Char) :=
  if cs.head?.any isAsciiDigit then
    let (s, n, rest) := takeDigits significand cs
    readScaled s (shift - n) (rest.dropWhile isAsciiDigit)
  else stopUnless .openValue .badNumber cs

def signed (negative : Bool) (x : Float) : Float := if negative then -x else x

def wholeNumber (negative : Bool) (n : Nat) : Number :=
  if !negative then .int n
  else if n == 0 || n > Nat.pow 2 63 then .float (-(Decimal.ofNat n))
  else .int (-(n : Int))

def readDigits (negative : Bool) (cs : List Char) : Except Stop (Number × List Char) := do
  let (s, _, rest) := takeDigits 0 cs
  let dropped := (rest.takeWhile isAsciiDigit).length
  match rest.dropWhile isAsciiDigit with
  | '.' :: more =>
    let (x, rest) ← readPlaces s dropped more
    return (.float (signed negative x), rest)
  | more =>
    let isExponent := more.head? == some 'e' || more.head? == some 'E'
    if isExponent || dropped > 0 then
      let (x, rest) ← readScaled s dropped more
      return (.float (signed negative x), rest)
    else return (wholeNumber negative s, more)

/-- A number after its sign. No digit follows a zero at its start. -/
def readUnsigned (negative : Bool) (cs : List Char) : Except Stop (Number × List Char) :=
  match cs with
  | '0' :: more => if more.head?.any isAsciiDigit then stopAt .badNumber more else readDigits negative cs
  | _ => if cs.head?.any isAsciiDigit then readDigits negative cs else stopUnless .openValue .badNumber cs

def hex4? : List Char → Option (Nat × List Char)
  | a :: b :: c :: d :: rest => do
    let w ← Text.Table.hexDigit? a
    let x ← Text.Table.hexDigit? b
    let y ← Text.Table.hexDigit? c
    let z ← Text.Table.hexDigit? d
    some (((w * 16 + x) * 16 + y) * 16 + z, rest)
  | _ => none

/-- Four hexadecimal digits. Four bytes are taken before they are looked at. -/
def readHex4 (cs : List Char) : Except Stop (Nat × List Char) :=
  match hex4? cs with
  | some r => .ok r
  | none => if Text.byteLength cs < 4 then stopBefore .openString [] else .error ⟨.badEscape, cs, 4⟩

def readTrailing (first : Nat) : Step Char
  | '\\' :: 'u' :: more => do
    let (second, rest) ← readHex4 more
    if 0xDC00 ≤ second && second < 0xE000 then
      return (Char.ofNat (0x10000 + (first - 0xD800) * 0x400 + (second - 0xDC00)), rest)
    else stopBefore .loneSurrogate rest
  | '\\' :: more => stopUnless .openString .halfPair more
  | more => stopUnless .openString .halfPair more

/-- The character of a `\u` escape. Two halves of a surrogate pair make one character, and a half
alone is refused. -/
def readUnicode (cs : List Char) : Except Stop (Char × List Char) := do
  let (n, rest) ← readHex4 cs
  if 0xD800 ≤ n && n < 0xDC00 then readTrailing n rest
  else if 0xDC00 ≤ n && n < 0xE000 then stopBefore .loneSurrogate rest
  else return (Char.ofNat n, rest)

def readEscape : Step Char
  | '"' :: rest => .ok ('"', rest)
  | '\\' :: rest => .ok ('\\', rest)
  | '/' :: rest => .ok ('/', rest)
  | 'b' :: rest => .ok (Char.ofNat 8, rest)
  | 'f' :: rest => .ok (Char.ofNat 12, rest)
  | 'n' :: rest => .ok ('\n', rest)
  | 'r' :: rest => .ok ('\r', rest)
  | 't' :: rest => .ok ('\t', rest)
  | 'u' :: rest => readUnicode rest
  | rest => stopUnless .openString .badEscape rest

def readChars : Nat → List Char → Step String
  | 0, _, cs => stopAt .openString cs
  | fuel + 1, done, cs =>
    match cs with
    | [] => stopAt .openString []
    | '"' :: rest => .ok (String.ofList done.reverse, rest)
    | '\\' :: rest => match readEscape rest with
      | .ok (c, more) => readChars fuel (c :: done) more
      | .error e => .error e
    | c :: rest => if c.toNat < 32 then stopAt .controlCharacter cs else readChars fuel (c :: done) rest

def readString (limit : Nat) : Step String := readChars limit []

def readWord (value : Json) : List Char → Step Json
  | [], rest => .ok (value, rest)
  | w :: word, cs => match cs with
    | [] => stopAt .openValue []
    | c :: rest => if c == w then readWord value word rest else stopAt .misspelledWord cs

def readItems (value : Step Json) : Nat → List Json → Step Json
  | 0, _, cs => stopAt .openArray cs
  | fuel + 1, done, cs => do
    let (j, rest) ← value cs
    match skipSpace rest with
    | ',' :: more => match skipSpace more with
      | [] => stopAt .openValue []
      | ']' :: more => stopAt .trailingComma (']' :: more)
      | next => readItems value fuel (j :: done) next
    | ']' :: more => return (.array (j :: done).reverse, more)
    | more => stopUnless .openArray .noItemEnd more

def readArray (limit : Nat) (value : Step Json) : Step Json := fun cs =>
  match skipSpace cs with
  | [] => stopAt .openArray []
  | ']' :: more => .ok (.array [], more)
  | more => readItems value limit [] more

def readFields (limit : Nat) (value : String → Step Json) : Nat → List (String × Json) → Step (List (String × Json))
  | 0, _, cs => stopAt .openObject cs
  | fuel + 1, done, cs => do
    let (key, rest) ← readString limit (cs.drop 1)
    match skipSpace rest with
    | ':' :: more =>
      let (j, rest) ← value key more
      match skipSpace rest with
      | ',' :: more => match skipSpace more with
        | '"' :: more => readFields limit value fuel ((key, j) :: done) ('"' :: more)
        | '\x7d' :: more => stopAt .trailingComma ('\x7d' :: more)
        | more => stopUnless .openValue .noKey more
      | '\x7d' :: more => return (((key, j) :: done).reverse, more)
      | more => stopUnless .openObject .noFieldEnd more
    | more => stopUnless .openObject .noColon more

def readObject (limit : Nat) (value : String → Step Json) : Step (List (String × Json)) := fun cs =>
  match skipSpace cs with
  | '\x7d' :: more => .ok ([], more)
  | '"' :: more => readFields limit value limit [] ('"' :: more)
  | more => stopUnless .openObject .noKey more

/-- A value as it is written and the text after it; `depth` bounds the nesting, and `limit` the
length of what is read. -/
def readValue (limit : Nat) : Nat → Step Json
  | depth, cs =>
    match skipSpace cs with
    | [] => stopAt .openValue []
    | c :: rest =>
      match c with
      | 'n' => readWord .null "ull".toList rest
      | 't' => readWord (.bool true) "rue".toList rest
      | 'f' => readWord (.bool false) "alse".toList rest
      | '"' => do
        let (s, more) ← readString limit rest
        return (.string s, more)
      | '[' => match depth with
        | 0 => stopAt .tooDeep (c :: rest)
        | d + 1 => readArray limit (readValue limit d) rest
      | '\x7b' => match depth with
        | 0 => stopAt .tooDeep (c :: rest)
        | d + 1 => do
          let (fields, more) ← readObject limit (fun _ => readValue limit d) rest
          return (.object fields, more)
      | '-' => number true rest
      | _ => if isAsciiDigit c then number false (c :: rest) else stopAt .noValue (c :: rest)
where
  number (negative : Bool) (cs : List Char) : Except Stop (Json × List Char) := do
    let (n, rest) ← readUnsigned negative cs
    return (.number n, rest)

def readWhole (step : Step Json) (text : String) : Except ReadError Json :=
  match step text.toList with
  | .ok (j, rest) => match skipSpace rest with
    | [] => .ok j
    | more => .error (Stop.locate text ⟨.trailingText, more, 1⟩)
  | .error s => .error (s.locate text)

mutual

def merged : Json → Json
  | .array items => .array (mergedItems items)
  | .object fields => .object (Bindings.ofList (mergedFields fields)).entries
  | j => j

def mergedItems : List Json → List Json
  | [] => []
  | j :: rest => merged j :: mergedItems rest

def mergedFields : List (String × Json) → List (String × Json)
  | [] => []
  | (key, j) :: rest => (key, merged j) :: mergedFields rest

end

def parse (text : String) : Except ReadError Json := (readWhole (readValue (text.length + 1) maxDepth) text).map merged

def parse? (text : String) : Option Json := (parse text).toOption

end StoryMarkup.Json
