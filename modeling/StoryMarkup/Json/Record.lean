import StoryMarkup.Json.Reader

/-! Records: objects of which some fields are wanted. Of the other values only the form is
checked. -/
namespace StoryMarkup.Json

open Text (isAsciiDigit)

inductive Enclosure where
  | array
  | object
deriving DecidableEq, Repr

def passDigits : Step Unit := fun cs =>
  if cs.head?.any isAsciiDigit then .ok ((), cs.dropWhile isAsciiDigit) else stopUnless .openValue .badNumber cs

def passExponent : Step Unit
  | 'e' :: more | 'E' :: more =>
    passDigits (match more with
      | '+' :: digits | '-' :: digits => digits
      | digits => digits)
  | rest => .ok ((), rest)

def passPlaces : Step Unit
  | '.' :: more => do
    let ((), rest) ← passDigits more
    passExponent rest
  | rest => passExponent rest

def passNumber : Step Unit
  | '0' :: more => if more.head?.any isAsciiDigit then stopAt .badNumber more else passPlaces more
  | cs => do
    let ((), rest) ← passDigits cs
    passPlaces rest

/-- The characters up to the closing quote. Any four digits make an escape, halves of a pair among
them. -/
def passString : Nat → Step Unit
  | 0, cs => stopAt .openString cs
  | fuel + 1, cs =>
    match cs with
    | [] => stopAt .openString []
    | '"' :: rest => .ok ((), rest)
    | '\\' :: 'u' :: rest => match readHex4 rest with
      | .ok (_, more) => passString fuel more
      | .error e => .error e
    | '\\' :: c :: rest =>
      if "\"\\/bfnrt".toList.contains c then passString fuel rest else stopAt .badEscape (c :: rest)
    | c :: rest => if c.toNat < 32 then stopAt .controlCharacter cs else passString fuel rest

section
variable (limit : Nat)

def passKey : Step Unit := fun cs =>
  match skipSpace cs with
  | '"' :: more => do
    let ((), rest) ← passString limit more
    match skipSpace rest with
    | ':' :: more => return ((), more)
    | more => stopUnless .openObject .noColon more
  | more => stopUnless .openObject .noKey more

def passInto : Step (Option Enclosure) := fun cs =>
  match skipSpace cs with
  | [] => stopAt .openValue []
  | '[' :: more => match skipSpace more with
    | ']' :: rest => .ok (none, rest)
    | rest => .ok (some .array, rest)
  | '\x7b' :: more => match skipSpace more with
    | '\x7d' :: rest => .ok (none, rest)
    | rest => do
      let ((), rest) ← passKey limit rest
      return (some .object, rest)
  | '"' :: more => do
    let ((), rest) ← passString limit more
    return (none, rest)
  | '-' :: more => do
    let ((), rest) ← passNumber more
    return (none, rest)
  | 'n' :: more => do
    let (_, rest) ← readWord .null "ull".toList more
    return (none, rest)
  | 't' :: more => do
    let (_, rest) ← readWord (.bool true) "rue".toList more
    return (none, rest)
  | 'f' :: more => do
    let (_, rest) ← readWord (.bool false) "alse".toList more
    return (none, rest)
  | c :: more =>
    if isAsciiDigit c then do
      let ((), rest) ← passNumber (c :: more)
      return (none, rest)
    else stopAt .noValue (c :: more)

def passEnd : List Enclosure → Step (List Enclosure)
  | [], cs => .ok ([], cs)
  | .array :: outer, cs => match skipSpace cs with
    | ',' :: more => .ok (.array :: outer, more)
    | ']' :: more => passEnd outer more
    | more => stopUnless .openArray .noItemEnd more
  | .object :: outer, cs => match skipSpace cs with
    | ',' :: more => do
      let ((), rest) ← passKey limit more
      return (.object :: outer, rest)
    | '\x7d' :: more => passEnd outer more
    | more => stopUnless .openObject .noFieldEnd more

def passValues : Nat → List Enclosure → Step Unit
  | 0, _, cs => stopAt .openValue cs
  | fuel + 1, opened, cs => do
    match ← passInto limit cs with
    | (some e, rest) => passValues fuel (e :: opened) rest
    | (none, rest) => match ← passEnd limit opened rest with
      | ([], rest) => return ((), rest)
      | (opened, rest) => passValues fuel opened rest

def passValue : Step Json := fun cs => do
  let ((), rest) ← passValues limit limit [] cs
  return (.null, rest)

def readRecord (wanted : String → Bool) : Step Json := fun cs =>
  match skipSpace cs with
  | '\x7b' :: more => do
    let value (key : String) : Step Json := if wanted key then readValue limit (maxDepth - 1) else passValue limit
    let (fields, rest) ← readObject limit value more
    return (.object fields, rest)
  | more => readValue limit maxDepth more

end

def parseRecord? (wanted : String → Bool) (text : String) : Option Json :=
  (readWhole (readRecord (text.length + 1) wanted) text).toOption

end StoryMarkup.Json
