import StoryMarkup.Decimal.Shortest
import StoryMarkup.Json.Basic
import StoryMarkup.Text.Quoted

/-! JSON text, compact or indented by two spaces. Of all characters only controls are escaped. -/
namespace StoryMarkup.Json

/-- Plain notation from `1e-5` up to `1e16`, where a whole number ends in `.0`, and scientific
notation elsewhere; of two equally close shortest texts the one with the even last digit. -/
def floatText (b : Decimal.Binary) : String :=
  let sign := if b.negative then "-" else ""
  if b.mantissa == 0 then sign ++ "0.0"
  else
    let d := Decimal.shortest .even b
    let top := d.exponent + (Decimal.decimalLength d.digits : Int)
    if -5 < top && top ≤ 16 then
      if d.exponent < 0 then sign ++ d.plain else sign ++ d.plain ++ ".0"
    else sign ++ d.scientific

def numberText : Number → String
  | .int n => if n < 0 then "-" ++ Decimal.digitsText n.natAbs else Decimal.digitsText n.natAbs
  | .float x => match Decimal.decode x with
    | .finite b => floatText b
    | _ => "null"

def escapeChar (c : Char) : List Char :=
  if c == '"' then ['\\', '"']
  else if c == '\\' then ['\\', '\\']
  else if c == '\n' then ['\\', 'n']
  else if c == '\t' then ['\\', 't']
  else if c == '\r' then ['\\', 'r']
  else if c.toNat == 8 then ['\\', 'b']
  else if c.toNat == 12 then ['\\', 'f']
  else if c.toNat < 32 then
    ['\\', 'u', '0', '0', Text.hexDigitChar (c.toNat / 16), Text.hexDigitChar (c.toNat % 16)]
  else [c]

def stringText (s : String) : String := "\"" ++ String.ofList (s.toList.flatMap escapeChar) ++ "\""

mutual

def compact : Json → String
  | .null => "null"
  | .bool b => if b then "true" else "false"
  | .number n => numberText n
  | .string s => stringText s
  | .array items => "[" ++ String.intercalate "," (compactItems items) ++ "]"
  | .object fields => "\x7b" ++ String.intercalate "," (compactFields fields) ++ "\x7d"

def compactItems : List Json → List String
  | [] => []
  | j :: rest => compact j :: compactItems rest

def compactFields : List (String × Json) → List String
  | [] => []
  | (k, j) :: rest => (stringText k ++ ":" ++ compact j) :: compactFields rest

end

def newline (depth : Nat) : String := "\n" ++ String.ofList (List.replicate (2 * depth) ' ')

mutual

def pretty : Json → Nat → String
  | .null, _ => "null"
  | .bool b, _ => if b then "true" else "false"
  | .number n, _ => numberText n
  | .string s, _ => stringText s
  | .array [], _ => "[]"
  | .array (j :: rest), depth =>
    let sep := "," ++ newline (depth + 1)
    "[" ++ newline (depth + 1) ++ String.intercalate sep (prettyItems (j :: rest) (depth + 1)) ++ newline depth ++ "]"
  | .object [], _ => "\x7b\x7d"
  | .object (f :: rest), depth =>
    let sep := "," ++ newline (depth + 1)
    "\x7b" ++ newline (depth + 1) ++ String.intercalate sep (prettyFields (f :: rest) (depth + 1))
      ++ newline depth ++ "\x7d"

def prettyItems : List Json → Nat → List String
  | [], _ => []
  | j :: rest, depth => pretty j depth :: prettyItems rest depth

def prettyFields : List (String × Json) → Nat → List String
  | [], _ => []
  | (k, j) :: rest, depth => (stringText k ++ ": " ++ pretty j depth) :: prettyFields rest depth

end

end StoryMarkup.Json
