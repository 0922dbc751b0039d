import StoryMarkup.Decimal.Binary
import StoryMarkup.Text.Case

/-! Numbers written as text, decimal or as the words for infinity and not-a-number. -/
namespace StoryMarkup.Decimal

open Text (isAsciiDigit lowerAscii)

def digitValue (c : Char) : Nat := c.toNat - 48

def digitsValue (cs : List Char) : Nat := cs.foldl (fun n c => 10 * n + digitValue c) 0

/-- The double closest to `mantissa * 10 ^ exponent`. Exponents beyond the range of doubles are
settled first, so that no large power is formed. -/
def ofDecimal (mantissa : Nat) (exponent : Int) : Float :=
  if mantissa == 0 then 0
  else
    let top := exponent + (Nat.toDigits 10 mantissa).length
    if top > 400 then 1.0 / 0.0
    else if top < -400 then 0
    else match exponent with
      | .ofNat e => Float.ofScientific (mantissa * Nat.pow 10 e) false 0
      | .negSucc e => Float.ofScientific mantissa true (e + 1)

def readExponent? (cs : List Char) : Option Int :=
  let (negative, digits) := match cs with
    | '-' :: ds => (true, ds)
    | '+' :: ds => (false, ds)
    | ds => (false, ds)
  if digits.isEmpty || !digits.all isAsciiDigit then none
  else
    let n : Int := digitsValue digits
    some (if negative then -n else n)

def readUnsigned? (cs : List Char) : Option Float :=
  let whole := cs.takeWhile isAsciiDigit
  let afterWhole := cs.dropWhile isAsciiDigit
  let (places, afterPlaces) := match afterWhole with
    | '.' :: more => (more.takeWhile isAsciiDigit, more.dropWhile isAsciiDigit)
    | more => ([], more)
  if whole.isEmpty && places.isEmpty then none
  else
    let mantissa := digitsValue (whole ++ places)
    let shift : Int := -(places.length : Int)
    match afterPlaces with
    | [] => some (ofDecimal mantissa shift)
    | e :: more =>
      if e == 'e' || e == 'E' then (readExponent? more).map fun n => ofDecimal mantissa (n + shift) else none

def read? (text : String) : Option Float :=
  let (negative, cs) := match text.toList with
    | '-' :: cs => (true, cs)
    | '+' :: cs => (false, cs)
    | cs => (false, cs)
  let word := String.ofList (cs.map lowerAscii)
  let magnitude : Option Float :=
    if word == "inf" || word == "infinity" then some (1.0 / 0.0)
    else if word == "nan" then some (0.0 / 0.0)
    else readUnsigned? cs
  magnitude.map fun x => if negative then -x else x

def radixDigit? (base : Nat) (c : Char) : Option Nat :=
  let n := c.toNat
  let d :=
    if 48 ≤ n && n ≤ 57 then n - 48
    else if 97 ≤ n && n ≤ 122 then n - 87
    else if 65 ≤ n && n ≤ 90 then n - 55
    else base
  if d < base then some d else none

def radixValue? (base : Nat) (cs : List Char) : Option Nat :=
  if cs.isEmpty then none
  else cs.foldlM (fun n c => (radixDigit? base c).map fun d => base * n + d) 0

def readCount? (base bound : Nat) (cs : List Char) : Option Nat :=
  let digits := match cs with
    | '+' :: ds => ds
    | ds => ds
  (radixValue? base digits).filter (· < bound)

def readWord? (base : Nat) (cs : List Char) : Option Int :=
  let signed : Option Int := match cs with
    | '-' :: ds => (radixValue? base ds).map fun n => -(n : Int)
    | '+' :: ds => (radixValue? base ds).map fun n => (n : Int)
    | ds => (radixValue? base ds).map fun n => (n : Int)
  signed.filter fun n => leastWord ≤ n && n ≤ greatestWord

def readIndex? (s : String) : Option Nat := readCount? 10 (Nat.pow 2 64) s.toList

end StoryMarkup.Decimal
