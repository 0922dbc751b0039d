import StoryMarkup.Decimal.Shortest
import StoryMarkup.Script.Machine

/-! Numbers: reading them from the start of a text, writing them in a base or with fixed places. -/
namespace StoryMarkup.Script

def notANumber : Float := 0.0 / 0.0

def explicitBase? (x : Float) : Option Nat :=
  if Decimal.isFinite x && x != 0 then some (Decimal.toCount32 x) else none

def digitsNumber (base : Nat) (digits : List Nat) : Float :=
  digits.foldl (fun n d => n * Decimal.ofNat base + Decimal.ofNat d) 0

def leadingDigits (base : Nat) : List Char → List Nat
  | [] => []
  | c :: cs => match Decimal.radixDigit? base c with
    | some d => d :: leadingDigits base cs
    | none => []

/-- The integer a text starts with: an optional sign, then digits, after `0x` those of base
sixteen. -/
def parseInteger (text : String) (base : Option Float) : Float :=
  let trimmed := text.toList.dropWhile Text.isBlank
  let negative := trimmed.head? == some '-'
  let unsigned := if negative || trimmed.head? == some '+' then trimmed.drop 1 else trimmed
  let asked := base.bind explicitBase?
  let isHex := unsigned.head? == some '0' && ((unsigned.drop 1).head? == some 'x' ||
    (unsigned.drop 1).head? == some 'X')
  let (base, digits) :=
    if (asked.isNone || asked == some 16) && isHex then (16, unsigned.drop 2) else (asked.getD 10, unsigned)
  if base < 2 || base > 36 then notANumber
  else
    let ds := leadingDigits base digits
    if ds.isEmpty then notANumber
    else
      let n := digitsNumber base ds
      if negative then -n else n

/-- The longest run at the start that could be a decimal: sign, digits, a point with places, and an
exponent that has digits. -/
def decimalRun (cs : List Char) : List Char :=
  let sign := match cs with
    | c :: _ => if c == '-' || c == '+' then [c] else []
    | [] => []
  let rest := cs.drop sign.length
  let whole := rest.takeWhile Text.isAsciiDigit
  let rest := rest.drop whole.length
  let places := match rest with
    | '.' :: more => '.' :: more.takeWhile Text.isAsciiDigit
    | _ => []
  sign ++ whole ++ places ++ exponentRun (rest.drop places.length)

def parseDecimal (text : String) : Float :=
  let trimmed := text.toList.dropWhile Text.isBlank
  let unsigned := trimmed.dropWhile fun c => c == '-' || c == '+'
  if "Infinity".toList.isPrefixOf unsigned then
    if trimmed.head? == some '-' then -1.0 / 0.0 else 1.0 / 0.0
  else
    let run := ((decimalRun trimmed).reverse.dropWhile (· == '.')).reverse
    (Decimal.read? (String.ofList run)).getD notANumber

def fixedText (x places : Float) : String :=
  match Decimal.decode x with
  | .finite b => b.fixed (min 100 (Decimal.toCount places))
  | _ => numberText x

def digitChar (d : Nat) : Char := if d < 10 then Char.ofNat (48 + d) else Char.ofNat (87 + d)

/-- The digits of `n`, last one first, with room for `fuel` of them. -/
def digitsBackward (base : Nat) : Nat → Nat → List Char
  | 0, _ => []
  | fuel + 1, n => digitChar (n % base) :: (if n / base == 0 then [] else digitsBackward base fuel (n / base))

/-- A number written in a base. Fractions and numbers that are not finite are written in base
ten. -/
def baseText (x : Float) (base : Nat) : String :=
  if base == 10 || !Decimal.isIntegral x then numberText x
  else
    let digits := (digitsBackward base 64 (Decimal.toCount x.abs)).reverse
    String.ofList (if x < 0 then '-' :: digits else digits)

namespace ScriptM

variable {ω : Type}

def callNumberMethod (x : Float) (m : NumberMethod) (args : List Value) : ScriptM ω Value := do
  match m with
  | .toFixed =>
    let places ← match args with
      | v :: _ => toNumber v
      | [] => pure notANumber
    return .text (fixedText x places)
  | .toString =>
    let base ← match args with
      | [] | .undefined :: _ => pure 10
      | v :: _ => do pure (Decimal.toCount32 (← toNumber v))
    if base < 2 || base > 36 then refuse .radix else return .text (baseText x base)

end ScriptM
end StoryMarkup.Script
