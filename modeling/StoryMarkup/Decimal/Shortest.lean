import StoryMarkup.Decimal.Binary

/-!
The fewest decimal digits that read back as the same double, and of those the closest. On the grid
of multiples of `10 ^ k` only the two grid points around the number can be closest to it, so these
are tried for finer and finer grids.
-/
namespace StoryMarkup.Decimal

/-! The integer closest to a quotient, with the choice between two equally close ones left open. -/

inductive Tie where
  | up
  | even
deriving DecidableEq, Repr

/-- Halfway between `q` and `q + 1`, whether the upper one is taken. -/
def Tie.goesUp : Tie → Nat → Bool
  | .up, _ => true
  | .even, q => q % 2 == 1

def roundDiv (tie : Tie) (num den : Nat) : Nat :=
  let q := num / den
  let r := num % den
  if 2 * r < den then q
  else if den < 2 * r then q + 1
  else if tie.goesUp q then q + 1 else q

structure Digits where
  digits : Nat
  exponent : Int
deriving DecidableEq, Repr

structure Interval where
  low : Nat
  value : Nat
  high : Nat
  denominator : Nat
  closed : Bool

/-- The lower midpoint is nearer for a power of two, where the grid of doubles halves. -/
def Interval.ofBinary (b : Binary) : Interval :=
  let m := b.mantissa
  let low := if m == Nat.pow 2 52 && b.exponent > leastExponent then 4 * m - 1 else 4 * m - 2
  let closed := m % 2 == 0
  match b.exponent - 2 with
  | .ofNat e => ⟨low * Nat.pow 2 e, 4 * m * Nat.pow 2 e, (4 * m + 2) * Nat.pow 2 e, 1, closed⟩
  | .negSucc e => ⟨low, 4 * m, 4 * m + 2, Nat.pow 2 (e + 1), closed⟩

def Interval.scale (i : Interval) (k : Int) : Interval :=
  match k with
  | .ofNat e => { i with denominator := i.denominator * Nat.pow 10 e }
  | .negSucc e =>
    let t := Nat.pow 10 (e + 1)
    { i with low := i.low * t, value := i.value * t, high := i.high * t }

def Interval.contains (i : Interval) (n : Nat) : Bool :=
  let x := n * i.denominator
  if i.closed then i.low ≤ x && x ≤ i.high else i.low < x && x < i.high

/-- The grid point of exponent `k` closest to the number, when it lies in the interval. -/
def Interval.gridPoint? (tie : Tie) (i : Interval) (k : Int) : Option Nat :=
  let j := i.scale k
  let below := j.value / j.denominator
  let above := below + 1
  match j.contains below, j.contains above with
  | true, true => some (roundDiv tie j.value j.denominator)
  | true, false => some below
  | false, true => some above
  | false, false => none

def Interval.search (tie : Tie) (i : Interval) : Nat → Int → Digits
  | 0, k => ⟨(i.scale k).value / (i.scale k).denominator, k⟩
  | fuel + 1, k =>
    match i.gridPoint? tie k with
    | some n => if n == 0 then i.search tie fuel (k - 1) else ⟨n, k⟩
    | none => i.search tie fuel (k - 1)

def decimalLength (n : Nat) : Nat := (Nat.toDigits 10 n).length

def Interval.topExponent (i : Interval) : Int :=
  (decimalLength i.value : Int) - (decimalLength i.denominator : Int) + 1

def Digits.strip : Nat → Digits → Digits
  | 0, d => d
  | fuel + 1, d => if d.digits % 10 == 0 && d.digits != 0 then strip fuel ⟨d.digits / 10, d.exponent + 1⟩ else d

def shortest (tie : Tie) (b : Binary) : Digits :=
  if b.mantissa == 0 then ⟨0, 0⟩
  else
    let i := Interval.ofBinary b
    Digits.strip 20 (i.search tie 20 i.topExponent)

def digitsText (n : Nat) : String := String.ofList (Nat.toDigits 10 n)

def zeros (n : Nat) : String := String.ofList (List.replicate n '0')

def Digits.plain (d : Digits) : String :=
  match d.exponent with
  | .ofNat e => if d.digits == 0 then "0" else digitsText d.digits ++ zeros e
  | .negSucc e =>
    let places := e + 1
    let text := (Nat.toDigits 10 d.digits)
    let padded := List.replicate (places + 1 - text.length) '0' ++ text
    let cut := padded.length - places
    String.ofList (padded.take cut) ++ "." ++ String.ofList (padded.drop cut)

def Digits.scientific (d : Digits) : String :=
  let text := Nat.toDigits 10 d.digits
  let exponent := d.exponent + (text.length - 1 : Nat)
  let fraction := match text.drop 1 with
    | [] => ""
    | more => "." ++ String.ofList more
  let sign := if exponent < 0 then "-" else "+"
  String.ofList (text.take 1) ++ fraction ++ "e" ++ sign ++ digitsText exponent.natAbs

/-! A fixed number of decimal places of the exact binary value, a half going to the even
neighbour. -/

def Binary.fixed (b : Binary) (places : Nat) : String :=
  let (num, den) := b.fraction
  let scaled := roundDiv .even (num * Nat.pow 10 places) den
  let sign := if b.negative then "-" else ""
  if places == 0 then sign ++ digitsText scaled
  else sign ++ Digits.plain ⟨scaled, Int.negSucc (places - 1)⟩

end StoryMarkup.Decimal
