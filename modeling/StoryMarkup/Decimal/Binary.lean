/-! Doubles as exact numbers: sign, mantissa and power of two. -/
namespace StoryMarkup.Decimal

structure Binary where
  negative : Bool
  mantissa : Nat
  exponent : Int
deriving DecidableEq, Repr

inductive Decoded where
  | nan
  | infinite (negative : Bool)
  | finite (value : Binary)
deriving DecidableEq, Repr

def leastExponent : Int := -1074

def decode (x : Float) : Decoded :=
  let bits : Nat := x.toBits.toNat
  let negative := bits / Nat.pow 2 63 == 1
  let field : Nat := bits / Nat.pow 2 52 % 2048
  let fraction : Nat := bits % Nat.pow 2 52
  if field == 2047 then if fraction == 0 then .infinite negative else .nan
  else if field == 0 then .finite ⟨negative, fraction, leastExponent⟩
  else .finite ⟨negative, fraction + Nat.pow 2 52, (field : Int) - 1075⟩

namespace Binary

def whole (b : Binary) : Nat :=
  match b.exponent with
  | .ofNat e => b.mantissa * Nat.pow 2 e
  | .negSucc e => b.mantissa / Nat.pow 2 (e + 1)

def isIntegral (b : Binary) : Bool :=
  match b.exponent with
  | .ofNat _ => true
  | .negSucc e => b.mantissa % Nat.pow 2 (e + 1) == 0

def toInt (b : Binary) : Int := if b.negative then -(b.whole : Int) else b.whole

def fraction (b : Binary) : Nat × Nat :=
  match b.exponent with
  | .ofNat e => (b.mantissa * Nat.pow 2 e, 1)
  | .negSucc e => (b.mantissa, Nat.pow 2 (e + 1))

end Binary

def greatestWord : Int := Int.pow 2 63 - 1
def leastWord : Int := -Int.pow 2 63
def greatestCount : Nat := Nat.pow 2 64 - 1

/-- Cut off toward zero and held to the signed 64-bit range; not-a-number counts as zero. -/
def toWord (x : Float) : Int :=
  match decode x with
  | .nan => 0
  | .infinite negative => if negative then leastWord else greatestWord
  | .finite b => max leastWord (min greatestWord b.toInt)

def toCount (x : Float) : Nat :=
  match decode x with
  | .nan => 0
  | .infinite negative => if negative then 0 else greatestCount
  | .finite b => if b.negative then 0 else min greatestCount b.whole

def toCount32 (x : Float) : Nat := min (Nat.pow 2 32 - 1) (toCount x)

def isFinite (x : Float) : Bool :=
  match decode x with
  | .finite _ => true
  | _ => false

def isIntegral (x : Float) : Bool :=
  match decode x with
  | .finite b => b.isIntegral
  | _ => false

def ofInt (n : Int) : Float :=
  match n with
  | .ofNat k => Float.ofScientific k false 0
  | .negSucc k => -(Float.ofScientific (k + 1) false 0)

def ofNat (n : Nat) : Float := Float.ofScientific n false 0

/-- Cut off toward zero, with the sign kept also where nothing is left. From `2 ^ 53` on there are
no fractions. -/
def trunc (x : Float) : Float :=
  match decode x with
  | .finite b =>
    if b.whole < Nat.pow 2 53 then if b.negative then -ofNat b.whole else ofNat b.whole else x
  | _ => x

/-- The remainder of a division that rounds toward zero, with the sign of the dividend. The
remainder is found on a common power of two, so it is exact. -/
def remainder (x y : Float) : Float :=
  match decode x, decode y with
  | .finite a, .finite b =>
    if b.mantissa == 0 then 0.0 / 0.0
    else
      let e := min a.exponent b.exponent
      let m := a.mantissa * Nat.pow 2 (a.exponent - e).toNat
      let n := b.mantissa * Nat.pow 2 (b.exponent - e).toNat
      let r := Float.scaleB (ofNat (m % n)) e
      if a.negative then -r else r
  | .finite _, .infinite _ => x
  | _, _ => 0.0 / 0.0

/-- The signed 32-bit number that shares its low 32 bits with the number cut off toward zero and
held to the 64-bit range. -/
def toInt32 (x : Float) : Int :=
  if isFinite x then (toWord x).bmod (Nat.pow 2 32) else 0

/-! Cube roots, rounded to the nearest double. -/

def cubeRootBits (n : Nat) : Nat → Nat → Nat
  | 0, root => root
  | bits + 1, root =>
    let more := root + Nat.pow 2 bits
    cubeRootBits n bits (if Nat.pow more 3 ≤ n then more else root)

/-- The root is found with some twenty bits to spare; a last odd bit marks that it is not exact, so
that rounding goes the right way. -/
def cubeRoot (x : Float) : Float :=
  match decode x with
  | .finite b =>
    if b.mantissa == 0 then x
    else
      let scale := (b.exponent - 190) / 3
      let n := b.mantissa * Nat.pow 2 (b.exponent - 3 * scale).toNat
      let root := cubeRootBits n 83 0
      let digits := if Nat.pow root 3 == n then 2 * root else 2 * root + 1
      let r := Float.scaleB (ofNat digits) (scale - 1)
      if b.negative then -r else r
  | _ => x

end StoryMarkup.Decimal
