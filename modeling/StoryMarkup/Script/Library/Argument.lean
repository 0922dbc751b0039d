import StoryMarkup.Script.Machine

/-! Arguments of library functions. A missing argument is undefined. -/
namespace StoryMarkup.Script

def given (args : List Value) (i : Nat) : Option Value := args[i]?

def arg (args : List Value) (i : Nat) : Value := (given args i).getD .undefined

/-- A position that may be counted from the end when negative, held to the range from zero to
`length`. -/
def relativePosition (length : Nat) (x : Float) : Nat :=
  match Decimal.decode x with
  | .nan => 0
  | _ =>
    let n := Decimal.trunc x
    if n < 0 then Decimal.toCount (Decimal.ofNat length + n) else min (Decimal.toCount n) length

namespace ScriptM

variable {ω : Type}

def argText (args : List Value) (i : Nat) : ScriptM ω String :=
  match given args i with
  | some v => display v
  | none => pure ""

def argTextOr (args : List Value) (i : Nat) (default : String) : ScriptM ω String :=
  match given args i with
  | none | some .undefined => pure default
  | some v => display v

def argNumber (args : List Value) (i : Nat) : ScriptM ω Float :=
  match given args i with
  | some v => toNumber v
  | none => pure (0.0 / 0.0)

def argCount (args : List Value) (i : Nat) (count : Float → Nat) (default : Nat) : ScriptM ω Nat := do
  match given args i with
  | none | some .undefined => return default
  | some v => return count (← toNumber v)

def argPosition (args : List Value) (i length default : Nat) : ScriptM ω Nat :=
  argCount args i (relativePosition length) default

def itemAt {α : Type} (items : Array α) (x : Float) : Option α :=
  let n := if x < 0 then Decimal.ofNat items.size + x else x
  if 0 ≤ n then items[Decimal.toCount n]? else none

end ScriptM
end StoryMarkup.Script
