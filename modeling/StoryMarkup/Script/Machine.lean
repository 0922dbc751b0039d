import StoryMarkup.Script.Operator
import StoryMarkup.Script.Scope

/-! The state expressions run on. A script that fails keeps the state as it was left. -/
namespace StoryMarkup.Script

/-- The heap, the state of the random numbers, the parameters of the functions being run with the
innermost function first, the warnings so far, and whatever the surroundings keep. -/
structure Machine (ω : Type) where
  heap : Heap := {}
  random : UInt64 := 1
  frames : List (Bindings Value) := []
  warnings : Array String := #[]
  host : ω

abbrev ScriptM (ω : Type) := EStateM ScriptError (Machine ω)

/-- The scopes an expression sees, as objects of the heap, and the limits it is held to. -/
structure Env where
  story : Nat
  temp : Nat
  constants : Nat
  strict : Bool := false
  /-- How many items a function may be called on in a row, or a list may grow by at once. -/
  maxIterations : Nat := 10000
  maxDepth : Nat := 64
deriving Repr

def Env.scope (env : Env) : Scope → Nat
  | .story => env.story
  | .temp => env.temp
  | .constants => env.constants

/-- Longest text that joining, repeating or padding may build, in characters. -/
def maxTextLength : Nat := Nat.pow 2 20

namespace ScriptM

variable {ω α : Type}

def heap : ScriptM ω Heap := do return (← get).heap

def refuse (problem : TypeProblem) : ScriptM ω α := throw (.typeMismatch problem)

def lift (r : Except ScriptError α) : ScriptM ω α :=
  match r with
  | .ok a => pure a
  | .error e => throw e

def allocate (f : Heap → α × Heap) : ScriptM ω α := fun m =>
  let (a, heap) := f m.heap
  .ok a { m with heap }

def newArray (items : Array Value) : ScriptM ω Value := allocate fun h => h.newArray items

def newList (items : List Value) : ScriptM ω Value := newArray items.toArray

def newObject (fields : Bindings Value) : ScriptM ω Value := allocate fun h => h.newObject fields

def newFunction (f : Function) : ScriptM ω Value := allocate fun h => h.newFunction f

def modifyHeap (f : Heap → Heap) : ScriptM ω Unit := modify fun m => { m with heap := f m.heap }

def display (v : Value) : ScriptM ω String := do return (← heap).display v

def toNumber (v : Value) : ScriptM ω Float := do return (← heap).toNumber v

def warn (message : String) : ScriptM ω Unit := modify fun m => { m with warnings := m.warnings.push message }

/-- Say where a failure happened, unless that is known already. -/
def locating (span : Text.Span) (x : ScriptM ω α) : ScriptM ω α := fun m =>
  match x m with
  | .ok a m => .ok a m
  | .error e m => .error (e.locate span) m

def withFrame (frame : Bindings Value) (x : ScriptM ω α) : ScriptM ω α := fun m =>
  match x { m with frames := frame :: m.frames } with
  | .ok a m => .ok a { m with frames := m.frames.tail }
  | .error e m => .error e { m with frames := m.frames.tail }

def checkIterations (env : Env) (count : Nat) : ScriptM ω Unit :=
  if count > env.maxIterations then throw ⟨.tooManyIterations, none⟩ else pure ()

def checkTextLength (length : Nat) : ScriptM ω Unit :=
  if length > maxTextLength then throw ⟨.textTooLong maxTextLength, none⟩ else pure ()

end ScriptM

/-- One step of the generator; zero is replaced first, since it would never change. -/
def nextRandom (state : UInt64) : UInt64 :=
  let x := if state == 0 then 1 else state
  let x := x ^^^ (x <<< 13)
  let x := x ^^^ (x >>> 7)
  x ^^^ (x <<< 17)

def randomNumber (state : UInt64) : Float := Decimal.ofNat (state >>> 11).toNat / Decimal.ofNat (Nat.pow 2 53)

end StoryMarkup.Script
