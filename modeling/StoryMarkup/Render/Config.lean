import StoryMarkup.Json.Record
import StoryMarkup.Render.Passage

/-! Limits and defaults of rendering, and how they are read from the metadata of a story. -/
namespace StoryMarkup.Render

structure Config where
  /-- How often the body of one loop runs. -/
  maxLoopIterations : Nat := 10000
  /-- How deep elements, bodies and passages nest. -/
  recursionLimit : Nat := 64
  /-- Output resumes at this depth after the limit was met. -/
  recoveryDepth : Nat := 8
  /-- Missing variables are errors rather than warnings. -/
  strictVariables : Bool := false
  /-- The mode of passages whose tags ask for none. -/
  defaultMode : NewlineMode := .block
deriving DecidableEq, Repr, Inhabited

namespace Config

def strict : Config := { strictVariables := true }

def count? : Json → Option Nat
  | .number (.int n) => if n < 0 then none else some n.toNat
  | _ => none

def flag? : Json → Option Bool
  | .bool b => some b
  | _ => none

def mode? : Json → Option NewlineMode
  | .string s => NewlineMode.ofName? s
  | .object [(name, .null)] => NewlineMode.ofName? name
  | _ => none

inductive Key where
  | maxLoopIterations
  | recursionLimit
  | recoveryDepth
  | strictVariables
  | defaultMode
deriving DecidableEq, Repr

def Key.all : List Key := [.maxLoopIterations, .recursionLimit, .recoveryDepth, .strictVariables, .defaultMode]

def Key.name : Key → String
  | .maxLoopIterations => "max_loop_iterations"
  | .recursionLimit => "recursion_limit"
  | .recoveryDepth => "recovery_depth"
  | .strictVariables => "strict_variables"
  | .defaultMode => "default_mode"

def set? (c : Config) (key : Key) (j : Json) : Option Config :=
  match key with
  | .maxLoopIterations => (count? j).map fun n => { c with maxLoopIterations := n }
  | .recursionLimit => (count? j).map fun n => { c with recursionLimit := n }
  | .recoveryDepth => (count? j).map fun n => { c with recoveryDepth := n }
  | .strictVariables => (flag? j).map fun b => { c with strictVariables := b }
  | .defaultMode => (mode? j).map fun m => { c with defaultMode := m }

def Key.ofName? (name : String) : Option Key := Key.all.find? (·.name == name)

/-- Fields by name. Unknown names are passed over, and a known one may stand only once. -/
def ofFields? (c : Config) (seen : List Key) : List (String × Json) → Option Config
  | [] => some c
  | (name, j) :: rest => match Key.ofName? name with
    | none => ofFields? c seen rest
    | some key => if seen.contains key then none else do ofFields? (← c.set? key j) (key :: seen) rest

/-- Values in the order of the fields; those left out at the end keep their defaults. -/
def ofItems? (c : Config) : List Key → List Json → Option Config
  | _, [] => some c
  | [], _ :: _ => none
  | key :: keys, j :: rest => do ofItems? (← c.set? key j) keys rest

def ofText? (text : String) : Option Config :=
  match Json.parseRecord? (fun name => (Key.ofName? name).isSome) text with
  | some (.object fields) => ofFields? {} [] fields
  | some (.array items) => ofItems? {} Key.all items
  | _ => none

end Config
end StoryMarkup.Render
