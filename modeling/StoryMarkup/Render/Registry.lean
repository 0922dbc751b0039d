import StoryMarkup.Render.Renderer

/-! The constants of a story, macros among them. They are set up before the story starts and then
frozen. -/
namespace StoryMarkup.Render

open Script (Value)

structure Registry where
  constants : Bindings Value := .empty
  /-- The macros by number; a number stays with its macro when the name is taken by another
  constant. -/
  definitions : Array Definition := #[]
  frozen : Bool := false

structure FrozenError where
  name : String
deriving DecidableEq, Repr

def FrozenError.message (e : FrozenError) : String := "cannot register @" ++ e.name ++ ": constants are frozen"

namespace Registry

def define (r : Registry) (name : String) (v : Value) : Except FrozenError Registry :=
  if r.frozen then .error ⟨name⟩ else .ok { r with constants := r.constants.insert name v }

def register (r : Registry) (d : Definition) : Except FrozenError Registry := do
  let r ← { r with definitions := r.definitions.push d }.define d.info.name (.macroDef r.definitions.size d.info.name)
  return r

def registerAll (r : Registry) (ds : List Definition) : Except FrozenError Registry := ds.foldlM register r

def freeze (r : Registry) : Registry := { r with frozen := true }

def get? (r : Registry) (name : String) : Option Value := r.constants.get? name

def macros (r : Registry) : Array MacroInfo := r.definitions.map (·.info)

def findMacro? (r : Registry) (name : String) : Option MacroInfo :=
  match r.get? name with
  | some (.macroDef id _) => r.macros[id]?
  | _ => none

def shape? (r : Registry) (name : String) : Option Markup.Shape :=
  (r.findMacro? name).map fun info => info.capabilities.shape

def names (r : Registry) : List String := r.constants.keys

def parse (r : Registry) (passage : String) (startLine : Nat) (text : String) :
    Except Markup.ParseError Markup.Parsed :=
  Markup.Source.parse { passage, startLine, text := text.toList, shape? := r.shape? }

end Registry
end StoryMarkup.Render
