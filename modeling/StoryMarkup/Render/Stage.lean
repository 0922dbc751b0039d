import StoryMarkup.Document.Html
import StoryMarkup.Render.Error
import StoryMarkup.Render.Passage
import StoryMarkup.Script.Machine
import StoryMarkup.Script.Value

/-! The state rendering works on, and scripts with it: the document, what waits, and what has been
reported. -/
namespace StoryMarkup.Render

open Markup (ExprSource Location Template Warning)
open Script (Machine Value)
open Script (Value)

/-! Captured bindings: the loop variables around a place, outermost first, installed while a
callback runs. -/

abbrev Captures := List (String × Value)

namespace Captures

def extended (c : Captures) (name : String) (v : Value) : Captures := c ++ [(name, v)]

def get? (c : Captures) (name : String) : Option Value := c.reverse.lookup name

def installFrom (displaced : List (String × Option Value)) (scope : Bindings Value) :
    Captures → List (String × Option Value) × Bindings Value
  | [] => (displaced, scope)
  | (name, v) :: rest => installFrom ((name, scope.get? name) :: displaced) (scope.insert name v) rest

def install (c : Captures) (scope : Bindings Value) : List (String × Option Value) × Bindings Value :=
  installFrom [] scope c

def restore (scope : Bindings Value) : List (String × Option Value) → Bindings Value
  | [] => scope
  | (name, some v) :: rest => restore (scope.insert name v) rest
  | (name, none) :: rest => restore (scope.erase name) rest

end Captures

inductive Action where
  | render (body : List Template) (target : Nat) (mode : NewlineMode)
  | navigate (passage : String)
  /-- Run the body, then go to a passage or leave the output in the place of the link. -/
  | link (body : Option (List Template)) (passage : Option String) (mode : NewlineMode)
  | call (f : Value)
  | bind (target : ExprSource)

structure Callback where
  action : Action
  captures : Captures
  temp : Nat
  /-- The node it belongs to; it is dropped when that has left the document. -/
  anchor : Nat
  once : Bool
  loc : Location

structure Stage where
  document : Document := {}
  callbacks : List (Nat × Callback) := []
  created : Nat := 0
  /-- The callbacks of the regions that are rendered again under a name. -/
  redoables : Bindings (List Nat) := .empty
  /-- Names with the scopes their values are taken from when the next passage is shown. -/
  punted : List (String × Nat) := []
  warnings : Array Warning := #[]
  errors : Array RenderError := #[]
  depth : Nat := 0
  /-- How many loops run around the place that is rendered, in the pass it belongs to. -/
  loopDepth : Nat := 0
  /-- Output is held back until rendering has come out of a recursion that went too deep. -/
  recovering : Bool := false
  current : Option String := none

abbrev World := Machine Stage

abbrev RenderM := EStateM RenderError World

def stage : RenderM Stage := do return (← get).host

def modifyStage (f : Stage → Stage) : RenderM Unit := modify fun w => { w with host := f w.host }

def modifyDocument (f : Document → Document) : RenderM Unit :=
  modifyStage fun s => { s with document := f s.document }

def create (f : Document → Nat × Document) : RenderM Nat := fun w =>
  let (id, document) := f w.host.document
  .ok id { w with host := { w.host with document } }

def createElement (tag : String) : RenderM Nat := create fun d => d.createElement tag

def append (parent child : Nat) : RenderM Unit := modifyDocument fun d => d.append parent child

def setAttribute (node : Nat) (name value : String) : RenderM Unit :=
  modifyDocument fun d => d.setAttribute node name value

def subscribe (node : Nat) (event : String) (callback : Nat) : RenderM Unit :=
  modifyDocument fun d => d.subscribe node event callback

def addCallback (c : Callback) : RenderM Nat := fun w =>
  let id := w.host.created + 1
  .ok id { w with host := { w.host with callbacks := (id, c) :: w.host.callbacks, created := id } }

def inLoop {α : Type} (x : RenderM α) : RenderM α := fun w =>
  let leave (w : World) : World := { w with host := { w.host with loopDepth := w.host.loopDepth - 1 } }
  match x { w with host := { w.host with loopDepth := w.host.loopDepth + 1 } } with
  | .ok a w => .ok a (leave w)
  | .error e w => .error e (leave w)

def inPass {α : Type} (x : RenderM α) : RenderM α := fun w =>
  let leave (after : World) : World := { after with host := { after.host with loopDepth := w.host.loopDepth } }
  match x { w with host := { w.host with loopDepth := 0 } } with
  | .ok a w => .ok a (leave w)
  | .error e w => .error e (leave w)

def addWarnings (ws : List Warning) : RenderM Unit :=
  modifyStage fun s => { s with warnings := s.warnings ++ ws }

def display (v : Value) : RenderM String := do return (← get).heap.display v

end StoryMarkup.Render
