import StoryMarkup.Json.Reader
import StoryMarkup.Macros.Table
import StoryMarkup.Render.Nodes
import StoryMarkup.Render.Registry

/-! A story being shown: its passages and macros, and the state they have brought it to. -/
namespace StoryMarkup

open Markup (ParseError Template Warning)
open Render

structure Session where
  setting : Setting
  definitions : Array Definition
  world : World

namespace Session

def start (passages : Passages) (config : Config) (registry : Registry) (heap : Script.Heap)
    (seed : UInt64) : Session :=
  let story := heap.objects.size
  let objects := (heap.objects.push .empty).push registry.constants
  { setting := { passages, config, macros := registry.macros, story, constants := story + 1 }
    definitions := registry.definitions
    world := { heap := { heap with objects }, random := seed ||| 1, host := {} } }

/-- Levels of macros and bodies inside each other. A body takes two at most, one for the expression
that uses the macro and one for the sequence of templates, so the depth of the configuration is met
first. -/
def levels (c : Config) : Nat := 2 * c.recursionLimit + 1024

def renderer (s : Session) : Renderer := Render.renderer s.setting s.definitions (levels s.setting.config)

def run (s : Session) (x : Renderer → RenderM Unit) : Session :=
  match s with
  | ⟨setting, definitions, world⟩ =>
    match x (Render.renderer setting definitions (levels setting.config)) world with
    | .ok _ world => ⟨setting, definitions, world⟩
    | .error _ world => ⟨setting, definitions, world⟩

def stage (s : Session) : Stage := s.world.host

def document (s : Session) : Document := s.stage.document

def seed (s : Session) (n : UInt64) : Session := { s with world := { s.world with random := n ||| 1 } }

def modifyDocument (s : Session) (f : Document → Document) : Session := s.run fun _ => Render.modifyDocument f

def goTo (s : Session) (passage : String) : Session := s.run fun r => inPass (Render.goTo r passage)

def render (s : Session) (container temp : Nat) (mode : NewlineMode) (captures : Captures)
    (ts : List Template) : Session :=
  s.run fun r => inPass (finish container (r.nodes { temp, container, mode, captures } ts))

def renderPassage (s : Session) (container temp : Nat) (mode : NewlineMode) (captures : Captures)
    (name : String) : Session :=
  s.run fun r => inPass (finish container (r.passage { temp, container, mode, captures } name))

def parse (s : Session) (passage : String) (startLine : Nat) (text : String) : Except ParseError Markup.Parsed :=
  s.setting.parse s.world.heap passage startLine text

def fire (s : Session) (callback : Nat) (event : Event) : Session := s.run fun r => Render.fire r callback event

def trigger (s : Session) (name : String) : Session := s.run fun r => Render.trigger r name

def dispatch? (s : Session) (node : Nat) (listener : String) (event : Event) : Option Session :=
  (s.document.listener? node listener).map fun id => s.fire id event

def click? (s : Session) (node : Nat) : Option Session := s.dispatch? node "click" .click

def check (s : Session) (node : Nat) (checked : Bool) : Bool × Session :=
  let s := s.modifyDocument fun d =>
    if checked then d.setAttribute node "checked" "" else d.removeAttribute node "checked"
  match s.dispatch? node "change" (.change checked) with
  | some s => (true, s)
  | none => (false, s)

def input (s : Session) (node : Nat) (text : String) : Bool × Session :=
  let s := s.modifyDocument fun d => d.setAttribute node "value" text
  match s.dispatch? node "input" (.input text) with
  | some s => (true, s)
  | none => (false, s)

def tick (time : Nat) : RenderM (List Nat) := fun w =>
  let (due, document) := w.host.document.advance time
  .ok due { w with host := { w.host with document } }

/-- Run timers until none is due, in at most so many rounds more. -/
def runTimers (r : Renderer) : Nat → List Nat → RenderM Unit
  | _, [] => return
  | 0, due => due.forM fun id => Render.fire r id .timer
  | rounds + 1, due => do
    due.forM fun id => Render.fire r id .timer
    runTimers r rounds (← tick 0)

/-- Move the clock and run what becomes due, with what that makes due at once. -/
def advance (s : Session) (time : Nat) : Session :=
  let rounds := s.setting.config.maxLoopIterations
  s.run fun r => do runTimers r rounds (← tick time)

/-- Bring the fields of a JSON object into the story; other values are passed over. -/
def mergeStory (s : Session) (j : Json) : Session :=
  match j with
  | .object fields =>
    let (values, heap) := s.world.heap.ofJsonFields fields
    let heap := heap.modifyObject s.setting.story fun story => story.insertAll values
    { s with world := { s.world with heap } }
  | _ => s

def loadStory (s : Session) (text : String) : Except Json.ReadError Session := (Json.parse text).map s.mergeStory

def snapshot (s : Session) : Json := s.world.heap.toJson (.object s.setting.story)

def takeWarnings (s : Session) : List Warning × Session :=
  (s.stage.warnings.toList, s.run fun _ => modifyStage fun st => { st with warnings := #[] })

def html (s : Session) : String := s.document.innerHtml Document.root

end Session
end StoryMarkup
