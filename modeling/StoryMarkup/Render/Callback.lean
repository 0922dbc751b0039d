import StoryMarkup.Render.Renderer

/-! Going to a passage, and running what waits: callbacks of events and timers, and regions rendered
again. -/
namespace StoryMarkup.Render

open Script (Value)

inductive Event where
  | click
  | change (checked : Bool)
  | input (text : String)
  | timer
  | trigger (name : String)
deriving DecidableEq, Repr

namespace Event

def name : Event → String
  | .click => "click"
  | .change _ => "change"
  | .input _ => "input"
  | .timer => "timer"
  | .trigger _ => "trigger"

def fields (e : Event) : Bindings Value :=
  let own := match e with
    | .change checked => [("checked", .bool checked)]
    | .input text => [("value", .text text)]
    | .trigger name => [("name", .text name)]
    | .click | .timer => []
  .ofList (("type", .text e.name) :: own)

def bound? : Event → Option Value
  | .change checked => some (.bool checked)
  | .input text => some (.text text)
  | _ => none

end Event

def newScope (fields : Bindings Value) : RenderM Nat := fun w =>
  .ok w.heap.objects.size { w with heap := { w.heap with objects := w.heap.objects.push fields } }

/-- Forget the callbacks whose node has left the document, and the regions without callbacks. -/
def Stage.prune (s : Stage) : Stage :=
  let callbacks := s.callbacks.filter fun (_, c) => s.document.isAttached c.anchor
  let live (ids : List Nat) : List Nat := ids.filter fun id => callbacks.any (·.1 == id)
  let redoables := (s.redoables.map live).filter fun (_, ids) => !ids.isEmpty
  { s with callbacks, redoables }

def puntedFields (h : Script.Heap) (punted : List (String × Nat)) : Bindings Value :=
  .ofList (punted.filterMap fun (name, scope) => ((h.object scope).get? name).map fun v => (name, v))

/-- Empty the document and show a passage, with no temporary variables but the ones kept for it. -/
def goTo (r : Renderer) (name : String) : RenderM Unit := do
  let kept := puntedFields (← get).heap (← stage).punted
  let temp ← newScope kept
  modifyStage fun s =>
    { ({ s with document := s.document.clear Document.root }).prune with punted := [], current := some name }
  let spot : Spot := { temp, container := Document.root, mode := r.setting.config.defaultMode }
  finish Document.root (r.passage spot name)

def runAction (r : Renderer) (c : Callback) (event : Event) : RenderM Unit := do
  let spot (container : Nat) (mode : NewlineMode) : Spot := { temp := c.temp, container, mode, captures := c.captures }
  let site : Site := { spot c.anchor .inline with loc := c.loc }
  match c.action with
  | .render body target mode =>
    modifyDocument fun d => d.clear target
    finish target (r.nodes (spot target mode) body)
  | .navigate passage => goTo r passage
  | .link body (some passage) mode =>
    -- The output of the body is thrown away; what it does to variables stays.
    match body with
    | some body =>
      let scratch ← createElement "span"
      finish scratch (r.nodes (spot scratch mode) body)
    | none => pure ()
    goTo r passage
  | .link body none mode =>
    let span ← createElement "span"
    modifyDocument fun d => d.replace c.anchor span
    match body with
    | some body => finish span (r.nodes (spot span mode) body)
    | none => pure ()
  | .call f =>
    let argument ← newScope event.fields
    match ← r.callValue f [.object argument] site with
    | .ok _ => pure ()
    | .error cause =>
      let _ ← displayError c.anchor (.expression ("on" ++ event.name) cause c.loc)
  | .bind target =>
    match event.bound? with
    | some v => finish c.anchor (do r.assign target v site; return .normal)
    | none => pure ()

def modifyScope (scope : Nat) (f : Bindings Value → Bindings Value) : RenderM Unit :=
  modify fun w => { w with heap := w.heap.modifyObject scope f }

def withCaptures (scope : Nat) (captures : Captures) (x : RenderM Unit) : RenderM Unit := do
  let (displaced, fields) := captures.install ((← get).heap.object scope)
  modifyScope scope fun _ => fields
  x
  modifyScope scope fun fields => Captures.restore fields displaced

def dropCallback (id : Nat) : RenderM Unit :=
  modifyStage fun s => { s with callbacks := s.callbacks.filter fun c => c.1 != id }

/-- Run a callback. One whose node has left the document is dropped instead. -/
def fire (r : Renderer) (id : Nat) (event : Event) : RenderM Unit := do
  match (← stage).callbacks.lookup id with
  | none => return
  | some c =>
    if (← stage).document.isAttached c.anchor then
      if c.once then dropCallback id
      withCaptures c.temp c.captures (inPass (runAction r c event))
    else dropCallback id

def trigger (r : Renderer) (name : String) : RenderM Unit := do
  let ids := ((← stage).redoables.get? name).getD []
  ids.forM fun id => fire r id (.trigger name)
  modifyStage fun s => match s.redoables.get? name with
    | some ids =>
      let live := ids.filter fun id => s.callbacks.any (·.1 == id)
      { s with redoables := s.redoables.insert name live }
    | none => s

end StoryMarkup.Render
