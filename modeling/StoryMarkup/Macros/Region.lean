import StoryMarkup.Macros.Print
import StoryMarkup.Render.Callback

/-! Macros that render later, elsewhere or again. -/
namespace StoryMarkup.Macros

open Render
open Script (Value)

/-- A delay in whole milliseconds; what is no positive number is none. -/
def delayOf (x : Float) : Nat := if Decimal.isFinite x && x > 0 then Decimal.toCount x else 0

def later : Handler := fun _ ctx => do
  let h := (← get).heap
  let delay := match ctx.values with
    | v :: _ => delayOf (h.toNumber v)
    | [] => 0
  let span ← createElement "span"
  setAttribute span "class" "later"
  append ctx.site.container span
  let id ← addCallback (ctx.callback (.render ctx.body span ctx.site.mode.nested) span true)
  modifyDocument fun d => d.schedule delay id
  return .nothing

inductive Placement where
  | atEnd
  | atStart
  | instead
deriving DecidableEq, Repr

def Placement.put (p : Placement) (d : Document) (target holder : Nat) : Document :=
  match p with
  | .atEnd => d.append target holder
  | .atStart => d.prepend target holder
  | .instead => (d.clear target).append target holder

def placeEach (r : Renderer) (ctx : Context) (p : Placement) : List Nat → RenderM Output
  | [] => return .nothing
  | target :: rest => do
    let holder ← createElement "span"
    modifyDocument fun d => p.put d target holder
    match ← r.nodes { ctx.site.toSpot with container := holder, mode := ctx.site.mode.nested } ctx.body with
    | .normal => placeEach r ctx p rest
    | s => return .signal s

def place (p : Placement) : Handler := fun r ctx => do
  match ctx.values with
  | .text selector :: _ =>
    match (← stage).document.query selector with
    | [] => ctx.fail (.noMatch selector)
    | targets => placeEach r ctx p targets
  | _ => ctx.fail (.missing ctx.name "a selector string")

def redoable : Handler := fun r ctx => do
  match ctx.values with
  | .text name :: _ =>
    let span ← createElement "span"
    setAttribute span "class" "redoable"
    setAttribute span "data-name" name
    append ctx.site.container span
    let mode := ctx.site.mode.nested
    let id ← addCallback (ctx.callback (.render ctx.body span mode) span false)
    modifyStage fun s =>
      { s with redoables := s.redoables.insert name ((s.redoables.get? name).getD [] ++ [id]) }
    return signalOutput (← r.nodes { ctx.site.toSpot with container := span, mode } ctx.body)
  | _ => ctx.fail (.missing "redoable" "a name")

def redo : Handler := fun r ctx => do
  ctx.values.forM fun v => do trigger r (← display v)
  return .nothing

end StoryMarkup.Macros
