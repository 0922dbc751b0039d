import StoryMarkup.Macros.Flow

/-! Links, inputs, and variables kept for the next passage. -/
namespace StoryMarkup.Macros

open Markup (ExprSource)
open Render
open Script (Value)

def linkTarget? : List Value → RenderM (Option String)
  | [] | .undefined :: _ | .null :: _ => return none
  | v :: _ => some <$> display v

def setAttribute? (node : Nat) (name : String) : Option String → RenderM Unit
  | some value => setAttribute node name value
  | none => return

def link : Handler := fun _ ctx => do
  match ctx.values with
  | [] => ctx.fail (.missing "link" "a label")
  | first :: others =>
    let label ← display first
    let passage ← linkTarget? others
    let a ← createElement "a"
    setAttribute a "class" "link"
    setAttribute? a "data-passage" passage
    append a (← create fun d => d.createText label)
    append ctx.site.container a
    let action := .link ctx.content passage ctx.site.mode.nested
    let id ← addCallback (ctx.callback action a passage.isNone)
    subscribe a "click" id
    return .nothing

def bindInput (ctx : Context) (input : Nat) (target : ExprSource) (event : String) : RenderM Unit := do
  let id ← addCallback (ctx.callback (.bind target) input false)
  subscribe input event id

def secondText? (r : Renderer) (ctx : Context) : RenderM (Option String) := do
  match ctx.rawArgs with
  | _ :: e :: _ => some <$> display (← r.eval e ctx.site)
  | _ => return none

def checkbox : Handler := fun r ctx => do
  let target ← firstArg ctx "a variable to bind"
  let checked := (← r.eval target ctx.site).isTruthy
  let label := (← secondText? r ctx).getD ""
  let wrapper ← createElement "label"
  let input ← createElement "input"
  setAttribute input "type" "checkbox"
  if checked then setAttribute input "checked" ""
  append wrapper input
  appendText wrapper label
  append ctx.site.container wrapper
  bindInput ctx input target "change"
  return .nothing

def textInput : Handler := fun r ctx => do
  let target ← firstArg ctx "a variable to bind"
  let current ← r.eval target ctx.site
  let placeholder ← secondText? r ctx
  let input ← createElement "input"
  setAttribute input "type" "text"
  if !current.isNullish then setAttribute input "value" (← display current)
  setAttribute? input "placeholder" placeholder
  append ctx.site.container input
  bindInput ctx input target "input"
  return .nothing

def tempName? (raw : String) : Option String :=
  match raw.toList with
  | '_' :: name =>
    if !name.isEmpty && name.all (fun c => Text.isAlphanumeric c || c == '_') then some (String.ofList name) else none
  | _ => none

def tempNames (ctx : Context) : List ExprSource → RenderM (List String)
  | [] => return []
  | e :: rest => do
    let raw := Text.trim e.raw
    match tempName? raw with
    | some name => return name :: (← tempNames ctx rest)
    | none => ctx.fail (.puntTarget raw)

def punt : Handler := fun _ ctx => do
  let names ← tempNames ctx ctx.rawArgs
  modifyStage fun s => { s with punted := s.punted ++ names.map fun name => (name, ctx.site.temp) }
  return .nothing

end StoryMarkup.Macros
