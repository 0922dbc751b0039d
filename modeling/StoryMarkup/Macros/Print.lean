import StoryMarkup.Render.Renderer

/-! Macros that print, assign and include. -/
namespace StoryMarkup.Macros

open Markup (ExprSource)
open Render
open Script (Value)

def signalOutput : Signal → Output
  | .normal => .nothing
  | s => .signal s

def valueOutput (v : Value) : RenderM Output := do
  match v with
  | .undefined => return .nothing
  | .node id => return .node id
  | _ => return .text (← display v)

def lastStatement (r : Renderer) (site : Site) (last : Value × Bool) : List ExprSource → RenderM (Value × Bool)
  | [] => return last
  | e :: rest => do
    let last ← r.evalStatement e site
    lastStatement r site last rest

/-- The macro without a name evaluates its arguments in order and prints the last value; an
assignment prints nothing. In an expression the arguments are values already. -/
def unnamed : Handler := fun r ctx => do
  match ctx.rawArgs with
  | [] => match ctx.values.getLast? with
    | some v => valueOutput v
    | none => return .nothing
  | args =>
    let (v, assigned) ← lastStatement r ctx.site (.undefined, false) args
    if assigned then return .nothing else valueOutput v

def print : Handler := fun _ ctx => do
  match ctx.values with
  | [.node id] => return .node id
  | values =>
    let texts ← (values.filter fun v => !v.isUndefined).mapM display
    return .text (String.join texts)

def render : Handler := fun r ctx => do
  let source ← display (ctx.values.headD .undefined)
  let loc := ctx.site.loc
  return signalOutput (← r.markup ctx.site.toSpot loc.passage loc.line source)

def assignEach (r : Renderer) (ctx : Context) : List ExprSource → RenderM Output
  | [] => return .nothing
  | e :: rest => do
    let (_, assigned) ← r.evalStatement e ctx.site
    if assigned then assignEach r ctx rest else ctx.fail (.notAssignment e.raw)

def set : Handler := fun r ctx => assignEach r ctx ctx.rawArgs

def includePassage : Handler := fun r ctx => do
  match ctx.values with
  | .text name :: _ => return signalOutput (← r.passage ctx.site.toSpot name)
  | _ => ctx.fail (.missing "include" "a passage name")

end StoryMarkup.Macros
