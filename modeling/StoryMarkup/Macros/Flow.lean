import StoryMarkup.Macros.Print

/-! Conditions and loops. -/
namespace StoryMarkup.Macros

open Markup (ExprSource Segment Template)
open Render
open Script (Value)

def firstArg (ctx : Context) (what : String) : RenderM ExprSource :=
  match ctx.rawArgs with
  | e :: _ => return e
  | [] => ctx.fail (.missing ctx.name what)

def segmentSite (ctx : Context) (s : Segment) : Site := { ctx.site with loc := s.loc }

def segmentArgs (s : Segment) : List ExprSource :=
  match s.args with
  | .list args => args
  | .iteration .. => []

def renderBranch (r : Renderer) (ctx : Context) (body : Option (List Template)) : RenderM Output := do
  match body with
  | some templates => return signalOutput (← r.body ctx templates)
  | none => return .nothing

def chooseBranch (r : Renderer) (ctx : Context) : List Segment → RenderM Output
  | [] => return .nothing
  | s :: rest => do
    if s.name == "else" then renderBranch r ctx s.body
    else
      let site := segmentSite ctx s
      match segmentArgs s with
      | [] => throw (.authoring (.missing "elseif" "a condition") site.loc)
      | condition :: _ =>
        if (← r.eval condition site).isTruthy then renderBranch r ctx s.body else chooseBranch r ctx rest

def ifChain : Handler := fun r ctx => do
  if ctx.chain.dropLast.any (·.name == "else") then ctx.fail .elsePlace
  let condition ← firstArg ctx "a condition"
  if (← r.eval condition ctx.site).isTruthy then renderBranch r ctx ctx.content else chooseBranch r ctx ctx.chain

def matchesAny (r : Renderer) (site : Site) (subject : Value) : List ExprSource → RenderM Bool
  | [] => return false
  | e :: rest => do
    if (← r.eval e site).strictEq subject then return true else matchesAny r site subject rest

def chooseCase (r : Renderer) (ctx : Context) (subject : Value) : List Segment → RenderM Output
  | [] => return .nothing
  | s :: rest => do
    if s.name == "default" then renderBranch r ctx s.body
    else if ← matchesAny r (segmentSite ctx s) subject (segmentArgs s) then renderBranch r ctx s.body
    else chooseCase r ctx subject rest

def switchChain : Handler := fun r ctx => do
  let defaults := ctx.chain.filter (·.name == "default")
  if defaults.length > 1 then ctx.fail .twoDefaults
  if ctx.chain.dropLast.any (·.name == "default") then ctx.fail .defaultPlace
  let subject ← firstArg ctx "a value to match"
  chooseCase r ctx (← r.eval subject ctx.site) ctx.chain

def orphan (head : String) : Handler := fun _ ctx => ctx.fail (.orphan ctx.name head)

def tooManyIterations (r : Renderer) (ctx : Context) : RenderError :=
  ⟨.tooManyIterations ctx.name r.setting.config.maxLoopIterations, ctx.site.loc, none, false⟩

def repeatWhile (r : Renderer) (ctx : Context) (condition : ExprSource) : Nat → RenderM Output
  | 0 => do
    if (← r.eval condition ctx.site).isTruthy then throw (tooManyIterations r ctx) else return .nothing
  | more + 1 => do
    if (← r.eval condition ctx.site).isTruthy then
      if (← r.loopBody ctx ctx.body ctx.site.captures) == .breakLoop then return .nothing
      else repeatWhile r ctx condition more
    else return .nothing

def whileLoop : Handler := fun r ctx => do
  let condition ← firstArg ctx "a condition"
  repeatWhile r ctx condition r.setting.config.maxLoopIterations

def loopItems (v : Value) : Script.ScriptM Stage (List Value) := do
  match v with
  | .object _ => Script.ScriptM.pairs (Script.fieldsOf (← Script.ScriptM.heap) v)
  | _ => Script.ScriptM.iterate v

def repeatFor (r : Renderer) (ctx : Context) (binding : String) : List Value → RenderM Output
  | [] => return .nothing
  | item :: rest => do
    modify fun w => { w with heap := w.heap.modifyObject ctx.site.temp fun scope => scope.insert binding item }
    let captures := ctx.site.captures.extended binding item
    if (← r.loopBody ctx ctx.body captures) == .breakLoop then return .nothing else repeatFor r ctx binding rest

def forLoop : Handler := fun r ctx => do
  match ctx.args with
  | .list _ => ctx.fail .iterationArgs
  | .iteration binding iterable =>
    let v ← r.eval iterable ctx.site
    let items ← Renderer.runSource iterable.raw ctx.site (loopItems v)
    if items.length > r.setting.config.maxLoopIterations then throw (tooManyIterations r ctx)
    repeatFor r ctx binding items

def jump (s : Signal) : Handler := fun _ _ => return .signal s

end StoryMarkup.Macros
