import StoryMarkup.Markup.Parser
import StoryMarkup.Render.Config
import StoryMarkup.Render.Output
import StoryMarkup.Render.Passage
import StoryMarkup.Script.Eval

/-! What a macro sees of rendering: a renderer one level below the one that called the macro. -/
namespace StoryMarkup.Render

open Markup (Args ExprSource Location Segment Template)
open Script (Env Expr Heap Invoker ScriptError Value)

/-! What macros accept, as the parser and the renderer need to know it. -/

inductive ArgPolicy where
  | evaluated
  | raw
deriving DecidableEq, Repr

inductive BodyPolicy where
  | forbidden
  | optional
  | required
deriving DecidableEq, Repr

structure Capabilities where
  args : ArgPolicy := .evaluated
  body : BodyPolicy := .forbidden
  siblings : Option (List String) := none
  iteration : Bool := false
deriving DecidableEq, Repr

def Capabilities.shape (c : Capabilities) : Markup.Shape := ⟨c.siblings, c.iteration⟩

structure MacroInfo where
  name : String
  capabilities : Capabilities := {}
deriving DecidableEq, Repr

/-- What does not change while a story is shown. The scopes are objects of the heap. -/
structure Setting where
  passages : Passages
  config : Config
  macros : Array MacroInfo
  story : Nat
  constants : Nat

namespace Setting

def findMacro? (s : Setting) (h : Heap) (name : String) : Option (Nat × MacroInfo) :=
  match (h.object s.constants).get? name with
  | some (.macroDef id _) => s.macros[id]?.map fun info => (id, info)
  | _ => none

def parse (s : Setting) (h : Heap) (passage : String) (startLine : Nat) (text : String) :
    Except Markup.ParseError Markup.Parsed :=
  Markup.Source.parse {
    passage, startLine, text := text.toList
    shape? := fun name => (s.findMacro? h name).map fun (_, info) => info.capabilities.shape }

end Setting

structure Spot where
  temp : Nat
  container : Nat
  mode : NewlineMode
  captures : Captures := []

structure Site extends Spot where
  loc : Location

structure Renderer where
  setting : Setting
  nodes : Spot → List Template → RenderM Signal
  invoke : Site → Invoker Stage

structure Context where
  name : String
  args : Args
  values : List Value
  content : Option (List Template)
  chain : List Segment
  site : Site

inductive Output where
  | nothing
  | text (s : String)
  | node (id : Nat)
  | signal (s : Signal)
deriving DecidableEq, Repr

abbrev Handler := Renderer → Context → RenderM Output

structure Definition where
  info : MacroInfo
  handler : Handler

namespace Context

def body (ctx : Context) : List Template := ctx.content.getD []

def rawArgs (ctx : Context) : List ExprSource :=
  match ctx.args with
  | .list args => args
  | .iteration .. => []

def fail {α : Type} (ctx : Context) (mistake : Mistake) : RenderM α := throw (.authoring mistake ctx.site.loc)

def callback (ctx : Context) (action : Action) (anchor : Nat) (once : Bool) : Callback :=
  ⟨action, ctx.site.captures, ctx.site.temp, anchor, once, ctx.site.loc⟩

end Context

namespace Renderer

def env (r : Renderer) (temp : Nat) : Env :=
  let s := r.setting
  { story := s.story, temp, constants := s.constants, strict := s.config.strictVariables
    maxIterations := s.config.maxLoopIterations, maxDepth := s.config.recursionLimit }

/-- Run a script at a site, apart from whatever script is being run around it. Its warnings are kept
with the place, also when it fails. -/
def run {ε α : Type} (site : Site) (x : EStateM ε World α) : RenderM (Except ε α) := fun w =>
  let frames := w.frames
  let warnings := w.warnings
  let leave (w : World) : World :=
    let found := w.warnings.map fun message => ⟨message, site.loc⟩
    { w with frames, warnings, host := { w.host with warnings := w.host.warnings ++ found } }
  match x { w with frames := [], warnings := #[] } with
  | .ok a w => .ok (.ok a) (leave w)
  | .error e w => .ok (.error e) (leave w)

def runSource {α : Type} (raw : String) (site : Site) (x : EStateM ScriptError World α) : RenderM α := do
  match ← run site x with
  | .ok a => return a
  | .error e => throw (.expression raw e site.loc)

def eval (r : Renderer) (e : ExprSource) (site : Site) : RenderM Value :=
  runSource e.raw site (Script.evalSource (r.env site.temp) (r.invoke site) e.code)

def parseExpr (e : ExprSource) (site : Site) : RenderM Expr :=
  match Expr.parse e.code.toList with
  | .ok tree => return tree
  | .error cause => throw (.expression e.raw cause site.loc)

def evalStatement (r : Renderer) (e : ExprSource) (site : Site) : RenderM (Value × Bool) := do
  let tree ← parseExpr e site
  let v ← runSource e.raw site (Script.eval (r.env site.temp) (r.invoke site) tree)
  return (v, tree.isAssignment)

def assign (r : Renderer) (target : ExprSource) (v : Value) (site : Site) : RenderM Unit := do
  let tree ← parseExpr target site
  runSource target.raw site (Script.assign (r.env site.temp) (r.invoke site) tree v)

def callValue (r : Renderer) (f : Value) (args : List Value) (site : Site) : RenderM (Except ScriptError Value) :=
  run site (Script.callValue (r.env site.temp) (r.invoke site) f args)

def body (r : Renderer) (ctx : Context) (templates : List Template) : RenderM Signal :=
  r.nodes ctx.site.toSpot templates

def loopBody (r : Renderer) (ctx : Context) (templates : List Template) (captures : Captures) : RenderM Signal :=
  inLoop (r.nodes { ctx.site.toSpot with captures } templates)

def markup (r : Renderer) (spot : Spot) (passage : String) (startLine : Nat) (text : String) : RenderM Signal := do
  match r.setting.parse (← get).heap passage startLine text with
  | .ok parsed =>
    addWarnings parsed.warnings
    r.nodes spot parsed.templates
  | .error e => r.nodes spot [e.template]

def passage (r : Renderer) (spot : Spot) (name : String) : RenderM Signal := do
  match r.setting.passages.get? name with
  | some p => r.markup { spot with mode := p.mode?.getD spot.mode } p.name p.startLine p.text
  | none =>
    let near := Text.nearest? name r.setting.passages.keys
    let current := (← stage).current.getD ""
    reportError spot.container (.authoring (.noPassage name near) ⟨current, 0⟩)

end Renderer

end StoryMarkup.Render
