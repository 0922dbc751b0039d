import StoryMarkup.Render.Reference

/-! Rendering templates, every sequence of them one level down. -/
namespace StoryMarkup.Render

open Markup (Access Args ExprSource Location Segment Template)
open Script (Value)

def eventOf? (name : String) : Option String :=
  match name.toList with
  | 'o' :: 'n' :: event =>
    if !event.isEmpty && event.all (fun c => 'a' ≤ c && c ≤ 'z') then some (String.ofList event) else none
  | _ => none

def startsInline : List Template → Bool
  | .text s _ :: _ => !Text.isBlankText (firstParagraph s)
  | .link .. :: _ => true
  | .element name .. :: _ => !Markup.blockTags.contains name
  | .reference .. :: rest => startsInline rest
  | .chain .. :: rest => startsInline rest
  | _ => false

def openParagraph (container : Nat) (paragraph : Option Nat) : RenderM Nat :=
  match paragraph with
  | some p => return p
  | none => appendElement container "p"

def blockPiece (container : Nat) (paragraph : Option Nat) (s : String) : RenderM (Option Nat) := do
  if s.isEmpty || (Text.isBlankText s && paragraph.isNone) then return paragraph
  let p ← openParagraph container paragraph
  appendText p s
  return some p

def blockText (container : Nat) (paragraph : Option Nat) : List String → RenderM (Option Nat)
  | [] => return paragraph
  | [s] => blockPiece container paragraph s
  | s :: rest => do
    let _ ← blockPiece container paragraph s
    blockText container none rest

def renderText (spot : Spot) (s : String) : RenderM Signal := do
  emitText spot.container s spot.mode
  return .normal

/-- Write the value of an attribute. Functions listen to events, and nothing is written for
nothing. -/
def applyAttribute (node : Nat) (name : String) (v : Value) (site : Site) : RenderM Unit := do
  match eventOf? name, v with
  | some event, .function _ =>
    let id ← addCallback ⟨.call v, site.captures, site.temp, node, false, site.loc⟩
    subscribe node event id
  | _, .undefined | _, .null | _, .bool false => return
  | _, .bool true => setAttribute node name ""
  | _, _ => setAttribute node name (← display v)

def renderLink (r : Renderer) (spot : Spot) (target label : String) (loc : Location) : RenderM Signal := do
  let a ← createElement "a"
  setAttribute a "class" (if r.setting.passages.contains target then "link" else "link broken")
  setAttribute a "data-passage" target
  appendText a label
  let id ← addCallback ⟨.navigate target, [], spot.temp, a, false, loc⟩
  subscribe a "click" id
  append spot.container a
  return .normal

/-- Evaluate the attributes of an element in order. The first failure is shown before the element
and ends the list. -/
def applyAttributes (r : Renderer) (parent : Nat) (element : String) (site : Site) :
    List (String × ExprSource) → RenderM Unit
  | [] => return
  | (name, e) :: rest => do
    match ← Renderer.run site (Script.evalSource (r.env site.temp) (r.invoke site) e.code) with
    | .ok v =>
      applyAttribute site.container name v site
      applyAttributes r parent element site rest
    | .error cause =>
      let problem := .dynamicAttribute name element cause.message
      let _ ← displayError parent ⟨problem, site.loc, some (Text.sample e.raw), false⟩

def renderElement (r : Renderer) (spot : Spot) (name : String) (attributes : Bindings String)
    (dynamic : Bindings ExprSource) (content : List Template) (loc : Location) : RenderM Signal := do
  let node ← createElement name
  attributes.entries.forM fun (k, v) => setAttribute node k v
  let inside := { spot with container := node }
  applyAttributes r spot.container name { inside with loc } dynamic.entries
  append spot.container node
  if Markup.rawTags.contains name then
    content.forM fun
      | .text s _ => appendText node s
      | _ => pure ()
    return .normal
  else r.nodes inside content

def evalValues (r : Renderer) (site : Site) (args : List ExprSource) : RenderM (List Value) :=
  args.mapM fun arg => r.eval arg site

def valueArgs (info : MacroInfo) (args : Args) : List ExprSource :=
  match info.capabilities.args, args with
  | .evaluated, .list es => es
  | _, _ => []

def bodyMistake? (info : MacroInfo) (content : Option (List Template)) : Option Mistake :=
  match info.capabilities.body, content with
  | .forbidden, some _ => some (.bodyForbidden info.name)
  | .required, none => some (.missing info.name "a body")
  | _, _ => none

def placeOutput (site : Site) : Output → RenderM Signal
  | .nothing => return .normal
  | .text s => renderText site.toSpot s
  | .node id => do
    append site.container id
    return .normal
  | .signal .normal => return .normal
  | .signal s => do
    if (← stage).loopDepth > 0 then return s
    else reportError site.container ⟨.strayLoopSignal s, site.loc, none, false⟩

/-- Show what failed in a macro; only a fatal error goes further up. -/
def settle (target : Nat) (name : String) (loc : Location) (e : RenderError) : RenderM Signal := do
  let e ← displayError target (e.blame name loc)
  if e.isFatal then throw e else return .normal

def catchingRender {α : Type} (x : RenderM α) : RenderM (Except RenderError α) := fun w =>
  match x w with
  | .ok a w => .ok (.ok a) w
  | .error e w => .ok (.error e) w

def useMacro (definitions : Array Definition) (r : Renderer) (id : Nat) (args : Args)
    (content : Option (List Template)) (chain : List Segment) (site : Site) : RenderM Signal := do
  match definitions[id]? with
  | none => return .normal
  | some d =>
    match bodyMistake? d.info content with
    | some mistake => reportError site.container (.authoring mistake site.loc)
    | none =>
      match ← catchingRender (evalValues r site (valueArgs d.info args)) with
      | .error e => reportError site.container e
      | .ok values =>
        match ← catchingRender (d.handler r ⟨d.info.name, args, values, content, chain, site⟩) with
        | .ok output => placeOutput site output
        | .error e => settle site.container d.info.name site.loc e

def renderReference (definitions : Array Definition) (r : Renderer) (site : Site) (scope : Script.Scope) (base : String)
    (accesses : List Access) (body : Option (List Template)) : RenderM Signal := do
  match ← Renderer.run site (resolve (r.env site.temp) (r.invoke site) scope base accesses) with
  | .error (source, cause) => reportError site.container (.expression source cause site.loc)
  | .ok (.use id args) => useMacro definitions r id (.list args) body [] site
  | .ok (.value v) =>
    if body.isSome then
      let mistake := .bodyOnValue (Template.describe scope base accesses) v.kindName
      reportError site.container (.authoring mistake site.loc)
    else
      emitValue site.container v site.mode
      return .normal

def renderChain (definitions : Array Definition) (r : Renderer) (site : Site) : List Segment → RenderM Signal
  | [] => return .normal
  | head :: siblings => do
    match r.setting.findMacro? (← get).heap head.name with
    | none => reportError site.container (.authoring (.notMacro head.name) site.loc)
    | some (id, _) => useMacro definitions r id head.args head.body siblings site

def renderNode (definitions : Array Definition) (r : Renderer) (spot : Spot) : Template → RenderM Signal
  | .text s _ => renderText spot s
  | .element name attributes dynamic content loc =>
    renderElement r { spot with mode := spot.mode.nested } name attributes dynamic content loc
  | .link target label loc => renderLink r spot target label loc
  | .reference scope base accesses body loc =>
    renderReference definitions r { spot with loc } scope base accesses body
  | .chain segments loc => renderChain definitions r { spot with loc } segments
  | .error message sample loc =>
    reportError spot.container ⟨.parse message, loc, some (Text.sample sample), false⟩

def renderBlockItem (definitions : Array Definition) (r : Renderer) (spot : Spot)
    (paragraph : Option Nat) (t : Template)
    (rest : List Template) : RenderM (Signal × Option Nat) := do
  let inParagraph : RenderM (Signal × Option Nat) := do
    let p ← openParagraph spot.container paragraph
    return (← renderNode definitions r { spot with container := p, mode := .inline } t, some p)
  match t with
  | .text s _ => return (.normal, ← blockText spot.container paragraph (paragraphs s))
  | .element name .. =>
    if Markup.blockTags.contains name then return (← renderNode definitions r spot t, none) else inParagraph
  | .link .. => inParagraph
  | .reference .. | .chain .. =>
    if paragraph.isSome || startsInline rest then inParagraph
    else return (← renderNode definitions r spot t, none)
  | .error .. => return (← renderNode definitions r spot t, none)

def renderBlock (definitions : Array Definition) (r : Renderer) (spot : Spot)
    (paragraph : Option Nat) : List Template → RenderM Signal
  | [] => return .normal
  | t :: rest => do
    let (signal, paragraph) ← renderBlockItem definitions r spot paragraph t rest
    if signal == .normal then renderBlock definitions r spot paragraph rest else return signal

def renderEach (definitions : Array Definition) (r : Renderer) (spot : Spot) : List Template → RenderM Signal
  | [] => return .normal
  | t :: rest => do
    let signal ← renderNode definitions r spot t
    if signal == .normal then renderEach definitions r spot rest else return signal

def renderSequence (definitions : Array Definition) (r : Renderer) (spot : Spot)
    (ts : List Template) : RenderM Signal :=
  match spot.mode with
  | .block => renderBlock definitions r spot none ts
  | _ => renderEach definitions r spot ts

/-- Count one more level of nesting while something is rendered. Output that was held back resumes
when the depth has come down far enough. -/
def nested {α : Type} (recoveryDepth : Nat) (x : RenderM α) : RenderM α := fun w =>
  let leave (w : World) : World :=
    let depth := w.host.depth - 1
    let recovering := w.host.recovering && depth > recoveryDepth
    { w with host := { w.host with depth, recovering } }
  match x { w with host := { w.host with depth := w.host.depth + 1 } } with
  | .ok a w => .ok a (leave w)
  | .error e w => .error e (leave w)

def firstLocation (current : Option String) : List Template → Location
  | t :: _ => t.loc
  | [] => ⟨current.getD "", 0⟩

def renderNodes (definitions : Array Definition) (r : Renderer) (spot : Spot) (ts : List Template) :
    RenderM Signal := do
  let config := r.setting.config
  let s ← stage
  if s.recovering then return .normal
  else if s.depth ≥ config.recursionLimit then
    modifyStage fun s => { s with recovering := true }
    reportError spot.container ⟨.recursion, firstLocation s.current ts, none, false⟩
  else nested config.recoveryDepth (renderSequence definitions r spot ts)

def outputValue : Output → Script.ScriptM Stage Value
  | .nothing | .signal .normal => return .undefined
  | .text s => return .text s
  | .node id => return .node id
  | .signal s => throw ⟨.other ("@" ++ s.name ++ " cannot be used inside an expression"), none⟩

def invokeMacro (definitions : Array Definition) (r : Renderer) (site : Site) : Script.Invoker Stage :=
  fun id name args => match definitions[id]? with
    | none => Script.noInvoker id name args
    | some d => fun w =>
      match d.handler r ⟨d.info.name, .list [], args, none, [], site⟩ w with
      | .ok output w => outputValue output w
      | .error e w => .error ⟨.other e.message, none⟩ w

/-- The renderer with some levels below it. At the last level nothing is rendered and no macro
runs. -/
def renderer (setting : Setting) (definitions : Array Definition) : Nat → Renderer
  | 0 => { setting, nodes := fun _ _ => return .normal, invoke := fun _ => Script.noInvoker }
  | levels + 1 => {
      setting
      nodes := fun spot ts => renderNodes definitions (renderer setting definitions levels) spot ts
      invoke := fun site id name args =>
        invokeMacro definitions (renderer setting definitions levels) site id name args }

end StoryMarkup.Render
