import StoryMarkup.Proofs.Render.Signals
import StoryMarkup.Proofs.Script.Calls

/-! What rendering has to do, task by task: a task calls others, each in the world its work has led
to. -/
namespace StoryMarkup.Render

open Macros hiding link
open Markup (Access Args ExprSource Location Segment Template)
open Script (Expr Scope Value)

inductive Code where
  | source (text : String)
  | tree (e : Expr)
  | assignment (target : Expr) (v : Value)
  | call (f : Value) (args : List Value)
  | reference (scope : Scope) (base : String) (accesses : List Access)

def Code.calls (r : Renderer) (site : Site) (w : World) (code : Code) : List (Script.Call Stage) :=
  let env := r.env site.temp
  let invoke := (r.invoke site).noting
  let w := { w with frames := [], warnings := #[] }
  match code with
  | .source text => Script.callsOf (Script.evalSource env invoke text) w
  | .tree e => Script.callsOf (Script.eval env invoke e) w
  | .assignment target v => Script.callsOf (Script.assign env invoke target v) w
  | .call f args => Script.callsOf (Script.callValue env invoke f args) w
  | .reference scope base accesses => Script.callsOf (resolve env invoke scope base accesses) w

/-- What rendering has to do at some place. -/
inductive Task where
  | nodes (spot : Spot) (ts : List Template)
  | template (spot : Spot) (t : Template)
  | use (handler : Handler) (ctx : Context)
  | script (site : Site) (code : Code)
  /-- A macro called from an expression. -/
  | call (site : Site) (id : Nat) (args : List Value)
  /-- What a callback is for. -/
  | action (c : Callback) (event : Event)
  | passage (spot : Spot) (name : String)
  /-- Going to a passage. -/
  | visit (name : String)

def Task.captures : Task → Captures
  | .nodes spot _ | .template spot _ | .passage spot _ => spot.captures
  | .use _ ctx => ctx.site.captures
  | .script site _ | .call site _ _ => site.captures
  | .action c _ => c.captures
  | .visit _ => []

/-- How a task belongs to the one that calls it. -/
inductive Link where
  /-- In the same pass and the same rounds. -/
  | within
  /-- In a round of a loop over items. -/
  | round (binding : String) (item : Value)
  /-- In a pass of its own, entered with captured bindings. -/
  | pass (entered : Captures)

/-- Where a task stands: the bindings its pass was entered with, and the rounds around it in that
pass, outermost first. -/
structure Standing where
  entered : Captures
  rounds : Captures

namespace Standing

def captures (s : Standing) : Captures := s.entered ++ s.rounds

def after (s : Standing) : Link → Standing
  | .within => s
  | .round binding item => { s with rounds := s.rounds ++ [(binding, item)] }
  | .pass entered => ⟨entered, []⟩

end Standing

/-- A list is gone through until an item ends it: the item whose turn it is, and the world then. -/
inductive Turn {α γ : Type} (f : γ → RenderM α) (goesOn : α → Bool) : List γ → World → γ → World → Prop
  | first : Turn f goesOn (a :: rest) w a w
  | next : f a w = .ok v w₁ → goesOn v = true → Turn f goesOn rest w₁ b w₂ → Turn f goesOn (a :: rest) w b w₂

lemma Turn.mem {α γ : Type} {f : γ → RenderM α} {goesOn : α → Bool} {items : List γ} {w w' : World}
    {a : γ} (h : Turn f goesOn items w a w') : a ∈ items := by
  induction h with
  | first => exact List.mem_cons_self
  | next _ _ _ ih => exact List.mem_cons_of_mem _ ih

section Parts

/-! The parts of the work between two calls. -/

def paragraphSpot (spot : Spot) (para : Option Nat) : RenderM Spot := do
  return { spot with container := ← openParagraph spot.container para, mode := .inline }

def itemSpot (spot : Spot) (para : Option Nat) (t : Template) (rest : List Template) : RenderM Spot :=
  match spot.mode, t with
  | .block, .element name .. =>
    if Markup.blockTags.contains name then return spot else paragraphSpot spot para
  | .block, .link .. => paragraphSpot spot para
  | .block, .reference .. | .block, .chain .. =>
    if para.isSome || startsInline rest then paragraphSpot spot para else return spot
  | _, _ => return spot

def openAfter (spot : Spot) (para : Option Nat) (t : Template) (rest : List Template)
    (inside : Spot) : Option Nat :=
  match spot.mode, t with
  | .block, .element name .. => if Markup.blockTags.contains name then none else some inside.container
  | .block, .link .. => some inside.container
  | .block, .reference .. | .block, .chain .. =>
    if para.isSome || startsInline rest then some inside.container else none
  | _, _ => none

def elementSpot (spot : Spot) (node : Nat) : Spot := { spot with container := node, mode := spot.mode.nested }

def startElement (name : String) (attrs : Bindings String) : RenderM Nat := do
  let node ← createElement name
  attrs.entries.forM fun (k, v) => setAttribute node k v
  return node

def attributeHolds (r : Renderer) (parent : Nat) (element : String) (site : Site)
    (entry : String × ExprSource) : RenderM Bool := do
  match ← Renderer.run site (Script.evalSource (r.env site.temp) (r.invoke site) entry.2.code) with
  | .ok v =>
    applyAttribute site.container entry.1 v site
    return true
  | .error cause =>
    let problem := .dynamicAttribute entry.1 element cause.message
    let _ ← displayError parent ⟨problem, site.loc, some (Text.sample entry.2.raw), false⟩
    return false

def openElement (r : Renderer) (spot : Spot) (name : String) (attrs : Bindings String)
    (dyn : Bindings ExprSource) (loc : Location) : RenderM Nat := do
  let node ← startElement name attrs
  applyAttributes r spot.container name { elementSpot spot node with loc } dyn.entries
  append spot.container node
  return node

structure MacroUse where
  id : Nat
  args : Args
  content : Option (List Template)
  chain : List Segment

inductive Uses (r : Renderer) (spot : Spot) : Template → World → MacroUse → World → Prop
  | reference :
    Renderer.run { spot with loc } (resolve (r.env spot.temp) (r.invoke { spot with loc }) scope
      base accesses) w = .ok (.ok (.use number args)) w₁ →
    Uses r spot (.reference scope base accesses body loc) w ⟨number, .list args, body, []⟩ w₁
  | chain :
    r.setting.findMacro? w.heap head.name = some (number, info) →
    Uses r spot (.chain (head :: siblings) loc) w ⟨number, head.args, head.body, siblings⟩ w

def templatesOf (r : Renderer) (passage : String) (startLine : Nat) (text : String) : RenderM (List Template) := do
  match r.setting.parse (← get).heap passage startLine text with
  | .ok parsed =>
    addWarnings parsed.warnings
    return parsed.templates
  | .error e => return [e.template]

def passageSpot (spot : Spot) (p : Passage) : Spot := { spot with mode := p.mode?.getD spot.mode }

def ifHolds (r : Renderer) (ctx : Context) : RenderM Bool := do
  if ctx.chain.dropLast.any (·.name == "else") then ctx.fail .elsePlace
  let cond ← firstArg ctx "a condition"
  return (← r.eval cond ctx.site).isTruthy

def branchHolds (r : Renderer) (ctx : Context) (s : Segment) : RenderM Bool := do
  if s.name == "else" then return true
  else
    match segmentArgs s with
    | [] => throw (.authoring (.missing "elseif" "a condition") (segmentSite ctx s).loc)
    | cond :: _ => return (← r.eval cond (segmentSite ctx s)).isTruthy

def switchSubject (r : Renderer) (ctx : Context) : RenderM Value := do
  if (ctx.chain.filter (·.name == "default")).length > 1 then ctx.fail .twoDefaults
  if ctx.chain.dropLast.any (·.name == "default") then ctx.fail .defaultPlace
  let subject ← firstArg ctx "a value to match"
  r.eval subject ctx.site

def candidateHolds (r : Renderer) (site : Site) (subject : Value) (e : ExprSource) : RenderM Bool := do
  return (← r.eval e site).strictEq subject

def caseHolds (r : Renderer) (ctx : Context) (subject : Value) (s : Segment) : RenderM Bool :=
  if s.name == "default" then return true
  else matchesAny r (segmentSite ctx s) subject (segmentArgs s)

def loopWorld (w : World) : World := { w with host := { w.host with loopDepth := w.host.loopDepth + 1 } }

def whileRound (r : Renderer) (ctx : Context) (cond : ExprSource) : RenderM Bool := do
  if (← r.eval cond ctx.site).isTruthy then
    return (← r.loopBody ctx ctx.body ctx.site.captures) != .breakLoop
  else return false

def loopOver (r : Renderer) (ctx : Context) (iterable : ExprSource) : RenderM (List Value) := do
  let v ← r.eval iterable ctx.site
  let items ← Renderer.runSource iterable.raw ctx.site (loopItems v)
  if items.length > r.setting.config.maxLoopIterations then throw (tooManyIterations r ctx)
  return items

def bindWorld (temp : Nat) (binding : String) (item : Value) (w : World) : World :=
  { w with heap := w.heap.modifyObject temp fun scope => scope.insert binding item }

def forRound (r : Renderer) (ctx : Context) (binding : String) (item : Value) : RenderM Signal := do
  modify (bindWorld ctx.site.temp binding item)
  r.loopBody ctx ctx.body (ctx.site.captures.extended binding item)

def makeHolder (p : Placement) (target : Nat) : RenderM Nat := do
  let holder ← createElement "span"
  modifyDocument fun d => p.put d target holder
  return holder

def placeOne (r : Renderer) (ctx : Context) (p : Placement) (target : Nat) : RenderM Signal := do
  let holder ← makeHolder p target
  r.nodes (elementSpot ctx.site.toSpot holder) ctx.body

def openRegion (ctx : Context) (name : String) : RenderM Nat := do
  let span ← createElement "span"
  setAttribute span "class" "redoable"
  setAttribute span "data-name" name
  append ctx.site.container span
  let id ← addCallback (ctx.callback (.render ctx.body span ctx.site.mode.nested) span false)
  modifyStage fun s =>
    { s with redoables := s.redoables.insert name ((s.redoables.get? name).getD [] ++ [id]) }
  return span

def Callback.spot (c : Callback) (container : Nat) (mode : NewlineMode) : Spot :=
  { temp := c.temp, container, mode, captures := c.captures }

def Callback.site (c : Callback) : Site := { c.spot c.anchor .inline with loc := c.loc }

def Callback.install (c : Callback) (id : Nat) (w : World) : World :=
  { w with heap := w.heap.modifyObject c.temp fun _ => (c.captures.install (w.heap.object c.temp)).2
           host := { w.host with
                     callbacks := if c.once then w.host.callbacks.filter (·.1 != id) else w.host.callbacks } }

def passWorld (w : World) : World := { w with host := { w.host with loopDepth := 0 } }

def replaceAnchor (c : Callback) : RenderM Nat := do
  let span ← createElement "span"
  modifyDocument fun d => d.replace c.anchor span
  return span

def runScratch (r : Renderer) (c : Callback) (body : Option (List Template)) (mode : NewlineMode) : RenderM Unit := do
  match body with
  | some body =>
    let scratch ← createElement "span"
    finish scratch (r.nodes (c.spot scratch mode) body)
  | none => pure ()

def leavePassage (name : String) : RenderM Nat := do
  let kept := puntedFields (← get).heap (← stage).punted
  let temp ← newScope kept
  modifyStage fun s =>
    { ({ s with document := s.document.clear Document.root }).prune with punted := [], current := some name }
  return temp

end Parts

section Wholes

/-! Macros and templates in terms of their parts. -/

variable {r : Renderer}

lemma renderItem_eq {defs : Array Definition} {spot : Spot} {t : Template}
    (ht : spot.mode = .block → ∀ s loc, t ≠ .text s loc) (para : Option Nat)
    (rest : List Template) : renderItem defs r spot para t rest = (do
      let inside ← itemSpot spot para t rest
      return (← renderNode defs r inside t, openAfter spot para t rest inside)) := by
  have hpara : (do
      let p ← openParagraph spot.container para
      return (← renderNode defs r { spot with container := p, mode := .inline } t, some p) :
        RenderM (Signal × Option Nat)) = (do
      let inside ← paragraphSpot spot para
      return (← renderNode defs r inside t, some inside.container)) := by
    simp [paragraphSpot]
  unfold renderItem itemSpot openAfter
  cases hmode : spot.mode with
  | block =>
    cases t with
    | text s loc => exact absurd rfl (ht hmode s loc)
    | element name attrs dyn content loc =>
      simp only [renderBlockItem]
      split
      · rw [pure_bind]
      · exact hpara
    | link target label loc => exact hpara
    | reference scope base accesses body loc | chain segments loc =>
      simp only [renderBlockItem]
      split
      · exact hpara
      · rw [pure_bind]
    | error message sample loc => rfl
  | _ => cases t <;> rfl

lemma renderElement_eq (spot : Spot) (name : String) (attrs : Bindings String)
    (dyn : Bindings ExprSource) (content : List Template) (loc : Location) :
    renderElement r { spot with mode := spot.mode.nested } name attrs dyn content loc = (do
      let node ← openElement r spot name attrs dyn loc
      if Markup.rawTags.contains name then
        content.forM fun
          | .text s _ => appendText node s
          | _ => pure ()
        return .normal
      else r.nodes (elementSpot spot node) content) := by
  have hopen (next : Nat → RenderM Signal) : (openElement r spot name attrs dyn loc >>= next) = (do
      let node ← createElement name
      attrs.entries.forM fun (k, v) => setAttribute node k v
      applyAttributes r spot.container name { elementSpot spot node with loc } dyn.entries
      append spot.container node
      next node) := by
    simp only [openElement, startElement, bind_assoc, pure_bind]
  rw [hopen]
  rfl

lemma markup_eq (spot : Spot) (passage : String) (startLine : Nat) (text : String) :
    r.markup spot passage startLine text = (do r.nodes spot (← templatesOf r passage startLine text)) := by
  unfold Renderer.markup templatesOf
  rw [bind_assoc]
  congr 1
  funext w
  cases r.setting.parse w.heap passage startLine text <;> simp

lemma goTo_eq (name : String) :
    goTo r name = (do
      let temp ← leavePassage name
      finish Document.root
        (r.passage { temp, container := Document.root, mode := r.setting.config.defaultMode } name)) := by
  simp [goTo, leavePassage]

lemma fire_eq (r : Renderer) {number : Nat} {c : Callback} (event : Event) {w : World}
    (hc : w.host.callbacks.lookup number = some c) (hanchor : w.host.document.isAttached c.anchor =
    true) : fire r number event w = (do
      inPass (runAction r c event)
      modifyScope c.temp fun fields => Captures.restore fields (c.captures.install (w.heap.object c.temp)).1)
      (c.install number w) := by
  unfold fire
  rw [bind_stage, hc]
  dsimp only
  rw [bind_stage, if_pos hanchor]
  cases honce : c.once with
  | true | false => simp [Callback.install, honce]; rfl

lemma assignEach_cons (ctx : Context) (e : ExprSource) (rest : List ExprSource) :
    assignEach r ctx (e :: rest) = (do
      let found ← r.evalStatement e ctx.site
      if found.2 then assignEach r ctx rest else ctx.fail (.notAssignment e.raw)) := rfl

lemma chooseBranch_cons (ctx : Context) (seg : Segment) (rest : List Segment) :
    chooseBranch r ctx (seg :: rest) = (do
      let holds ← branchHolds r ctx seg
      if !holds then chooseBranch r ctx rest else renderBranch r ctx seg.body) := by
  rw [chooseBranch]
  unfold branchHolds
  split
  · simp
  · cases segmentArgs seg with
    | nil => rfl
    | cons cond others =>
      simp only [bind_assoc, pure_bind]
      congr 1
      funext v
      cases v.isTruthy <;> rfl

lemma ifChain_eq (ctx : Context) :
    ifChain r ctx = (do
      if ← ifHolds r ctx then renderBranch r ctx ctx.content else chooseBranch r ctx ctx.chain) := by
  simp only [ifChain, ifHolds]
  split <;> simp only [bind_assoc, pure_bind]

lemma matchesAny_cons (site : Site) (subject : Value) (e : ExprSource) (rest : List ExprSource) :
    matchesAny r site subject (e :: rest) = (do
      let holds ← candidateHolds r site subject e
      if !holds then matchesAny r site subject rest else pure true) := by
  rw [matchesAny, candidateHolds]
  simp only [bind_assoc, pure_bind]
  congr 1
  funext v
  cases v.strictEq subject <;> rfl

lemma chooseCase_cons (ctx : Context) (subject : Value) (seg : Segment) (rest : List Segment) :
    chooseCase r ctx subject (seg :: rest) = (do
      let holds ← caseHolds r ctx subject seg
      if !holds then chooseCase r ctx subject rest else renderBranch r ctx seg.body) := by
  rw [chooseCase, caseHolds]
  split
  · simp
  · congr 1
    funext holds
    cases holds <;> rfl

lemma switchChain_eq (ctx : Context) :
    switchChain r ctx = (do
      let subject ← switchSubject r ctx
      chooseCase r ctx subject ctx.chain) := by
  simp only [switchChain, switchSubject]
  split <;> split <;> simp only [bind_assoc]

lemma repeatWhile_succ (ctx : Context) (cond : ExprSource) (n : Nat) :
    repeatWhile r ctx cond (n + 1) = (do
      if ← whileRound r ctx cond then repeatWhile r ctx cond n else return .nothing) := by
  rw [repeatWhile, whileRound]
  simp only [bind_assoc]
  congr 1
  funext v
  split
  · simp only [bind_assoc, pure_bind]
    congr 1
    funext signal
    cases signal <;> rfl
  · rfl

lemma repeatFor_cons (ctx : Context) (binding : String) (item : Value) (rest : List Value) :
    repeatFor r ctx binding (item :: rest) = (do
      let signal ← forRound r ctx binding item
      if signal != .breakLoop then repeatFor r ctx binding rest else pure .nothing) := by
  rw [repeatFor, forRound]
  simp only [bind_assoc]
  congr 1
  funext _
  congr 1
  funext signal
  cases signal <;> rfl

lemma forLoop_eq {ctx : Context} {binding : String} {iterable : ExprSource}
    (hargs : ctx.args = .iteration binding iterable) :
    forLoop r ctx = (do repeatFor r ctx binding (← loopOver r ctx iterable)) := by
  simp only [forLoop, hargs, loopOver, bind_assoc]
  congr 1
  funext v
  congr 1
  funext items
  split <;> simp

lemma placeEach_cons (ctx : Context) (p : Placement) (target : Nat) (rest : List Nat) :
    placeEach r ctx p (target :: rest) = (do
      let signal ← placeOne r ctx p target
      if signal == .normal then placeEach r ctx p rest else pure (.signal signal)) := by
  simp only [placeEach, placeOne, makeHolder, elementSpot, bind_assoc, pure_bind]
  congr 1
  funext holder
  congr 1
  funext _
  congr 1
  funext signal
  cases signal <;> rfl

lemma place_eq {ctx : Context} {p : Placement} {selector : String} {others : List Value} {w : World}
    (hvalues : ctx.values = .text selector :: others) (htargets : w.host.document.query selector ≠
    []) : Macros.place p r ctx w = placeEach r ctx p (w.host.document.query selector) w := by
  unfold Macros.place
  rw [hvalues]
  dsimp only
  rw [bind_stage]
  generalize w.host.document.query selector = targets at htargets ⊢
  cases targets with
  | nil => exact absurd rfl htargets
  | cons target rest => rfl

lemma redoable_eq {ctx : Context} {name : String} {others : List Value}
    (hvalues : ctx.values = .text name :: others) : redoable r ctx = (do
      let span ← openRegion ctx name
      return signalOutput (← r.nodes (elementSpot ctx.site.toSpot span) ctx.body)) := by
  unfold redoable
  rw [hvalues]
  rfl

end Wholes

/-- One task calls another by the means of a renderer. -/
inductive Calls (defs : Array Definition) (r : Renderer) : Task → World → Link → Task → World → Prop
  /-- The attributes of an element are evaluated in order. -/
  | dynamicAttribute :
    startElement name attrs w = .ok node w₁ →
    Turn (attributeHolds r spot.container name { elementSpot spot node with loc }) id dyn.entries w₁ (key, e) w₂ →
    Calls defs r (.template spot (.element name attrs dyn content loc)) w .within
      (.script { elementSpot spot node with loc } (.source e.code)) w₂
  | content :
    openElement r spot name attrs dyn loc w = .ok node w₁ → Markup.rawTags.contains name = false →
    Calls defs r (.template spot (.element name attrs dyn content loc)) w .within
      (.nodes (elementSpot spot node) content) w₁
  | reference :
    Calls defs r (.template spot (.reference scope base accesses body loc)) w .within
      (.script { spot with loc } (.reference scope base accesses)) w
  /-- The arguments of a macro that takes values are evaluated in order. -/
  | argument :
    Uses r spot t w u w₁ → defs[u.id]? = some d → bodyMistake? d.info u.content = none →
    Turn (r.eval · { spot with loc := t.loc }) (fun _ => true) (valueArgs d.info u.args) w₁ e w₂ →
    Calls defs r (.template spot t) w .within (.script { spot with loc := t.loc } (.source e.code)) w₂
  | use :
    Uses r spot t w u w₁ → defs[u.id]? = some d → bodyMistake? d.info u.content = none →
    evalValues r { spot with loc := t.loc } (valueArgs d.info u.args) w₁ = .ok values w₂ →
    Calls defs r (.template spot t) w .within
      (.use d.handler ⟨d.info.name, u.args, values, u.content, u.chain, { spot with loc := t.loc }⟩) w₂
  | statement :
    Turn (r.evalStatement · ctx.site) (fun _ => true) ctx.rawArgs w e w₁ → Expr.parse e.code.toList = .ok tree →
    Calls defs r (.use unnamed ctx) w .within (.script ctx.site (.tree tree)) w₁
  | assignment :
    Turn (r.evalStatement · ctx.site) (·.2) ctx.rawArgs w e w₁ → Expr.parse e.code.toList = .ok tree →
    Calls defs r (.use Macros.set ctx) w .within (.script ctx.site (.tree tree)) w₁
  | text :
    templatesOf r ctx.site.loc.passage ctx.site.loc.line (w.heap.display (ctx.values.headD .undefined)) w = .ok ts w₁ →
    Calls defs r (.use Macros.render ctx) w .within (.nodes ctx.site.toSpot ts) w₁
  | included :
    ctx.values = .text name :: others →
    Calls defs r (.use includePassage ctx) w .within (.passage ctx.site.toSpot name) w
  | condition :
    ctx.chain.dropLast.any (·.name == "else") = false → ctx.rawArgs = e :: others →
    Calls defs r (.use ifChain ctx) w .within (.script ctx.site (.source e.code)) w
  | body :
    ifHolds r ctx w = .ok true w₁ → ctx.content = some ts →
    Calls defs r (.use ifChain ctx) w .within (.nodes ctx.site.toSpot ts) w₁
  | branchCondition :
    ifHolds r ctx w = .ok false w₁ → Turn (branchHolds r ctx) (!·) ctx.chain w₁ s w₂ → (s.name == "else") = false →
    segmentArgs s = e :: others →
    Calls defs r (.use ifChain ctx) w .within (.script (segmentSite ctx s) (.source e.code)) w₂
  | branch :
    ifHolds r ctx w = .ok false w₁ → Turn (branchHolds r ctx) (!·) ctx.chain w₁ s w₂ →
    branchHolds r ctx s w₂ = .ok true w₃ → s.body = some ts →
    Calls defs r (.use ifChain ctx) w .within (.nodes ctx.site.toSpot ts) w₃
  | subject :
    ¬ (ctx.chain.filter (·.name == "default")).length > 1 → ctx.chain.dropLast.any (·.name == "default") = false →
    ctx.rawArgs = e :: others →
    Calls defs r (.use switchChain ctx) w .within (.script ctx.site (.source e.code)) w
  | candidate :
    switchSubject r ctx w = .ok v w₁ → Turn (caseHolds r ctx v) (!·) ctx.chain w₁ s w₂ → (s.name == "default") = false →
    Turn (candidateHolds r (segmentSite ctx s) v) (!·) (segmentArgs s) w₂ e w₃ →
    Calls defs r (.use switchChain ctx) w .within
      (.script (segmentSite ctx s) (.source e.code)) w₃
  | caseBody :
    switchSubject r ctx w = .ok v w₁ → Turn (caseHolds r ctx v) (!·) ctx.chain w₁ s w₂ →
    caseHolds r ctx v s w₂ = .ok true w₃ → s.body = some ts →
    Calls defs r (.use switchChain ctx) w .within (.nodes ctx.site.toSpot ts) w₃
  /-- The condition is evaluated once more than there can be rounds. -/
  | whileCondition :
    ctx.rawArgs = e :: others →
    Turn (fun _ => whileRound r ctx e) id (List.replicate (r.setting.config.maxLoopIterations + 1) ()) w () w₁ →
    Calls defs r (.use whileLoop ctx) w .within (.script ctx.site (.source e.code)) w₁
  | whileBody :
    ctx.rawArgs = e :: others →
    Turn (fun _ => whileRound r ctx e) id (List.replicate r.setting.config.maxLoopIterations ()) w () w₁ →
    r.eval e ctx.site w₁ = .ok v w₂ → v.isTruthy = true →
    Calls defs r (.use whileLoop ctx) w .within (.nodes ctx.site.toSpot ctx.body) (loopWorld w₂)
  | iterable :
    ctx.args = .iteration binding e →
    Calls defs r (.use forLoop ctx) w .within (.script ctx.site (.source e.code)) w
  /-- The round of an item. -/
  | round :
    ctx.args = .iteration binding e → loopOver r ctx e w = .ok items w₁ →
    Turn (forRound r ctx binding) (· != .breakLoop) items w₁ item w₂ →
    Calls defs r (.use forLoop ctx) w (.round binding item)
      (.nodes { ctx.site.toSpot with captures := ctx.site.captures.extended binding item } ctx.body)
      (loopWorld (bindWorld ctx.site.temp binding item w₂))
  | place :
    ctx.values = .text selector :: others →
    Turn (placeOne r ctx p) (· == .normal) (w.host.document.query selector) w target w₁ →
    makeHolder p target w₁ = .ok holder w₂ →
    Calls defs r (.use (Macros.place p) ctx) w .within (.nodes (elementSpot ctx.site.toSpot holder) ctx.body) w₂
  | region :
    ctx.values = .text name :: others → openRegion ctx name w = .ok span w₁ →
    Calls defs r (.use redoable ctx) w .within (.nodes (elementSpot ctx.site.toSpot span) ctx.body) w₁
  /-- The regions of a name are rendered again, each in a pass that is entered with its own
  bindings. -/
  | redo :
    Turn (fun v => do trigger r (← display v)) (fun _ => true) ctx.values w v w₁ →
    Turn (fun n => fire r n (.trigger (w₁.heap.display v))) (fun _ => true)
      ((w₁.host.redoables.get? (w₁.heap.display v)).getD []) w₁ number w₂ →
    w₂.host.callbacks.lookup number = some c → w₂.host.document.isAttached c.anchor = true →
    Calls defs r (.use Macros.redo ctx) w (.pass c.captures)
      (.action c (.trigger (w₁.heap.display v))) (passWorld (c.install number w₂))
  | bound :
    handler = checkbox ∨ handler = textInput → ctx.rawArgs = e :: others →
    Calls defs r (.use handler ctx) w .within (.script ctx.site (.source e.code)) w
  | caption :
    handler = checkbox ∨ handler = textInput → ctx.rawArgs = e :: e' :: others →
    r.eval e ctx.site w = .ok v w₁ →
    Calls defs r (.use handler ctx) w .within (.script ctx.site (.source e'.code)) w₁
  /-- A script calls a macro. -/
  | call :
    c ∈ code.calls r site w →
    Calls defs r (.script site code) w .within (.call site c.id c.args) c.machine
  | rerender :
    c.action = .render body target mode → modifyDocument (·.clear target) w = .ok () w₁ →
    Calls defs r (.action c event) w .within (.nodes (c.spot target mode) body) w₁
  | replace :
    c.action = .link (some body) none mode → replaceAnchor c w = .ok span w₁ →
    Calls defs r (.action c event) w .within (.nodes (c.spot span mode) body) w₁
  | scratch :
    c.action = .link (some body) (some passage) mode → createElement "span" w = .ok scratch w₁ →
    Calls defs r (.action c event) w .within (.nodes (c.spot scratch mode) body) w₁
  /-- Another passage is shown without captured bindings. -/
  | navigate :
    c.action = .navigate passage →
    Calls defs r (.action c event) w (.pass []) (.visit passage) w
  | follow :
    c.action = .link body (some passage) mode → runScratch r c body mode w = .ok () w₁ →
    Calls defs r (.action c event) w (.pass []) (.visit passage) w₁
  | listen :
    c.action = .call f → newScope event.fields w = .ok argument w₁ →
    Calls defs r (.action c event) w .within (.script c.site (.call f [.object argument])) w₁
  | assign :
    c.action = .bind target → event.bound? = some v → Expr.parse target.code.toList = .ok tree →
    Calls defs r (.action c event) w .within (.script c.site (.assignment tree v)) w
  | parsed :
    r.setting.passages.get? name = some p → templatesOf r p.name p.startLine p.text w = .ok ts w₁ →
    Calls defs r (.passage spot name) w .within (.nodes (passageSpot spot p) ts) w₁
  | shown :
    leavePassage name w = .ok temp w₁ →
    Calls defs r (.visit name) w .within
      (.passage { temp, container := Document.root, mode := r.setting.config.defaultMode } name) w₁

/-- In the course of a task another one is begun, with some of the levels left below it; and where
the two stand. -/
inductive Comes (setting : Setting) (defs : Array Definition) :
    Nat → Task → World → Standing → Nat → Task → World → Standing → Prop
  | here : Comes setting defs levels t w s levels t w s
  | call :
    Calls defs (renderer setting defs levels) t w link t₁ w₁ →
    Comes setting defs levels t₁ w₁ (s.after link) rest t' w' s' →
    Comes setting defs levels t w s rest t' w' s'
  /-- A sequence comes to its templates one level down. -/
  | item :
    w.host.recovering = false → w.host.depth < setting.config.recursionLimit →
    Arrives defs (renderer setting defs levels) spot none ts
      { w with host := { w.host with depth := w.host.depth + 1 } } para (t :: others) w₁ →
    itemSpot spot para t others w₁ = .ok inside w₂ →
    Comes setting defs levels (.template inside t) w₂ s rest t' w' s' →
    Comes setting defs (levels + 1) (.nodes spot ts) w s rest t' w' s'
  /-- A macro called from an expression works one level down, with values and no body. -/
  | invoke :
    defs[number]? = some d →
    Comes setting defs levels (.use d.handler ⟨d.info.name, .list [], args, none, [], site⟩) w s rest t' w' s' →
    Comes setting defs (levels + 1) (.call site number args) w s rest t' w' s'

/-- A task that is begun in a world makes a callback, with the number that is next when it does
so. -/
inductive Registers (r : Renderer) : Task → World → Nat × Callback → Prop
  | later :
    Registers r (.use later ctx) w
      (w.host.created + 1, ctx.callback (.render ctx.body span ctx.site.mode.nested) span true)
  | redoable :
    Registers r (.use redoable ctx) w
      (w.host.created + 1, ctx.callback (.render ctx.body span ctx.site.mode.nested) span false)
  | link :
    Registers r (.use Macros.link ctx) w
      (w.host.created + 1, ctx.callback (.link ctx.content passage ctx.site.mode.nested) a passage.isNone)
  /-- An input is bound after its arguments have been evaluated. -/
  | input :
    handler = checkbox ∨ handler = textInput → ctx.rawArgs = e :: others →
    r.eval e ctx.site w = .ok value w₁ → secondText? r ctx w₁ = .ok caption w₂ →
    Registers r (.use handler ctx) w (w₂.host.created + 1, ctx.callback (.bind e) input false)
  /-- A function as the value of an attribute that listens to an event. -/
  | listener :
    startElement name attrs w = .ok node w₁ →
    Turn (attributeHolds r spot.container name { elementSpot spot node with loc }) id dyn.entries w₁ (key, e) w₂ →
    eventOf? key = some event →
    Renderer.run { elementSpot spot node with loc }
      (Script.evalSource (r.env spot.temp) (r.invoke { elementSpot spot node with loc }) e.code) w₂ = .ok (.ok f) w₃ →
    Registers r (.template spot (.element name attrs dyn content loc)) w
      (w₃.host.created + 1, ⟨.call f, spot.captures, spot.temp, node, false, loc⟩)

/-- A link in the text makes a callback without captured bindings. -/
inductive Navigates : Task → World → Nat × Callback → Prop
  | link :
    Navigates (.template spot (.link target label loc)) w
      (w.host.created + 1, ⟨.navigate target, [], spot.temp, a, false, loc⟩)

section Captures

variable {setting : Setting} {defs : Array Definition} {r : Renderer}

lemma itemSpot_cases (spot : Spot) (para : Option Nat) (t : Template) (rest : List Template) :
    itemSpot spot para t rest = pure spot ∨ itemSpot spot para t rest = paragraphSpot spot para := by
  obtain ⟨temp, container, mode, captures⟩ := spot
  cases mode with
  | block =>
    cases t with
    | element name =>
      by_cases hblock : Markup.blockTags.contains name = true
      · exact .inl (if_pos hblock)
      · exact .inr (if_neg hblock)
    | link => exact .inr rfl
    | reference | chain =>
      by_cases hopen : (para.isSome || startsInline rest) = true
      · exact .inr (if_pos hopen)
      · exact .inl (if_neg hopen)
    | text | error => exact .inl rfl
  | _ => cases t <;> exact .inl rfl

lemma drawing_itemSpot (spot : Spot) (para : Option Nat) (t : Template) (rest : List Template) :
    Drawing (itemSpot spot para t rest) := by
  obtain h | h := itemSpot_cases spot para t rest <;> rw [h]
  · exact .pure _
  · exact .bind (.openParagraph _ _) fun _ => .pure _

lemma itemSpot_eq {spot inside : Spot} {para : Option Nat} {t : Template} {rest : List Template}
    {w w' : World} (h : itemSpot spot para t rest w = .ok inside w') :
    inside.temp = spot.temp ∧ inside.captures = spot.captures := by
  obtain hsame | hpara := itemSpot_cases spot para t rest
  · rw [hsame] at h
    cases h
    exact ⟨rfl, rfl⟩
  · rw [hpara] at h
    obtain ⟨q, document, -, hq⟩ := (Drawing.openParagraph spot.container para).ok w
    simp only [paragraphSpot, Bind.bind, EStateM.bind, hq] at h
    cases h
    exact ⟨rfl, rfl⟩

lemma Calls.captures_eq {t t' : Task} {w w' : World} {link : Link} (h : Calls defs r t w link t' w')
    {s : Standing} (hs : t.captures = s.captures) : t'.captures = (s.after link).captures := by
  cases h with
  | round =>
    change _ ++ _ = s.entered ++ (s.rounds ++ _)
    rw [← List.append_assoc]
    exact congrArg (· ++ _) hs
  | redo => exact (List.append_nil _).symm
  | navigate | follow => rfl
  | _ => exact hs

lemma Comes.captures_eq {levels rest : Nat} {t t' : Task} {w w' : World} {s s' : Standing}
    (h : Comes setting defs levels t w s rest t' w' s') (hs : t.captures = s.captures) :
    t'.captures = s'.captures := by
  induction h with
  | here => exact hs
  | call hcall _ ih => exact ih (hcall.captures_eq hs)
  | item _ _ _ hspot _ ih => exact ih ((itemSpot_eq hspot).2.trans hs)
  | invoke _ _ ih => exact ih hs

lemma Registers.captures_eq {t : Task} {w : World} {p : Nat × Callback} (h : Registers r t w p) :
    p.2.captures = t.captures := by
  cases h <;> rfl

end Captures
end StoryMarkup.Render
