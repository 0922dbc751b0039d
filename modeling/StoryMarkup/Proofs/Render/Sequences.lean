import StoryMarkup.Proofs.Render.Handlers
import StoryMarkup.Proofs.Render.References
import StoryMarkup.Proofs.Script.Scoping

/-!
Sequences of templates by the means of fellows. Renderers one level above fellows are fellows too.
-/
namespace StoryMarkup.Render

open Markup (Access Args ExprSource Location Segment Template)
open Script (Env Value)

variable {G : Regime} {p : Footing} {out : Signal → Prop} {r r' : Renderer}

lemma Alike.resolve (h : Alike G p out r r') (env : Env) (site : Site) (scope : Script.Scope)
    (base : String) (accesses : List Access) :
    StoryMarkup.Lockstep never ((G.bond env p.depth p.loops).rel 0) (resolve env (r.invoke site) scope base accesses)
      (resolve env (r'.invoke site) scope base accesses) :=
  (G.bond env p.depth p.loops).resolve (Alike.library_bond env) (h.invoke_bond env site) scope base accesses

section Templates

@[simp] lemma Regime.applyAttribute (node : Nat) (name : String) (v : Value) (site : Site) :
    G.Keeps p (applyAttribute node name v site) := by
  unfold Render.applyAttribute
  split
  · exact .bind (addCallback _) fun id => subscribe _ _ _
  · exact .pure _
  · exact .pure _
  · exact .pure _
  · exact setAttribute _ _ _
  · exact .bind (display _) fun _ => setAttribute _ _ _

lemma Alike.renderLink (h : Alike G p out r r') (spot : Spot) (target label : String) (loc : Location) :
    G.Lockstep p (renderLink r spot target label loc) (renderLink r' spot target label loc) := by
  unfold Render.renderLink
  rw [h.setting_eq]
  exact .bind (Regime.createElement _) fun a => .bind (Regime.setAttribute _ _ _) fun _ =>
    .bind (Regime.setAttribute _ _ _) fun _ => .bind (Regime.drawing (.appendText _ _)) fun _ =>
      .bind (Regime.addCallback _) fun id => .bind (Regime.subscribe _ _ _) fun _ =>
        .bind (Regime.append _ _) fun _ => .pure _

lemma Alike.applyAttributes (h : Alike G p out r r') (parent : Nat) (element : String) (site : Site)
    (attrs : List (String × ExprSource)) :
    G.Lockstep p (applyAttributes r parent element site attrs)
      (applyAttributes r' parent element site attrs) := by
  induction attrs with
  | nil => exact .pure _
  | cons e rest ih =>
    unfold Render.applyAttributes
    rw [h.env_eq]
    refine .bind (Regime.run site (h.evalSource_bond (r.env site.temp) site 0 _)) fun found => ?_
    cases found with
    | ok v => exact .bind (Regime.applyAttribute _ _ _ _) fun _ => ih
    | error cause => exact .bind (Regime.displayError _ _) fun _ => .pure _

lemma Alike.renderElement (h : Alike G p out r r') (spot : Spot) (name : String) (attrs : Bindings String)
    (dyn : Bindings ExprSource) (content : List Template) (loc : Location) :
    G.Follows p out (renderElement r spot name attrs dyn content loc)
      (renderElement r' spot name attrs dyn content loc) := by
  refine .after (Regime.createElement _) fun node => .after (.forM _ fun _ => Regime.setAttribute _ _ _) fun _ =>
    .after (h.applyAttributes _ _ _ _) fun _ => .after (Regime.append _ _) fun _ =>
      .ite (.of_lockstep _ ?_) (h.nodes _ _)
  refine .bind (.forM content fun t => ?_) fun _ => .pure _
  cases t with
  | text s loc => exact Regime.drawing (.appendText _ _)
  | _ => exact .pure _

lemma Alike.evalValues (h : Alike G p out r r') (site : Site) (args : List ExprSource) :
    G.Lockstep p (evalValues r site args) (evalValues r' site args) :=
  .mapM args fun arg => h.eval arg site

lemma Regime.placeOutput (site : Site) (output : Output) : G.Keeps p (placeOutput site output) := by
  cases output with
  | nothing => exact .pure _
  | text s => exact .bind (drawing (.emitText _ _ _)) fun _ => .pure _
  | node id => exact .bind (append _ _) fun _ => .pure _
  | signal s =>
    cases s with
    | normal => exact .pure _
    | breakLoop | continueLoop => exact .bind stage fun s => .ite (.pure _) (reportError _ _)

lemma placeOutput_signal (site : Site) {s : Signal} {w : World} (hl : 0 < w.host.loopDepth) :
    placeOutput site (.signal s) w = .ok s w := by
  have hpos : ∀ (s : Signal) (x : RenderM Signal),
      (if w.host.loopDepth > 0 then pure s else x : RenderM Signal) w = .ok s w := by
    intro s x
    rw [if_pos hl]
    rfl
  cases s with
  | normal => rfl
  | breakLoop | continueLoop => exact hpos _ _

@[simp] lemma Regime.settle (target : Nat) (name : String) (loc : Location) (e : RenderError) :
    G.Keeps p (settle target name loc e) :=
  .bind (displayError _ _) fun e => .ite (.throw e) (.pure _)

variable {defs : Array Definition} (hsteady : ∀ d ∈ defs, d.handler.Steady) (h : Fellows G p out r r')
include hsteady h

lemma Fellows.useMacro (id : Nat) (args : Args) (content : Option (List Template))
    (chain : List Segment) (site : Site) :
    G.Follows p out (useMacro defs r id args content chain site)
      (useMacro defs r' id args content chain site) := by
  unfold Render.useMacro
  cases hd : defs[id]? with
  | none => exact .of_lockstep _ (.pure _)
  | some d =>
    dsimp only
    cases bodyMistake? d.info content with
    | some mistake => exact .of_lockstep _ (Regime.reportError _ _)
    | none =>
      refine .after (Regime.catching (h.evalValues site _)) fun found => ?_
      cases found with
      | error e => exact .of_lockstep _ (Regime.reportError _ _)
      | ok values =>
        have hfollows := hsteady d (Array.mem_of_getElem? hd) h ⟨d.info.name, args, values, content, chain, site⟩
        refine .bind hfollows.catching (fun found => .of_lockstep _ ?_) ?_
        · cases found with
          | ok output => exact Regime.placeOutput site output
          | error e => exact Regime.settle _ _ _ e
        · rintro _ w ⟨output, rfl, hleaves⟩ hl
          cases output with
          | signal s =>
            have hpos : 0 < w.host.loopDepth := hl ▸ h.out_loops s hleaves
            exact ⟨s, placeOutput_signal site hpos, hleaves⟩
          | _ => exact hleaves.elim

lemma Fellows.renderReference (site : Site) (scope : Script.Scope) (base : String)
    (accesses : List Access) (body : Option (List Template)) :
    G.Follows p out (renderReference defs r site scope base accesses body)
      (renderReference defs r' site scope base accesses body) := by
  unfold Render.renderReference
  rw [h.env_eq]
  refine .after (Regime.run site (h.resolve (r.env site.temp) site scope base accesses)) fun found => ?_
  cases found with
  | error e => exact .of_lockstep _ (Regime.reportError _ _)
  | ok resolved =>
    cases resolved with
    | use id args => exact h.useMacro hsteady id _ body [] site
    | value v =>
      exact .ite (.of_lockstep _ (Regime.reportError _ _))
        (.of_lockstep _ (.bind (Regime.drawing (.emitValue _ v _)) fun _ => .pure _))

lemma Fellows.renderChain (site : Site) (segs : List Segment) :
    G.Follows p out (renderChain defs r site segs) (renderChain defs r' site segs) := by
  cases segs with
  | nil => exact .of_lockstep _ (.pure _)
  | cons head siblings =>
    unfold Render.renderChain
    rw [h.setting_eq]
    refine .bind_get fun w w' hw => ?_
    rw [hw.heap_eq]
    cases r.setting.findMacro? w.heap head.name with
    | none => exact .of_lockstep _ (Regime.reportError _ _)
    | some found => exact h.useMacro hsteady found.1 _ _ _ site

lemma Fellows.renderNode (spot : Spot) (t : Template) :
    G.Follows p out (renderNode defs r spot t) (renderNode defs r' spot t) := by
  cases t with
  | text s loc => exact .of_lockstep _ (.bind (Regime.drawing (.emitText _ _ _)) fun _ => .pure _)
  | element name attrs dyn content loc => exact h.renderElement _ _ _ _ _ _
  | link target label loc => exact .of_lockstep _ (h.renderLink _ _ _ _)
  | reference scope base accesses body loc => exact h.renderReference hsteady _ _ _ _ _
  | chain segs loc => exact h.renderChain hsteady _ _
  | error message sample loc => exact .of_lockstep _ (Regime.reportError _ _)

lemma Fellows.renderBlockItem (spot : Spot) (para : Option Nat) (t : Template) (rest : List Template) :
    G.Follows p (fun item => out item.1) (renderBlockItem defs r spot para t rest)
      (renderBlockItem defs r' spot para t rest) := by
  have hplain : G.Follows p (fun item : Signal × Option Nat => out item.1)
      (do return (← Render.renderNode defs r spot t, none))
      (do return (← Render.renderNode defs r' spot t, none)) :=
    .bind (h.renderNode hsteady spot t) (fun _ => .of_lockstep _ (.pure _)) fun _ _ hs _ => ⟨_, rfl, hs⟩
  have hinside : G.Follows p (fun item => out item.1)
      (do
        let q ← openParagraph spot.container para
        return (← Render.renderNode defs r { spot with container := q, mode := .inline } t, some q))
      (do
        let q ← openParagraph spot.container para
        return (← Render.renderNode defs r' { spot with container := q, mode := .inline } t, some q)) :=
    .after (Regime.drawing (.openParagraph _ _)) fun q =>
      .bind (h.renderNode hsteady _ t) (fun _ => .of_lockstep _ (.pure _)) fun _ _ hs _ => ⟨_, rfl, hs⟩
  cases t with
  | text s loc => exact .of_lockstep _ (.bind (Regime.drawing (.blockText _ _ _)) fun _ => .pure _)
  | element name attrs dyn content loc => exact .ite hplain hinside
  | link target label loc => exact hinside
  | reference scope base accesses body loc | chain segs loc => exact .ite hinside hplain
  | error message sample loc => exact hplain

lemma Fellows.renderBlock (spot : Spot) (para : Option Nat) (ts : List Template) :
    G.Follows p out (renderBlock defs r spot para ts) (renderBlock defs r' spot para ts) := by
  induction ts generalizing para with
  | nil => exact .of_lockstep _ (.pure _)
  | cons t rest ih =>
    refine .bind (h.renderBlockItem hsteady spot para t rest) (fun item => ?_) fun item w hs _ => ?_
    · exact .ite (ih item.2) (.of_lockstep _ (.pure _))
    · have hne : ¬ (item.1 == .normal) = true := fun he => h.out_normal (eq_of_beq he ▸ hs)
      exact ⟨item.1, by dsimp only; rw [if_neg hne]; rfl, hs⟩

lemma Fellows.renderEach (spot : Spot) (ts : List Template) :
    G.Follows p out (renderEach defs r spot ts) (renderEach defs r' spot ts) := by
  induction ts with
  | nil => exact .of_lockstep _ (.pure _)
  | cons t rest ih =>
    refine .bind (h.renderNode hsteady spot t) (fun s => .ite ih (.of_lockstep _ (.pure _))) fun s w hs _ => ?_
    have hne : ¬ (s == .normal) = true := fun he => h.out_normal (eq_of_beq he ▸ hs)
    exact ⟨s, by rw [if_neg hne]; rfl, hs⟩

lemma Fellows.renderSequence (spot : Spot) (ts : List Template) :
    G.Follows p out (renderSequence defs r spot ts) (renderSequence defs r' spot ts) := by
  unfold Render.renderSequence
  cases spot.mode with
  | block => exact h.renderBlock hsteady spot none ts
  | _ => exact h.renderEach hsteady spot ts

end Templates

section Levels

variable {defs : Array Definition} {w : World}

lemma renderNodes_held (spot : Spot) (ts : List Template) (hrec : w.host.recovering = true) :
    renderNodes defs r spot ts w = .ok .normal w := by
  rw [renderNodes, bind_stage, if_pos hrec]
  rfl

lemma renderNodes_cut (spot : Spot) (ts : List Template) (hrec : w.host.recovering = false)
    (hd : r.setting.config.recursionLimit ≤ w.host.depth) :
    renderNodes defs r spot ts w =
      reportError spot.container ⟨.recursion, firstLocation w.host.current ts, none, false⟩
        { w with host := { w.host with recovering := true } } := by
  rw [renderNodes, bind_stage, if_neg (by simp [hrec]), if_pos hd]
  rfl

lemma renderNodes_nested (spot : Spot) (ts : List Template) (hrec : w.host.recovering = false)
    (hd : w.host.depth < r.setting.config.recursionLimit) :
    renderNodes defs r spot ts w =
      nested r.setting.config.recoveryDepth (renderSequence defs r spot ts) w := by
  rw [renderNodes, bind_stage, if_neg (by simp [hrec]), if_neg (Nat.not_le.2 hd)]

variable (hsteady : ∀ d ∈ defs, d.handler.Steady)
include hsteady

lemma Fellows.renderNodes (h : Fellows G { p with depth := p.depth + 1 } out r r') (spot : Spot) (ts : List Template) :
    G.Follows p out (renderNodes defs r spot ts) (renderNodes defs r' spot ts) := by
  intro w w' hw
  have hconfig : r'.setting.config = r.setting.config := by rw [h.setting_eq]
  cases hrec : w.host.recovering with
  | true =>
    rw [renderNodes_held spot ts hrec, renderNodes_held spot ts (by rwa [hw.host_eq])]
    exact .inl (.ok _ hw)
  | false =>
    have hrec' : w'.host.recovering = false := by rwa [hw.host_eq]
    by_cases hd : r.setting.config.recursionLimit ≤ w.host.depth
    · rw [renderNodes_cut spot ts hrec hd, renderNodes_cut spot ts hrec' (by rwa [hconfig, hw.host_eq]), hw.host_eq]
      refine .inl (Regime.reportError _ _ _ _ { hw with same := by rw [hw.same], kept := ?_ })
      exact G.cut (hrec ▸ hw.kept) (by rwa [← h.config_eq, ← hw.depth_eq])
    · have hlt := Nat.lt_of_not_le hd
      rw [renderNodes_nested spot ts hrec hlt, renderNodes_nested spot ts hrec'
        (by rwa [hconfig, hw.host_eq]), hconfig, h.config_eq]
      exact Regime.nested (h.renderSequence hsteady spot ts) hw hrec (by rwa [← h.config_eq, ← hw.depth_eq])

lemma Fellows.invokeMacro (h : Fellows G p (fun _ => False) r r') (site : Site) (id : Nat)
    (name : String) (args : List Value) :
    G.Lockstep p (invokeMacro defs r site id name args) (invokeMacro defs r' site id name args) := by
  unfold Render.invokeMacro
  cases hd : defs[id]? with
  | none => exact .throw _
  | some d =>
    have hfollows := hsteady d (Array.mem_of_getElem? hd) h ⟨d.info.name, .list [], args, none, [], site⟩
    refine .rigid fun w w' hw => ?_
    have hm := hfollows.lockstep (fun output hleaves => by cases output <;> exact hleaves) w w' hw
    dsimp only
    generalize d.handler r _ w = result, d.handler r' _ w' = result' at hm
    cases hm with
    | ok output hR =>
      cases output with
      | signal s => cases s <;> first | exact .ok _ hR | exact .error _ hR
      | _ => exact .ok _ hR
    | error e hR => exact .error _ hR
    | off hlax => exact hlax.elim

end Levels

def Renderer.above (defs : Array Definition) (r : Renderer) : Renderer where
  setting := r.setting
  nodes := renderNodes defs r
  invoke := fun site id name args => invokeMacro defs r site id name args

@[simp] lemma renderer_setting (setting : Setting) (defs : Array Definition) (levels : Nat) :
    (renderer setting defs levels).setting = setting := by
  cases levels <;> rfl

lemma renderer_succ (setting : Setting) (defs : Array Definition) (levels : Nat) :
    renderer setting defs (levels + 1) = (renderer setting defs levels).above defs := by
  rw [renderer, Renderer.above, renderer_setting]

lemma fellows_renderer {setting : Setting} {defs : Array Definition}
    (hsteady : ∀ d ∈ defs, d.handler.Steady) (hconfig : setting.config = G.config) (levels : Nat) (p : Footing) :
    Fellows G p (fun _ => False) (renderer setting defs levels) (renderer setting defs levels) := by
  induction levels generalizing p with
  | zero =>
    exact
      { setting_eq := rfl, config_eq := hconfig, out_normal := id, out_loops := fun _ => False.elim
        nodes := fun _ _ => .of_lockstep _ (.pure _), invoke := fun _ _ _ _ _ _ => .throw _
        inner := fun _ _ => .pure _, fresh := fun _ _ => .pure _ }
  | succ levels ih =>
    rw [renderer_succ]
    have hnodes : ∀ q : Footing, ∀ spot ts, G.Follows q (fun _ => False)
        (renderNodes defs (renderer setting defs levels) spot ts)
        (renderNodes defs (renderer setting defs levels) spot ts) :=
      fun q spot ts => (ih _).renderNodes hsteady spot ts
    exact
      { setting_eq := rfl, config_eq := by rw [Renderer.above, renderer_setting, hconfig]
        out_normal := id, out_loops := fun _ => False.elim, nodes := hnodes p
        invoke := fun _ _ site id name args => (ih _).invokeMacro hsteady site id name args
        inner := fun spot ts => (hnodes _ spot ts).lockstep fun _ => id
        fresh := fun spot ts => (hnodes _ spot ts).lockstep fun _ => id }

end StoryMarkup.Render
