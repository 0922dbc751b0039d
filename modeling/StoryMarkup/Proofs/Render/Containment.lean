import StoryMarkup.Proofs.Render.Sequences

/-! Templates end with a loop signal only in a loop, and with a fatal error only if it is shown
already. -/
namespace StoryMarkup.Render

open Markup (Args ExprSource Location Segment Template)
open Script (Value)

variable {α β : Type}
variable {x : RenderM α} {f : α → RenderM β} {config : Config} {y : RenderM α} {γ : Type}

lemma displayError_of_shown (target : Nat) {e : RenderError} (h : e.displayed = true) (w : World) :
    displayError target e w = .ok e w := by
  unfold displayError
  rw [if_pos h]
  rfl

lemma displayError_of_new (target : Nat) {e : RenderError} (h : e.displayed = false) (w : World) :
    ∃ document, displayError target e w = .ok { e with displayed := true }
      { w with host := { w.host with document, errors := w.host.errors.push { e with displayed := true } } } := by
  obtain ⟨a, document, -, hd⟩ := (Drawing.drawError target { e with displayed := true }).ok w
  refine ⟨document, ?_⟩
  unfold displayError
  rw [if_neg (by simp [h])]
  simp only [Bind.bind, EStateM.bind, hd]
  rfl

def Quiet (x : RenderM α) : Prop := ∀ w, ∃ a w', x w = .ok a w' ∧ w'.host.loopDepth = w.host.loopDepth

namespace Quiet

lemma of_drawing (h : Drawing x) : Quiet x := by
  intro w
  obtain ⟨a, document, -, hd⟩ := h.ok w
  exact ⟨a, _, hd, rfl⟩

lemma of_lockstep (hx : ∀ p, (Regime.free config).Lockstep p x x) (hok : ∀ w, ∃ a w', x w = .ok a w') : Quiet x := by
  intro w
  obtain ⟨a, v, hv⟩ := hok w
  have hm := hx ⟨w.frames, w.frames, w.host.depth, w.host.loopDepth⟩ w w ⟨rfl, rfl, rfl, rfl, trivial⟩
  rw [hv] at hm
  cases hm with
  | ok _ hR => exact ⟨a, v, hv, hR.loops_eq⟩

lemma bind (hx : Quiet x) (hf : ∀ a, Quiet (f a)) : Quiet (x >>= f) := by
  intro w
  obtain ⟨a, v, hv, hl⟩ := hx w
  obtain ⟨b, u, hu, hl'⟩ := hf a v
  refine ⟨b, u, ?_, hl'.trans hl⟩
  simp only [Bind.bind, EStateM.bind, hv]
  exact hu

lemma catching (hx : ∀ p, (Regime.free config).Lockstep p x x) : Quiet (catchingRender x) := by
  refine of_lockstep (fun p => Regime.catching (hx p)) fun w => ?_
  unfold catchingRender
  split
  · exact ⟨_, _, rfl⟩
  · exact ⟨_, _, rfl⟩

lemma run {ε : Type} {x : EStateM ε World α} {site : Site}
    (hx : ∀ p, (Regime.free config).Lockstep p (Renderer.run site x) (Renderer.run site x)) :
    Quiet (Renderer.run site x) := by
  refine of_lockstep hx fun w => ?_
  unfold Renderer.run
  dsimp only
  split
  · exact ⟨_, _, rfl⟩
  · exact ⟨_, _, rfl⟩

lemma displayError (target : Nat) (e : RenderError) : Quiet (displayError target e) := by
  intro w
  cases h : e.displayed with
  | true => exact ⟨e, w, displayError_of_shown target h w, rfl⟩
  | false =>
    obtain ⟨document, hd⟩ := displayError_of_new target h w
    exact ⟨_, _, hd, rfl⟩

lemma applyAttribute (node : Nat) (name : String) (v : Value) (site : Site) :
    Quiet (applyAttribute node name v site) := by
  unfold Render.applyAttribute
  split
  · exact bind (fun w => ⟨_, _, rfl, rfl⟩) fun id _ => ⟨_, _, rfl, rfl⟩
  · exact of_drawing (Drawing.pure _)
  · exact of_drawing (Drawing.pure _)
  · exact of_drawing (Drawing.pure _)
  · exact of_drawing (Drawing.setAttribute _ _ _)
  · exact of_drawing (Drawing.bind (Drawing.display _) fun _ => Drawing.setAttribute _ _ _)

end Quiet

def Contained (loops : Nat) (signal : α → Signal) : EStateM.Result RenderError World α → Prop
  | .ok a w => w.host.loopDepth = loops ∧ (loops = 0 → signal a = .normal)
  | .error e w => w.host.loopDepth = loops ∧ e.isFatal = true ∧ e.displayed = true

def Orderly (loops : Nat) (signal : α → Signal) (x : RenderM α) : Prop :=
  ∀ w, w.host.loopDepth = loops → Contained loops signal (x w)

namespace Orderly

variable {loops : Nat} {signal : α → Signal} {signal' : β → Signal}

lemma pure {a : α} (h : loops = 0 → signal a = .normal) : Orderly loops signal (pure a) := fun _ hw => ⟨hw, h⟩

lemma bind (hx : Orderly loops signal x)
    (hf : ∀ a, (loops = 0 → signal a = .normal) → Orderly loops signal' (f a)) :
    Orderly loops signal' (x >>= f) := by
  intro w hw
  have hc := hx w hw
  simp only [Bind.bind, EStateM.bind]
  cases hxw : x w with
  | ok a v =>
    rw [hxw] at hc
    exact hf a hc.2 v hc.1
  | error e v =>
    rw [hxw] at hc
    exact hc

lemma after {x : RenderM γ} {f : γ → RenderM β} (hx : Quiet x)
    (hf : ∀ c, Orderly loops signal' (f c)) : Orderly loops signal' (x >>= f) := by
  intro w hw
  obtain ⟨c, v, hv, hl⟩ := hx w
  simp only [Bind.bind, EStateM.bind, hv]
  exact hf c v (hl.trans hw)

lemma ite {c : Prop} [Decidable c] (hx : Orderly loops signal x) (hy : Orderly loops signal y) :
    Orderly loops signal (if c then x else y) := by
  split <;> assumption

lemma normal {x : RenderM γ} {a : α} (hx : Quiet x) (ha : signal a = .normal) :
    Orderly loops signal (x >>= fun _ => Pure.pure a) :=
  after hx fun _ => pure fun _ => ha

lemma reportError (target : Nat) (e : RenderError) : Orderly loops id (reportError target e) :=
  normal (Quiet.displayError target e) rfl

lemma placeOutput (site : Site) (output : Output) : Orderly loops id (placeOutput site output) := by
  have hsignal : ∀ s : Signal, Orderly loops id
      (do if (← stage).loopDepth > 0 then return s
          else Render.reportError site.container ⟨.strayLoopSignal s, site.loc, none, false⟩) := by
    intro s w hw
    rw [bind_stage]
    by_cases hl : w.host.loopDepth > 0
    · rw [if_pos hl]
      exact ⟨hw, fun h0 => absurd (hw.trans h0) (Nat.ne_of_gt hl)⟩
    · rw [if_neg hl]
      exact reportError _ _ w hw
  cases output with
  | nothing => exact pure fun _ => rfl
  | text s => exact normal (.of_drawing (Drawing.emitText _ _ _)) rfl
  | node id => exact normal (.of_drawing (Drawing.append _ _)) rfl
  | signal s =>
    cases s with
    | normal => exact pure fun _ => rfl
    | breakLoop | continueLoop => exact hsignal _

lemma settle (target : Nat) (name : String) (loc : Location) (e : RenderError) :
    Orderly loops id (settle target name loc e) := by
  intro w hw
  have hshown : ∃ e' v, displayError target (e.blame name loc) w = .ok e' v ∧ v.host.loopDepth =
      loops ∧ e'.displayed = true := by
    cases h : (e.blame name loc).displayed with
    | true => exact ⟨_, w, displayError_of_shown target h w, hw, h⟩
    | false =>
      obtain ⟨document, hd⟩ := displayError_of_new target h w
      exact ⟨_, _, hd, hw, rfl⟩
  obtain ⟨e', v, hd, hl, hs⟩ := hshown
  unfold Render.settle
  simp only [Bind.bind, EStateM.bind, hd]
  by_cases hfatal : e'.isFatal = true
  · rw [if_pos hfatal]
    exact ⟨hl, hfatal, hs⟩
  · rw [if_neg hfatal]
    exact ⟨hl, fun _ => rfl⟩

section Renderer

variable {r : Renderer} {defs : Array Definition} (hsteady : ∀ d ∈ defs, d.handler.Steady)
  (hself : ∀ p, Fellows (Regime.free config) p (fun _ => False) r r)
  (hnodes : ∀ spot ts, Orderly loops id (r.nodes spot ts))

include hself in
lemma quiet_applyAttributes (parent : Nat) (element : String) (site : Site)
    (attrs : List (String × ExprSource)) : Quiet (applyAttributes r parent element site attrs) := by
  induction attrs with
  | nil => exact .of_drawing (Drawing.pure _)
  | cons e rest ih =>
    have hrun : Quiet (Renderer.run site (Script.evalSource (r.env site.temp) (r.invoke site) e.2.code)) :=
      Quiet.run fun p => Regime.run site ((hself p).evalSource_bond (r.env site.temp) site 0 _)
    refine hrun.bind fun found => ?_
    cases found with
    | ok v => exact (Quiet.applyAttribute _ _ _ _).bind fun _ => ih
    | error cause => exact (Quiet.displayError _ _).bind fun _ => .of_drawing (Drawing.pure _)

include hself hnodes in
lemma renderElement (spot : Spot) (name : String) (attrs : Bindings String)
    (dyn : Bindings ExprSource) (content : List Template) (loc : Location) :
    Orderly loops id (renderElement r spot name attrs dyn content loc) := by
  refine after (.of_drawing (Drawing.createElement _)) fun node =>
    after (.of_drawing (Drawing.forM _ fun _ => Drawing.setAttribute _ _ _)) fun _ =>
      after (quiet_applyAttributes hself _ _ _ _) fun _ => after (.of_drawing (Drawing.append _ _)) fun _ =>
        ite (normal (.of_drawing (Drawing.forM content fun t => ?_)) rfl) (hnodes _ _)
  cases t with
  | text s loc => exact Drawing.appendText _ _
  | _ => exact Drawing.pure _

include hsteady hself in
lemma useMacro (id' : Nat) (args : Args) (content : Option (List Template)) (chain : List Segment)
    (site : Site) : Orderly loops id (useMacro defs r id' args content chain site) := by
  unfold Render.useMacro
  cases hd : defs[id']? with
  | none => exact pure fun _ => rfl
  | some d =>
    dsimp only
    cases bodyMistake? d.info content with
    | some mistake => exact reportError _ _
    | none =>
      refine after (Quiet.catching fun p => (hself p).evalValues site _) fun found => ?_
      cases found with
      | error e => exact reportError _ _
      | ok values =>
        have hhandler : ∀ p, (Regime.free config).Lockstep p
            (d.handler r ⟨d.info.name, args, values, content, chain, site⟩)
            (d.handler r ⟨d.info.name, args, values, content, chain, site⟩) := fun p =>
          (hsteady d (Array.mem_of_getElem? hd) (hself p) _).lockstep fun output hl => by cases output <;> exact hl
        refine after (Quiet.catching hhandler) fun found => ?_
        cases found with
        | ok output => exact placeOutput site output
        | error e => exact settle _ _ _ e

include hsteady hself hnodes in
lemma renderNode (spot : Spot) (t : Template) : Orderly loops id (renderNode defs r spot t) := by
  cases t with
  | text s loc => exact normal (.of_drawing (Drawing.emitText _ _ _)) rfl
  | element name attrs dyn content loc => exact renderElement hself hnodes _ _ _ _ _ _
  | link target label loc =>
    refine after (.of_drawing (Drawing.createElement _)) fun a =>
      after (.of_drawing (Drawing.setAttribute _ _ _)) fun _ =>
      after (.of_drawing (Drawing.setAttribute _ _ _)) fun _ => after (.of_drawing (Drawing.appendText _ _)) fun _ =>
        after (fun w => ⟨_, _, rfl, rfl⟩) fun id => after (fun w => ⟨_, _, rfl, rfl⟩) fun _ =>
          normal (.of_drawing (Drawing.append _ _)) rfl
  | reference scope base accesses body loc =>
    have hresolve := Quiet.run fun p =>
      Regime.run { spot with loc } ((hself p).resolve (r.env spot.temp) { spot with loc } scope base accesses)
    refine after hresolve fun found => ?_
    cases found with
    | error e => exact reportError _ _
    | ok resolved =>
      cases resolved with
      | use id args => exact useMacro hsteady hself id _ body [] _
      | value v => exact ite (reportError _ _) (normal (.of_drawing (Drawing.emitValue _ v _)) rfl)
  | chain segments loc =>
    cases segments with
    | nil => exact pure fun _ => rfl
    | cons head siblings =>
      refine after (fun w => ⟨w, w, rfl, rfl⟩) fun w => ?_
      cases r.setting.findMacro? w.heap head.name with
      | none => exact reportError _ _
      | some found => exact useMacro hsteady hself found.1 _ _ _ _
  | error message sample loc => exact reportError _ _

include hsteady hself hnodes

lemma renderBlockItem (spot : Spot) (para : Option Nat) (t : Template) (rest : List Template) :
    Orderly loops Prod.fst (renderBlockItem defs r spot para t rest) := by
  have hplain : Orderly loops Prod.fst
      (do return (← Render.renderNode defs r spot t, none) : RenderM (Signal × Option Nat)) :=
    bind (renderNode hsteady hself hnodes spot t) fun _ hs => pure hs
  have hinside : Orderly loops Prod.fst
      (do
        let q ← openParagraph spot.container para
        return (← Render.renderNode defs r { spot with container := q, mode := .inline } t, some q)) :=
    after (.of_drawing (Drawing.openParagraph _ _)) fun q =>
      bind (renderNode hsteady hself hnodes _ t) fun _ hs => pure hs
  cases t with
  | text s loc => exact after (.of_drawing (Drawing.blockText _ _ _)) fun _ => pure fun _ => rfl
  | element name attrs dyn content loc => exact ite hplain hinside
  | link target label loc => exact hinside
  | reference scope base accesses body loc | chain segments loc => exact ite hinside hplain
  | error message sample loc => exact hplain

lemma renderSequence (spot : Spot) (ts : List Template) : Orderly loops id (renderSequence defs r spot ts) := by
  have hblock : ∀ para, Orderly loops id (renderBlock defs r spot para ts) := by
    induction ts with
    | nil => exact fun _ => pure fun _ => rfl
    | cons t rest ih =>
      exact fun para => bind (renderBlockItem hsteady hself hnodes spot para t rest) fun item hs =>
        ite (ih item.2) (pure hs)
  have heach : Orderly loops id (renderEach defs r spot ts) := by
    clear hblock
    induction ts with
    | nil => exact pure fun _ => rfl
    | cons t rest ih => exact bind (renderNode hsteady hself hnodes spot t) fun _ hs => ite ih (pure hs)
  unfold Render.renderSequence
  cases spot.mode with
  | block => exact hblock none
  | _ => exact heach

lemma renderNodes (spot : Spot) (ts : List Template) : Orderly loops id (renderNodes defs r spot ts) := by
  intro w hw
  cases hrec : w.host.recovering with
  | true =>
    rw [renderNodes_held spot ts hrec]
    exact ⟨hw, fun _ => rfl⟩
  | false =>
    by_cases hd : r.setting.config.recursionLimit ≤ w.host.depth
    · rw [renderNodes_cut spot ts hrec hd]
      exact reportError _ _ _ hw
    · rw [renderNodes_nested spot ts hrec (Nat.lt_of_not_le hd)]
      have hc := renderSequence hsteady hself hnodes spot ts
        { w with host := { w.host with depth := w.host.depth + 1 } } hw
      unfold Render.nested
      generalize Render.renderSequence defs r spot ts _ = result at hc
      cases result with
      | ok s v | error e v => exact hc

end Renderer
end Orderly

lemma orderly_renderer (setting : Setting) {defs : Array Definition}
    (hsteady : ∀ d ∈ defs, d.handler.Steady) (levels loops : Nat) (spot : Spot)
    (ts : List Template) : Orderly loops id ((renderer setting defs levels).nodes spot ts) := by
  induction levels generalizing spot ts with
  | zero => exact .pure fun _ => rfl
  | succ levels ih =>
    rw [renderer_succ]
    exact Orderly.renderNodes hsteady (fellows_renderer (G := Regime.free setting.config) hsteady rfl levels) ih spot ts

end StoryMarkup.Render
