import StoryMarkup.Proofs.Render.Containment
import StoryMarkup.Proofs.Render.Requests
import StoryMarkup.Session

/-! Loop signals. A jump ends all around it in the same loop and pass; outside of all loops it is an
error. -/
namespace StoryMarkup.Render

open Regime Macros
open Markup (Access ExprSource Location Template)
open Script (Heap Value)

variable {setting : Setting} {defs : Array Definition} {r : Renderer}
variable {v w : World} {spot : Spot} {s : Signal} {t : Template} {para paragraph' : Option Nat}
  {rest ts ts' : List Template} {levels : Nat}

section Jumps

/-- A template that breaks off a loop or goes on with its next round, and the worlds before and
after: the macro of the signal without a body, with arguments that can be evaluated. -/
inductive Jump (defs : Array Definition) (r : Renderer) (spot : Spot) (s : Signal) :
    Template → World → World → Prop
  | use {base : String} {accesses : List Access} {args : List ExprSource} {values : List Value} {id : Nat}
    {name : String} {w v : World} (loc : Location) :
    accesses = [] ∧ args = [] ∨ (∃ raw, accesses = [.call args raw]) →
    (w.heap.object r.setting.constants).get? base = some (.macroDef id name) →
    defs[id]? = some ⟨⟨s.name, {}⟩, Macros.jump s⟩ → evalValues r { spot with loc } args w = .ok values v →
    Jump defs r spot s (.reference .constants base accesses none loc) w v

lemma scopeValue_of_some {ω : Type} {env : Script.Env} {scope : Script.Scope} {name : String} {v : Value}
    {m : Script.Machine ω} (h : (m.heap.object (env.scope scope)).get? name = some v) :
    Script.ScriptM.scopeValue env scope name m = .ok v m := by
  have hheap : ∀ f : Heap → Script.ScriptM ω Value, (Script.ScriptM.heap >>= f) m = f m.heap m := fun _ => rfl
  unfold Script.ScriptM.scopeValue
  rw [hheap]
  dsimp only
  rw [h]
  rfl

lemma run_resolve_use (r : Renderer) (site : Site) {base : String} {accesses : List Access} {args : List ExprSource}
    {id : Nat} {name : String} (hacc : accesses = [] ∧ args = [] ∨ ∃ raw, accesses = [.call args raw])
    (hbase : (w.heap.object r.setting.constants).get? base = some (.macroDef id name)) :
    Renderer.run site (resolve (r.env site.temp) (r.invoke site) .constants base accesses) w =
      .ok (.ok (.use id args)) w := by
  let m : World := { w with frames := [], warnings := #[] }
  have hvalue : Script.ScriptM.scopeValue (r.env site.temp) .constants base m = .ok (.macroDef id name) m :=
    scopeValue_of_some hbase
  have hresolve : resolve (r.env site.temp) (r.invoke site) .constants base accesses m = .ok (.use id args) m := by
    obtain ⟨rfl, rfl⟩ | ⟨raw, rfl⟩ := hacc
    · simp only [resolve, splitCall, Bind.bind, EStateM.bind, within, hvalue]
      rfl
    · simp only [resolve, splitCall, Bind.bind, EStateM.bind, within, hvalue]
      rfl
  unfold Renderer.run
  dsimp only
  rw [hresolve]
  simp [m]

lemma catchingRender_of_ok {α : Type} {x : RenderM α} {a : α} (h : x w = .ok a v) :
    catchingRender x w = .ok (.ok a) v := by
  simp [catchingRender, h]

lemma renderNode_jump (h : Jump defs r spot s t w v) :
    renderNode defs r spot t w = placeOutput { spot with loc := t.loc } (.signal s) v := by
  cases h with
  | use loc hacc hbase hdef hargs =>
    have hrun := run_resolve_use r { spot with loc } hacc hbase
    have hvalues := catchingRender_of_ok hargs
    simp only [renderNode, renderReference, Bind.bind, EStateM.bind, hrun, useMacro, hdef, bodyMistake?, valueArgs,
      hvalues]
    rfl

lemma placeOutput_stray (site : Site) (hs : s ≠ .normal) (hl : w.host.loopDepth = 0) :
    ∃ document, placeOutput site (.signal s) w = .ok .normal
      { w with host := { w.host with
        document, errors := w.host.errors.push ⟨.strayLoopSignal s, site.loc, none, true⟩ } } := by
  have hreport : ∀ s : Signal, ∃ document,
      (do if (← stage).loopDepth > 0 then return s
          else reportError site.container ⟨.strayLoopSignal s, site.loc, none, false⟩ : RenderM Signal) w = .ok .normal
        { w with host := { w.host with
          document, errors := w.host.errors.push ⟨.strayLoopSignal s, site.loc, none, true⟩ } } := by
    intro s
    obtain ⟨document, hd⟩ := displayError_of_new site.container
      (e := ⟨.strayLoopSignal s, site.loc, none, false⟩) rfl w
    refine ⟨document, ?_⟩
    rw [bind_stage, if_neg (by omega)]
    simp only [reportError, Bind.bind, EStateM.bind, hd]
    rfl
  cases s with
  | normal => exact absurd rfl hs
  | breakLoop | continueLoop => exact hreport _

end Jumps

section Sequences

def renderItem (defs : Array Definition) (r : Renderer) (spot : Spot) (para : Option Nat) (t : Template)
    (rest : List Template) : RenderM (Signal × Option Nat) :=
  match spot.mode with
  | .block => renderBlockItem defs r spot para t rest
  | _ => do return (← renderNode defs r spot t, none)

def renderFrom (defs : Array Definition) (r : Renderer) (spot : Spot) (para : Option Nat)
    (ts : List Template) : RenderM Signal :=
  match spot.mode with
  | .block => renderBlock defs r spot para ts
  | _ => renderEach defs r spot ts

lemma renderSequence_eq (spot : Spot) (ts : List Template) :
    renderSequence defs r spot ts = renderFrom defs r spot none ts := by
  unfold renderSequence renderFrom
  cases spot.mode <;> rfl

lemma renderFrom_cons (spot : Spot) (para : Option Nat) (t : Template) (rest : List Template) :
    renderFrom defs r spot para (t :: rest) = (do
      let (s, para) ← renderItem defs r spot para t rest
      if s == .normal then renderFrom defs r spot para rest else return s) := by
  unfold renderFrom renderItem
  cases spot.mode with
  | block => rfl
  | _ => rw [renderEach, bind_assoc]; rfl

lemma renderFrom_of_normal (h : renderItem defs r spot para t rest w = .ok (.normal, paragraph') v) :
    renderFrom defs r spot para (t :: rest) w = renderFrom defs r spot paragraph' rest v := by
  rw [renderFrom_cons]
  simp only [Bind.bind, EStateM.bind, h]
  rfl

lemma renderFrom_of_signal (hs : s ≠ .normal)
    (h : renderItem defs r spot para t rest w = .ok (s, paragraph') v) :
    renderFrom defs r spot para (t :: rest) w = .ok s v := by
  have hne : ¬ (s == .normal) = true := fun he => hs (eq_of_beq he)
  rw [renderFrom_cons]
  simp only [Bind.bind, EStateM.bind, h]
  rw [if_neg hne]
  rfl

inductive Arrives (defs : Array Definition) (r : Renderer) (spot : Spot) :
    Option Nat → List Template → World → Option Nat → List Template → World → Prop
  | here (para : Option Nat) (ts : List Template) (w : World) :
    Arrives defs r spot para ts w para ts w
  | next {para paragraph' paragraph'' : Option Nat} {t : Template} {rest ts : List Template} {w w' w'' : World} :
    renderItem defs r spot para t rest w = .ok (.normal, paragraph') w' →
    Arrives defs r spot paragraph' rest w' paragraph'' ts w'' →
    Arrives defs r spot para (t :: rest) w paragraph'' ts w''

lemma Arrives.renderFrom_eq {w' : World} (h : Arrives defs r spot para ts w paragraph' ts' w') :
    renderFrom defs r spot para ts w = renderFrom defs r spot paragraph' ts' w' := by
  induction h with
  | here => rfl
  | next hitem hrest ih => exact (renderFrom_of_normal hitem).trans ih

def referenceSpot (spot : Spot) (para : Option Nat) (rest : List Template) : RenderM (Spot × Option Nat) :=
  match spot.mode with
  | .block =>
    if para.isSome || startsInline rest then do
      let p ← openParagraph spot.container para
      return ({ spot with container := p, mode := .inline }, some p)
    else return (spot, none)
  | _ => return (spot, none)

lemma renderItem_reference (spot : Spot) (para : Option Nat) (scope : Script.Scope) (base : String)
    (accesses : List Access) (body : Option (List Template)) (loc : Location) (rest : List Template) :
    renderItem defs r spot para (.reference scope base accesses body loc) rest = (do
      let (inside, para) ← referenceSpot spot para rest
      return (← renderNode defs r inside (.reference scope base accesses body loc), para)) := by
  unfold renderItem referenceSpot
  cases spot.mode with
  | block =>
    simp only [renderBlockItem]
    split
    · rw [bind_assoc]
      rfl
    · rfl
  | _ => rfl

lemma drawing_referenceSpot (spot : Spot) (para : Option Nat) (rest : List Template) :
    Drawing (referenceSpot spot para rest) := by
  unfold referenceSpot
  cases spot.mode with
  | block => exact .ite (.bind (Drawing.openParagraph _ _) fun _ => .pure _) (.pure _)
  | _ => exact .pure _

inductive MeetsJump (defs : Array Definition) (r : Renderer) (spot : Spot) (s : Signal) (ts : List Template)
    (w : World) : Location → Option Nat → List Template → World → Prop
  | intro {t : Template} {rest : List Template} {para paragraph' : Option Nat} {inside : Spot} {w₁ w₂ v : World} :
    Arrives defs r spot none ts w para (t :: rest) w₁ →
    referenceSpot spot para rest w₁ = .ok (inside, paragraph') w₂ → Jump defs r inside s t w₂ v →
    MeetsJump defs r spot s ts w t.loc paragraph' rest v

lemma renderItem_jump {inside : Spot} {u : World}
    (hspot : referenceSpot spot para rest w = .ok (inside, paragraph') u) (h : Jump defs r inside s t u v) :
    renderItem defs r spot para t rest w =
      (do return (← placeOutput { inside with loc := t.loc } (.signal s), paragraph')) v := by
  have hnode := renderNode_jump h
  cases h with
  | use loc hacc hbase hdef hargs =>
    rw [renderItem_reference]
    simp [Bind.bind, EStateM.bind, hspot, hnode]

namespace MeetsJump

variable {loc : Location}

lemma renderSequence_eq_signal (h : MeetsJump defs r spot s ts w loc para rest v) (hs : s ≠ .normal)
    (hl : 0 < v.host.loopDepth) : renderSequence defs r spot ts w = .ok s v := by
  cases h with
  | intro harrives hspot hjump =>
    have hitem := renderItem_jump hspot hjump
    simp only [Bind.bind, EStateM.bind, placeOutput_signal _ hl] at hitem
    rw [renderSequence_eq, harrives.renderFrom_eq]
    exact renderFrom_of_signal hs hitem

lemma renderSequence_eq_rest (h : MeetsJump defs r spot s ts w loc para rest v) (hs : s ≠ .normal)
    (hl : v.host.loopDepth = 0) :
    ∃ document, renderSequence defs r spot ts w =
      renderFrom defs r spot para rest { v with host := { v.host with
        document, errors := v.host.errors.push ⟨.strayLoopSignal s, loc, none, true⟩ } } := by
  cases h with
  | intro harrives hspot hjump =>
    rename_i t _ inside _ _
    obtain ⟨document, hplace⟩ := placeOutput_stray { inside with loc := t.loc } hs hl
    have hitem := renderItem_jump hspot hjump
    simp only [Bind.bind, EStateM.bind, hplace] at hitem
    refine ⟨document, ?_⟩
    rw [renderSequence_eq, harrives.renderFrom_eq]
    exact renderFrom_of_normal hitem

end MeetsJump

end Sequences

section Rounds

/-- Rendering a sequence with so many levels below it comes to a jump: in the sequence itself, or in
one that is rendered for it inside the same loops. -/
inductive ReachesJump (setting : Setting) (defs : Array Definition) (s : Signal) :
    Nat → Spot → List Template → World → Prop
  | here {levels : Nat} {spot : Spot} {ts rest : List Template} {loc : Location} {para : Option Nat} {w v : World} :
    w.host.recovering = false → w.host.depth < setting.config.recursionLimit →
    MeetsJump defs (renderer setting defs levels) spot s ts
      { w with host := { w.host with depth := w.host.depth + 1 } } loc para rest v →
    ReachesJump setting defs s (levels + 1) spot ts w
  | within {levels : Nat} {spot spot' : Spot} {ts ts' : List Template} {w w' : World} :
    Asks (fun r => renderNodes defs r spot ts w) (renderer setting defs levels) (.nodes spot' ts' w') →
    w'.host.loopDepth = w.host.loopDepth → ReachesJump setting defs s levels spot' ts' w' →
    ReachesJump setting defs s (levels + 1) spot ts w

lemma AgreeExcept.fellows_signal {config : Config} {r' : Renderer} (h : AgreeExcept (.nodes spot ts w) r r')
    (hself : ∀ p, Fellows (free config) p (fun _ => False) r r) (hs : s ≠ .normal) (hl : 0 < w.host.loopDepth)
    (hanswer : r.nodes spot ts w = .ok s v) (hv : v.host.loopDepth = w.host.loopDepth) (fs : Frames) (depth : Nat) :
    Fellows (free config) ⟨fs, fs, depth, w.host.loopDepth⟩ (· = s) r r' := by
  -- the request stands inside as many loops as its world says, and nowhere else
  have helsewhere : ∀ l, l ≠ w.host.loopDepth → ∀ spot ts,
      (free config).Lockstep ⟨fs, fs, depth, l⟩ (r.nodes spot ts) (r'.nodes spot ts) := by
    refine fun l hne spot' ts' => .rigid fun u u' hu => ?_
    have hother : Request.nodes spot' ts' u' ≠ .nodes spot ts w := by
      intro he
      have hworld : u' = w := (Request.nodes.inj he).2.2
      exact hne (hu.loops_eq.symm.trans (by rw [← hu.eq, hworld]))
    rw [h.nodes_eq hother]
    exact (hself _).nodes spot' ts' |>.lockstep (fun _ => id) u u' hu
  exact
    { setting_eq := h.setting_eq, config_eq := (hself ⟨fs, fs, depth, 0⟩).config_eq
      out_normal := fun he => hs he.symm, out_loops := fun _ _ => hl
      nodes := by
        intro spot' ts' u u' hu
        by_cases hsame : Request.nodes spot' ts' u' = .nodes spot ts w
        · obtain ⟨rfl, rfl, rfl⟩ := Request.nodes.inj hsame
          have hu' : u' = u := hu.eq
          exact .inr ⟨s, v, hu' ▸ hanswer, hv, rfl⟩
        · rw [h.nodes_eq hsame]
          exact .inl ((hself _).nodes spot' ts' |>.lockstep (fun _ => id) u u' hu)
      inner := helsewhere _ (Nat.succ_ne_self _)
      fresh := helsewhere _ (Nat.ne_of_lt hl)
      invoke := by
        refine fun fs l site id name args => .rigid fun u u' hu => ?_
        have hother : Request.invoke site id name args u' ≠ .nodes spot ts w := nofun
        rw [h.invoke_eq hother]
        exact (hself ⟨fs, fs, depth, l⟩).invoke fs l site id name args u u' hu }

variable (hsteady : ∀ d ∈ defs, d.handler.Steady)
include hsteady

lemma loops_of_ok (h : (renderer setting defs levels).nodes spot ts w = .ok s v) :
    v.host.loopDepth = w.host.loopDepth := by
  have hc := orderly_renderer setting hsteady levels w.host.loopDepth spot ts w rfl
  rw [h] at hc
  exact hc.1

lemma Asks.renderNodes_signal {config : Config} {spot' : Spot} {w' : World}
    (h : Asks (fun r => renderNodes defs r spot ts w) r (.nodes spot' ts' w'))
    (hself : ∀ p, Fellows (free config) p (fun _ => False) r r) (hs : s ≠ .normal) (hl : 0 < w.host.loopDepth)
    (hloops : w'.host.loopDepth = w.host.loopDepth) (hanswer : r.nodes spot' ts' w' = .ok s v)
    (hv : v.host.loopDepth = w'.host.loopDepth) : ∃ u, renderNodes defs r spot ts w = .ok s u := by
  obtain ⟨r', hagree, hne⟩ := h
  -- without the signal the two renderers would come to the same, so the answer would not be asked for
  have hfellows := hagree.fellows_signal hself hs (hloops ▸ hl) hanswer hv w.frames (w.host.depth + 1)
  have hw : (free config).Abreast ⟨w.frames, w.frames, w.host.depth, w'.host.loopDepth⟩ w w :=
    ⟨rfl, rfl, rfl, hloops.symm, trivial⟩
  obtain hm | ⟨a, u, hu, -, rfl⟩ :=
    Fellows.renderNodes (p := ⟨w.frames, w.frames, w.host.depth, w'.host.loopDepth⟩) hsteady hfellows spot ts w w hw
  · exact absurd (eq_of_matched hm) hne
  · exact ⟨u, hu⟩

lemma Arrives.loops_eq {w' : World}
    (h : Arrives defs (renderer setting defs levels) spot para ts w paragraph' ts' w') :
    w'.host.loopDepth = w.host.loopDepth := by
  have hself := fellows_renderer (G := free setting.config) hsteady rfl levels
  induction h with
  | here => rfl
  | next hitem hrest ih =>
    rename_i para _ _ t rest _ w v _
    have hnodes := orderly_renderer setting hsteady levels w.host.loopDepth
    have horderly : Orderly w.host.loopDepth Prod.fst
        (renderItem defs (renderer setting defs levels) spot para t rest) := by
      unfold renderItem
      cases spot.mode with
      | block => exact Orderly.renderBlockItem hsteady hself hnodes spot para t rest
      | _ => exact (Orderly.renderNode hsteady hself hnodes spot t).bind fun _ hs => .pure hs
    have hc := horderly w rfl
    rw [hitem] at hc
    exact ih.trans hc.1

lemma Jump.loops_eq (h : Jump defs (renderer setting defs levels) spot s t w v) :
    v.host.loopDepth = w.host.loopDepth := by
  cases h with
  | use loc hacc hbase hdef hargs =>
    rename_i args _ _ _
    have hself := fellows_renderer (G := free setting.config) hsteady rfl levels
      ⟨w.frames, w.frames, w.host.depth, w.host.loopDepth⟩
    have hm := hself.evalValues { spot with loc } args w w ⟨rfl, rfl, rfl, rfl, trivial⟩
    rw [hargs] at hm
    cases hm with
    | ok _ hR => exact hR.loops_eq

lemma MeetsJump.loops_eq {loc : Location}
    (h : MeetsJump defs (renderer setting defs levels) spot s ts w loc para rest v) :
    v.host.loopDepth = w.host.loopDepth := by
  cases h with
  | intro harrives hspot hjump =>
    obtain ⟨_, document, -, hd⟩ := (drawing_referenceSpot spot _ rest).ok _
    rw [hspot] at hd
    injection hd with _ hworld
    rw [hjump.loops_eq hsteady, hworld]
    exact harrives.loops_eq hsteady

lemma ReachesJump.nodes_eq (hs : s ≠ .normal) (h : ReachesJump setting defs s levels spot ts w)
    (hl : 0 < w.host.loopDepth) : ∃ v, (renderer setting defs levels).nodes spot ts w = .ok s v := by
  induction h with
  | here hrec hdepth hmeets =>
    rename_i levels spot ts rest loc para w v
    have hsignal := hmeets.renderSequence_eq_signal hs (hmeets.loops_eq hsteady ▸ hl)
    rw [renderer_succ]
    change ∃ v, renderNodes defs (renderer setting defs levels) spot ts w = .ok s v
    rw [renderNodes_nested spot ts hrec (by rwa [renderer_setting]), nested, hsignal]
    exact ⟨_, rfl⟩
  | within hasks hloops hreaches ih =>
    rename_i levels spot spot' ts ts' w w'
    obtain ⟨v, hv⟩ := ih (hloops ▸ hl)
    rw [renderer_succ]
    exact hasks.renderNodes_signal hsteady (fellows_renderer (G := free setting.config) hsteady rfl levels) hs hl
      hloops hv (loops_of_ok hsteady hv)

lemma ReachesJump.loopBody_eq (hs : s ≠ .normal) (ctx : Context) (captures : Captures)
    (h : ReachesJump setting defs s levels { ctx.site.toSpot with captures } ts
      { w with host := { w.host with loopDepth := w.host.loopDepth + 1 } }) :
    ∃ v, (renderer setting defs levels).loopBody ctx ts captures w = .ok s v ∧
      v.host.loopDepth = w.host.loopDepth := by
  obtain ⟨v, hv⟩ := h.nodes_eq hsteady hs (Nat.succ_pos _)
  have hloops := loops_of_ok hsteady hv
  refine ⟨{ v with host := { v.host with loopDepth := v.host.loopDepth - 1 } }, ?_, congrArg (· - 1) hloops⟩
  simp [Renderer.loopBody, inLoop, hv]

end Rounds

section Loops

def Yields {α : Type} (P : α → Prop) (x : RenderM α) : Prop := ∀ w a v, x w = .ok a v → P a

namespace Yields

variable {α β : Type} {P : β → Prop}

lemma pure {b : β} (h : P b) : Yields P (pure b) := by
  rintro w a v ⟨⟩
  exact h

lemma throw (e : RenderError) : Yields P (throw e) := fun _ _ _ h => nomatch h

lemma bind {x : RenderM α} {f : α → RenderM β} (hf : ∀ a, Yields P (f a)) : Yields P (x >>= f) := by
  intro w b v h
  simp only [Bind.bind, EStateM.bind] at h
  cases hx : x w with
  | ok a u =>
    rw [hx] at h
    exact hf a u b v h
  | error e u =>
    rw [hx] at h
    cases h

lemma ite {c : Prop} [Decidable c] {x y : RenderM β} (hx : Yields P x) (hy : Yields P y) :
    Yields P (if c then x else y) := by
  split <;> assumption

end Yields

lemma yields_repeatFor (ctx : Context) (binding : String) (items : List Value) :
    Yields (· = .nothing) (repeatFor r ctx binding items) := by
  induction items with
  | nil => exact .pure rfl
  | cons item rest ih => exact .bind fun _ => .bind fun _ => .ite (.pure rfl) ih

lemma yields_repeatWhile (ctx : Context) (cond : Markup.ExprSource) (more : Nat) :
    Yields (· = .nothing) (repeatWhile r ctx cond more) := by
  induction more with
  | zero => exact .bind fun _ => .ite (.throw _) (.pure rfl)
  | succ more ih => exact .bind fun _ => .ite (.bind fun _ => .ite (.pure rfl) ih) (.pure rfl)

lemma yields_forLoop (ctx : Context) : Yields (· = .nothing) (forLoop r ctx) := by
  unfold forLoop
  split
  · exact .throw _
  · exact .bind fun _ => .bind fun _ => .ite (.throw _) (yields_repeatFor ctx _ _)

lemma yields_whileLoop (ctx : Context) : Yields (· = .nothing) (whileLoop r ctx) :=
  .bind fun _ => yields_repeatWhile ctx _ _

end Loops

structure SignalsContained (setting : Setting) (defs : Array Definition) (levels : Nat) : Prop where
  /-- Outside of all loops a sequence ends without a signal, or with a fatal error that is shown
  already. -/
  outside : ∀ spot ts w, w.host.loopDepth = 0 →
    (∃ v, (renderer setting defs levels).nodes spot ts w = .ok .normal v) ∨
      ∃ e v, (renderer setting defs levels).nodes spot ts w = .error e v ∧ e.isFatal = true ∧ e.displayed = true
  /-- Rendering leaves the loops around as they are. -/
  loops_ok : ∀ spot ts w s v, (renderer setting defs levels).nodes spot ts w = .ok s v →
    v.host.loopDepth = w.host.loopDepth
  loops_error : ∀ spot ts w e v, (renderer setting defs levels).nodes spot ts w = .error e v →
    v.host.loopDepth = w.host.loopDepth
  /-- A jump that the body of a loop over items comes to ends the loop or the round, and only
  that. -/
  for_round : ∀ s ≠ .normal, ∀ ctx binding item rest w,
    ReachesJump setting defs s levels
      { ctx.site.toSpot with captures := ctx.site.captures.extended binding item } ctx.body
      { w with heap := w.heap.modifyObject ctx.site.temp fun scope => scope.insert binding item
               host := { w.host with loopDepth := w.host.loopDepth + 1 } } →
    ∃ v, v.host.loopDepth = w.host.loopDepth ∧
      repeatFor (renderer setting defs levels) ctx binding (item :: rest) w =
        if s = .breakLoop then .ok .nothing v
        else repeatFor (renderer setting defs levels) ctx binding rest v
  /-- So does one in the body of a loop with a condition, which is evaluated before the round. -/
  while_round : ∀ s ≠ .normal, ∀ ctx cond more c w u,
    (renderer setting defs levels).eval cond ctx.site w = .ok c u → c.isTruthy = true →
    ReachesJump setting defs s levels ctx.site.toSpot ctx.body
      { u with host := { u.host with loopDepth := u.host.loopDepth + 1 } } →
    ∃ v, v.host.loopDepth = u.host.loopDepth ∧
      repeatWhile (renderer setting defs levels) ctx cond (more + 1) w =
        if s = .breakLoop then .ok .nothing v
        else repeatWhile (renderer setting defs levels) ctx cond more v
  /-- No loop hands a signal on. -/
  for_leaves : ∀ ctx w output v, forLoop (renderer setting defs levels) ctx w = .ok output v →
    output = .nothing
  while_leaves : ∀ ctx w output v, whileLoop (renderer setting defs levels) ctx w = .ok output v →
    output = .nothing
  /-- Outside of all loops a jump adds one error, and what follows it is rendered. -/
  stray : ∀ s ≠ .normal, ∀ spot ts w loc para rest v,
    MeetsJump defs (renderer setting defs levels) spot s ts w loc para rest v →
    w.host.loopDepth = 0 →
    ∃ document, renderSequence defs (renderer setting defs levels) spot ts w =
      renderFrom defs (renderer setting defs levels) spot para rest { v with host := { v.host with
        document, errors := v.host.errors.push ⟨.strayLoopSignal s, loc, none, true⟩ } }
  /-- A signal that a macro called from an expression would leave is a failure of that
  expression. -/
  called : ∀ s ≠ .normal, ∀ site id name args w d v, defs[id]? = some d →
    d.handler (renderer setting defs levels) ⟨d.info.name, .list [], args, none, [], site⟩ w =
      .ok (.signal s) v →
    (renderer setting defs (levels + 1)).invoke site id name args w =
      .error ⟨.other ("@" ++ s.name ++ " cannot be used inside an expression"), none⟩ v

/-- With the macros of the library loop signals never escape. -/
theorem loop_signals_contained (setting : Setting) (levels : Nat) :
    SignalsContained setting builtins.toArray levels := by
  have hsteady : ∀ d ∈ builtins.toArray, d.handler.Steady := fun d hd =>
    Macros.steady_builtins d (by simpa using hd)
  have hnodes (spot ts w) := orderly_renderer setting hsteady levels w.host.loopDepth spot ts w rfl
  refine
    { outside := fun spot ts w hl => ?_
      loops_ok := fun spot ts w s v h => loops_of_ok hsteady h
      loops_error := fun spot ts w e v h => ?_
      for_round := fun s hs ctx binding item rest w h => ?_
      while_round := fun s hs ctx cond more c w u hcond hc h => ?_
      for_leaves := fun ctx => yields_forLoop ctx
      while_leaves := fun ctx => yields_whileLoop ctx
      stray := fun s hs spot ts w loc para rest v h hl =>
        h.renderSequence_eq_rest hs ((h.loops_eq hsteady).trans hl)
      called := fun s hs site id name args w d v hd h => ?_ }
  · have hc := hnodes spot ts w
    cases hw : (renderer setting builtins.toArray levels).nodes spot ts w with
    | ok s v =>
      rw [hw] at hc
      exact .inl ⟨v, by rw [show s = .normal from hc.2 hl]⟩
    | error e v =>
      rw [hw] at hc
      exact .inr ⟨e, v, rfl, hc.2⟩
  · have hc := hnodes spot ts w
    rw [h] at hc
    exact hc.1
  · obtain ⟨v, hv, hl⟩ := ReachesJump.loopBody_eq hsteady hs ctx (ctx.site.captures.extended binding item)
      (w := { w with heap := w.heap.modifyObject ctx.site.temp fun scope => scope.insert binding item }) h
    have hmodify : ∀ (g : World → World) (x : RenderM Output), (modify g >>= fun _ => x) w = x (g w) := fun _ _ => rfl
    rw [repeatFor, hmodify]
    simp only [Bind.bind, EStateM.bind, hv]
    cases s with
    | normal => exact absurd rfl hs
    | breakLoop | continueLoop => exact ⟨v, hl, rfl⟩
  · obtain ⟨v, hv, hl⟩ := ReachesJump.loopBody_eq hsteady hs ctx ctx.site.captures h
    rw [repeatWhile]
    simp only [Bind.bind, EStateM.bind, hcond, hc, if_true, hv]
    cases s with
    | normal => exact absurd rfl hs
    | breakLoop | continueLoop => exact ⟨v, hl, rfl⟩
  · rw [renderer_succ]
    simp only [Renderer.above, invokeMacro, hd, h]
    cases s with
    | normal => exact absurd rfl hs
    | breakLoop | continueLoop => rfl

/-- A loop that is broken off in an element of its body, in the first of two rounds. -/
theorem break_in_element_ends_loop :
    let loc : Location := ⟨"p", 1⟩
    let body := [Template.element "b" .empty .empty [.reference .constants "break" [] none loc] loc]
    let ctx : Context := ⟨"for", .list [], [], some body, [], { temp := 0, container := 0, mode := .inline, loc }⟩
    let w : World :=
      { heap := { objects := #[.empty, .ofList [("break", .macroDef 13 "break")]] }, random := 1, host := {} }
    ∃ v, v.host.loopDepth = 0 ∧
      repeatFor (renderer ⟨.ofList [], {}, #[], 0, 1⟩ builtins.toArray 2) ctx "x"
        [.bool true, .bool false] w = .ok .nothing v := by
  intro loc body ctx w
  let setting : Setting := ⟨.ofList [], {}, #[], 0, 1⟩
  let spot : Spot := { ctx.site.toSpot with captures := ctx.site.captures.extended "x" (.bool true) }
  let first : World := { w with heap := w.heap.modifyObject 0 fun scope => scope.insert "x" (.bool true)
                                host := { w.host with loopDepth := 1 } }
  let content := [Template.reference .constants "break" [] none loc]
  let made := first.host.document.createElement "b"
  let shown : World := { first with host := { first.host with depth := 1, document := made.2.append 0 made.1 } }
  have hasks : Asks (fun r => renderNodes builtins.toArray r spot [.element "b" .empty .empty content loc] first)
      (renderer setting builtins.toArray 1) (.nodes { spot with container := made.1 } content shown) := by
    refine asks_of_shown first fun v => ?_
    rw [renderNodes_nested spot _ rfl (show 0 < setting.config.recursionLimit by decide)]
    have hmode : spot.mode = .inline := rfl
    have helement (r : Renderer) : renderElement r { spot with mode := .inline } "b" .empty .empty content loc
        { first with host := { first.host with depth := first.host.depth + 1 } } =
          r.nodes { spot with container := made.1 } content shown := rfl
    simp only [renderSequence, hmode, nested, renderEach, renderNode, NewlineMode.nested, Bind.bind, EStateM.bind,
      helement]
    rw [nodes_answering]
    rfl
  exact (loop_signals_contained setting 2).for_round .breakLoop (by decide) ctx "x" (.bool true) [.bool false] w
    (.within hasks rfl (.here rfl (by decide) (.intro (.here _ _ _) rfl (.use loc (.inl ⟨rfl, rfl⟩) rfl rfl rfl))))

/-- A jump in a passage that an expression includes is a failure of the expression, and the loop
around it runs both of its rounds. -/
theorem break_called_from_expression_fails :
    let passages := Passages.ofList
      [⟨"p", "@break", [], 1⟩, ⟨"main", "@for(_x of [1,2])\x7ba @(@include(\"p\")) b\x7dc", [], 1⟩]
    let constants := Bindings.ofList
      [("", Value.macroDef 0 ""), ("include", .macroDef 4 "include"), ("for", .macroDef 12 "for"),
        ("break", .macroDef 13 "break")]
    let s := (Session.start passages {} ⟨constants, builtins.toArray, true⟩ {} 1).goTo "main"
    s.stage.errors.toList.map RenderError.message =
      List.replicate 2 "Error in expression `@include(\"p\")`: @break cannot be used inside an expression" := by
  decide +kernel

end StoryMarkup.Render
