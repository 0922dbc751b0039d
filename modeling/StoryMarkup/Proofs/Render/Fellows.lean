import StoryMarkup.Proofs.Render.Regime
import StoryMarkup.Render.Callback

/-! Renderers that are fellows keep two renderings abreast, unless the first has left in a given
way. -/
namespace StoryMarkup.Render

open Script (Env Value)

variable {ε α β : Type} {G : Regime} {p : Footing}
variable {x y : RenderM α} {out : α → Prop} {f g : α → RenderM β} {env : Env}

namespace Regime

def Going (G : Regime) (p : Footing) (out : α → Prop) (x y : EStateM.Result RenderError World α) : Prop :=
  Matched False (G.Abreast p) x y ∨ ∃ a w, x = .ok a w ∧ w.host.loopDepth = p.loops ∧ out a

def Follows (G : Regime) (p : Footing) (out : α → Prop) (x y : RenderM α) : Prop :=
  ∀ w w', G.Abreast p w w' → G.Going p out (x w) (y w')

lemma Follows.of_lockstep (out : α → Prop) (h : G.Lockstep p x y) : G.Follows p out x y :=
  fun w w' hw => .inl (h w w' hw)

lemma Follows.lockstep (h : G.Follows p out x y) (hout : ∀ a, ¬ out a) : G.Lockstep p x y := by
  refine .rigid fun w w' hw => ?_
  obtain hm | ⟨a, v, -, -, ha⟩ := h w w' hw
  · exact hm
  · exact absurd ha (hout a)

lemma Follows.bind {out' : β → Prop} (hx : G.Follows p out x y)
    (hf : ∀ a, G.Follows p out' (f a) (g a))
    (hout : ∀ a w, out a → w.host.loopDepth = p.loops → ∃ b, f a w = .ok b w ∧ out' b) :
    G.Follows p out' (x >>= f) (y >>= g) := by
  intro w w' hw
  simp only [Bind.bind, EStateM.bind]
  obtain hm | ⟨a, v, hv, hl, ha⟩ := hx w w' hw
  · exact hm.rigid (fun a hR => hf a _ _ hR) fun e hR => .inl (.error e hR)
  · obtain ⟨b, hb, hout'⟩ := hout a v ha hl
    rw [hv]
    exact .inr ⟨b, v, hb, hl, hout'⟩

lemma Follows.after {out : β → Prop} (hx : G.Lockstep p x y)
    (hf : ∀ a, G.Follows p out (f a) (g a)) : G.Follows p out (x >>= f) (y >>= g) :=
  .bind (.of_lockstep (fun _ => False) hx) hf fun _ _ h => h.elim

lemma Follows.bind_get {f g : World → RenderM α}
    (h : ∀ w w', G.Abreast p w w' → G.Follows p out (f w) (g w')) :
    G.Follows p out (get >>= f) (get >>= g) :=
  fun w w' hw => h w w' hw w w' hw

lemma Follows.ite {c : Prop} [Decidable c] {x' y' : RenderM α} (hx : G.Follows p out x y)
    (hx' : G.Follows p out x' y') : G.Follows p out (if c then x else x') (if c then y else y') := by
  split <;> assumption

lemma Follows.catching (h : G.Follows p out x y) :
    G.Follows p (fun r => ∃ a, r = .ok a ∧ out a) (catchingRender x) (catchingRender y) := by
  intro w w' hw
  unfold catchingRender
  obtain hm | ⟨a, v, hv, hl, ha⟩ := h w w' hw
  · exact hm.rigid (fun _ hR => .inl (.ok _ hR)) fun _ hR => .inl (.ok _ hR)
  · rw [hv]
    exact .inr ⟨.ok a, v, rfl, hl, a, rfl, ha⟩

lemma catching (h : G.Lockstep p x y) : G.Lockstep p (catchingRender x) (catchingRender y) :=
  (Follows.catching (.of_lockstep (fun _ => False) h)).lockstep fun _ ⟨_, _, hf⟩ => hf

lemma finish {x y : RenderM Signal} (target : Nat) (h : G.Lockstep p x y) :
    G.Lockstep p (finish target x) (finish target y) := by
  refine .rigid fun w w' hw => ?_
  unfold Render.finish
  refine (h w w' hw).rigid (fun _ hR => .ok () hR) fun e hR => ?_
  exact StoryMarkup.Lockstep.bind (displayError target e) (fun _ => .pure ()) _ _ hR

lemma inLoop (h : G.Lockstep { p with loops := p.loops + 1 } x y) : G.Lockstep p (inLoop x) (inLoop y) := by
  refine .rigid fun w w' hw => ?_
  have henter : G.Abreast { p with loops := p.loops + 1 }
      { w with host := { w.host with loopDepth := w.host.loopDepth + 1 } }
      { w' with host := { w'.host with loopDepth := w'.host.loopDepth + 1 } } :=
    { same := by rw [hw.same], frames_eq := hw.frames_eq, depth_eq := hw.depth_eq
      loops_eq := congrArg (· + 1) hw.loops_eq, kept := hw.kept }
  have hleave : ∀ {v v' : World}, G.Abreast { p with loops := p.loops + 1 } v v' →
      G.Abreast p { v with host := { v.host with loopDepth := v.host.loopDepth - 1 } }
        { v' with host := { v'.host with loopDepth := v'.host.loopDepth - 1 } } := fun hv =>
    { same := by rw [hv.same], frames_eq := hv.frames_eq, depth_eq := hv.depth_eq
      loops_eq := congrArg (· - 1) hv.loops_eq, kept := hv.kept }
  unfold Render.inLoop
  exact (h _ _ henter).rigid (fun a hR => .ok a (hleave hR)) fun e hR => .error e (hleave hR)

lemma inPass (h : G.Lockstep { p with loops := 0 } x y) : G.Lockstep p (inPass x) (inPass y) := by
  refine .rigid fun w w' hw => ?_
  have henter : G.Abreast { p with loops := 0 } { w with host := { w.host with loopDepth := 0 } }
      { w' with host := { w'.host with loopDepth := 0 } } :=
    { same := by rw [hw.same], frames_eq := hw.frames_eq, depth_eq := hw.depth_eq, loops_eq := rfl, kept := hw.kept }
  have hleave : ∀ {v v' : World}, G.Abreast { p with loops := 0 } v v' →
      G.Abreast p { v with host := { v.host with loopDepth := w.host.loopDepth } }
        { v' with host := { v'.host with loopDepth := w'.host.loopDepth } } := fun hv =>
    { same := by rw [hv.same, hw.host_eq], frames_eq := hv.frames_eq, depth_eq := hv.depth_eq
      loops_eq := hw.loops_eq, kept := hv.kept }
  unfold Render.inPass
  exact (h _ _ henter).rigid (fun a hR => .ok a (hleave hR)) fun e hR => .error e (hleave hR)

lemma nested (h : G.Follows { p with depth := p.depth + 1 } out x y) {w w' : World} (hw : G.Abreast p w w')
    (hrec : w.host.recovering = false) (hlt : p.depth < G.config.recursionLimit) :
    G.Going p out (nested G.config.recoveryDepth x w) (nested G.config.recoveryDepth y w') := by
  have hkept : G.kept p.depth false := hrec ▸ hw.kept
  have henter : G.Abreast { p with depth := p.depth + 1 } { w with host := { w.host with depth := w.host.depth + 1 } }
      { w' with host := { w'.host with depth := w'.host.depth + 1 } } :=
    { same := by rw [hw.same], frames_eq := hw.frames_eq, depth_eq := congrArg (· + 1) hw.depth_eq
      loops_eq := hw.loops_eq
      kept := by
        change G.kept (p.depth + 1) w.host.recovering
        rw [hrec]
        exact G.deeper hkept hlt }
  let leave (v : World) : World :=
    { v with host := { v.host with depth := v.host.depth - 1
                                   recovering := v.host.recovering && decide
                                     (v.host.depth - 1 > G.config.recoveryDepth) } }
  have hleave : ∀ {v v' : World}, G.Abreast { p with depth := p.depth + 1 } v v' →
    G.Abreast p (leave v) (leave v') := by
    intro v v' hv
    have hd : v.host.depth - 1 = p.depth := congrArg (· - 1) hv.depth_eq
    exact
      { same := by rw [hv.same], frames_eq := hv.frames_eq, depth_eq := hd, loops_eq := hv.loops_eq
        kept := by
          change G.kept p.depth (v.host.recovering && decide (v.host.depth - 1 > G.config.recoveryDepth))
          rw [hd]
          exact G.left hkept _ }
  unfold Render.nested
  obtain hm | ⟨a, v, hv, hl, ha⟩ := h _ _ henter
  · exact hm.rigid (fun a hR => .inl (.ok a (hleave hR))) fun e hR => .inl (.error e (hleave hR))
  · rw [hv]
    exact .inr ⟨a, leave v, rfl, hl, ha⟩

def bond (G : Regime) (env : Env) (depth loops : Nat) : Script.Bond Stage Stage where
  toTerms := .same env False
  rel := fun _ m m' => m' = m ∧ m.host.depth = depth ∧ m.host.loopDepth = loops ∧ G.kept depth m.host.recovering
  heap_eq := fun ⟨h, _⟩ => by rw [h]
  random_eq := fun ⟨h, _⟩ => by rw [h]
  captured_eq := fun ⟨h, _⟩ => by rw [h]
  set_heap := fun ⟨h, hn⟩ _ => ⟨by rw [h], hn⟩
  set_random := fun _ ⟨h, hn⟩ => ⟨by rw [h], hn⟩
  add_warning := fun _ _ ⟨h, hn⟩ => ⟨by rw [h], hn⟩
  assign_local := fun _ _ ⟨h, hn⟩ => ⟨by rw [h], hn⟩
  push_frame := fun _ ⟨h, hn⟩ => ⟨by rw [h], hn⟩
  pop_frame := fun ⟨h, hn⟩ => ⟨by rw [h], hn⟩

lemma bond_lockstep {n depth loops : Nat} {x y : EStateM ε World α} (h : ∀ fs, G.Lockstep ⟨fs, fs, depth, loops⟩ x y) :
    StoryMarkup.Lockstep never ((G.bond env depth loops).rel n) x y := by
  refine .rigid ?_
  rintro w w' ⟨rfl, hd, hl, hk⟩
  refine (h w'.frames w' w' ⟨rfl, rfl, hd, hl, hk⟩).imp fun {v v'} hv => ?_
  have hf : v.frames = w'.frames := hv.frames_eq
  exact ⟨hv.same.trans (by dsimp only; rw [← hf]), hv.depth_eq, hv.loops_eq, hv.kept⟩

lemma run {x y : EStateM ε World α} (site : Site)
    (h : StoryMarkup.Lockstep never ((G.bond env p.depth p.loops).rel 0) x y) :
    G.Lockstep p (Renderer.run site x) (Renderer.run site y) := by
  refine .rigid fun w w' hw => ?_
  have hm := h { w with frames := [], warnings := #[] } { w' with frames := [], warnings := #[] }
    ⟨by rw [hw.same], hw.depth_eq, hw.loops_eq, hw.kept⟩
  unfold Renderer.run
  dsimp only
  have hleave : ∀ {v v' : World} (ws : Array Markup.Warning), (G.bond env p.depth p.loops).rel 0 v
      v' → G.Abreast p
        { v with frames := w.frames, warnings := w.warnings, host := { v.host with warnings := ws } }
        { v' with frames := w'.frames, warnings := w'.warnings, host := { v'.host with warnings := ws } } := by
    rintro v v' ws ⟨rfl, hd, hl, hk⟩
    exact ⟨by rw [hw.same], hw.frames_eq, hd, hl, hk⟩
  exact hm.rigid (fun _ hR => .of_ok (by rw [hR.1]) (hleave _ hR)) fun _ hR => .of_ok (by rw [hR.1]) (hleave _ hR)

end Regime

structure Alike (G : Regime) (p : Footing) (out : Signal → Prop) (r r' : Renderer) : Prop where
  setting_eq : r'.setting = r.setting
  config_eq : r.setting.config = G.config
  out_normal : ¬ out .normal
  out_loops : ∀ s, out s → 0 < p.loops
  nodes : ∀ spot ts, G.Follows p out (r.nodes spot ts) (r'.nodes spot ts)
  invoke : ∀ fs loops site id name args,
    G.Lockstep ⟨fs, fs, p.depth, loops⟩ (r.invoke site id name args) (r'.invoke site id name args)

structure Fellows (G : Regime) (p : Footing) (out : Signal → Prop) (r r' : Renderer) :
    Prop extends Alike G p out r r' where
  inner : ∀ spot ts, G.Lockstep { p with loops := p.loops + 1 } (r.nodes spot ts) (r'.nodes spot ts)
  fresh : ∀ spot ts, G.Lockstep { p with loops := 0 } (r.nodes spot ts) (r'.nodes spot ts)

variable {out : Signal → Prop} {r r' : Renderer} (spot : Spot)

lemma Fellows.pass (h : Fellows G p out r r') : Alike G { p with loops := 0 } (fun _ => False) r r' where
  setting_eq := h.setting_eq
  config_eq := h.config_eq
  out_normal := id
  out_loops := fun _ => False.elim
  nodes := fun spot ts => .of_lockstep _ (h.fresh spot ts)
  invoke := h.invoke

namespace Alike

variable (h : Alike G p out r r')
include h

lemma env_eq (temp : Nat) : r'.env temp = r.env temp := by
  unfold Renderer.env
  rw [h.setting_eq]

lemma invoke_bond (env : Env) (site : Site) (n id : Nat) (name : String) (args : List Value) :
    (G.bond env p.depth p.loops).Lockstep n (r.invoke site id name args) (r'.invoke site id name args) :=
  Regime.bond_lockstep fun fs => h.invoke fs p.loops site id name args

omit h in
lemma library_bond (env : Env) (n : Nat) (b : Script.Builtin) (args : List Value) :
    (G.bond env p.depth p.loops).Lockstep n (Script.ScriptM.callBuiltin b args) (Script.ScriptM.callBuiltin b args) :=
  (G.bond env p.depth p.loops).callBuiltin b args fun _ _ _ hm => hm.1

lemma evalTree_bond (env : Env) (site : Site) (n : Nat) (e : Script.Expr) :
    (G.bond env p.depth p.loops).Lockstep n (Script.eval env (r.invoke site) e) (Script.eval env (r'.invoke site) e) :=
  (G.bond env p.depth p.loops).evalUsing (library_bond env) (h.invoke_bond env site) e

lemma evalSource_bond (env : Env) (site : Site) (n : Nat) (code : String) :
    (G.bond env p.depth p.loops).Lockstep n (Script.evalSource env (r.invoke site) code)
      (Script.evalSource env (r'.invoke site) code) :=
  .bind ((G.bond env p.depth p.loops).lift _) fun e => h.evalTree_bond env site n e

omit h in
lemma runSource {x y : Script.ScriptM Stage α} (raw : String) (site : Site)
    (hx : (G.bond env p.depth p.loops).Lockstep 0 x y) :
    G.Lockstep p (Renderer.runSource raw site x) (Renderer.runSource raw site y) := by
  refine .bind (Regime.run site hx) fun found => ?_
  cases found with
  | ok a => exact .pure a
  | error e => exact .throw _

lemma eval (e : Markup.ExprSource) (site : Site) : G.Lockstep p (r.eval e site) (r'.eval e site) := by
  unfold Renderer.eval
  rw [h.env_eq]
  exact runSource _ site (h.evalSource_bond _ site 0 _)

omit h in
@[simp] lemma parseExpr (e : Markup.ExprSource) (site : Site) : G.Keeps p (Renderer.parseExpr e site) := by
  unfold Renderer.parseExpr
  cases Script.Expr.parse e.code.toList with
  | ok tree => exact .pure tree
  | error cause => exact .throw _

lemma evalStatement (e : Markup.ExprSource) (site : Site) :
    G.Lockstep p (r.evalStatement e site) (r'.evalStatement e site) := by
  unfold Renderer.evalStatement
  rw [h.env_eq]
  exact .bind (parseExpr e site) fun tree => .bind (runSource _ site (h.evalTree_bond _ site 0 tree)) fun _ => .pure _

lemma assign (target : Markup.ExprSource) (v : Value) (site : Site) :
    G.Lockstep p (r.assign target v site) (r'.assign target v site) := by
  unfold Renderer.assign
  rw [h.env_eq]
  exact .bind (parseExpr target site) fun tree =>
    runSource _ site ((G.bond (r.env site.temp) _ _).assign (library_bond _) (h.invoke_bond _ site) tree v)

lemma callValue (f : Value) (args : List Value) (site : Site) :
    G.Lockstep p (r.callValue f args site) (r'.callValue f args site) := by
  unfold Renderer.callValue
  rw [h.env_eq]
  exact Regime.run site ((G.bond (r.env site.temp) _ _).callUsing (library_bond _)
    (h.invoke_bond _ site) (.inl rfl) f args)

lemma markup (passage : String) (startLine : Nat) (text : String) :
    G.Follows p out (r.markup spot passage startLine text) (r'.markup spot passage startLine text) := by
  unfold Renderer.markup
  rw [h.setting_eq]
  refine .bind_get fun w w' hw => ?_
  rw [hw.heap_eq]
  cases r.setting.parse w.heap passage startLine text with
  | ok parsed => exact .after (Regime.addWarnings _) fun _ => h.nodes spot parsed.templates
  | error e => exact h.nodes spot [e.template]

lemma passage (name : String) : G.Follows p out (r.passage spot name) (r'.passage spot name) := by
  unfold Renderer.passage
  rw [h.setting_eq]
  cases r.setting.passages.get? name with
  | some found => exact h.markup _ _ _ _
  | none => exact .after Regime.stage fun s => .of_lockstep _ (Regime.reportError _ _)

end Alike
end StoryMarkup.Render
