import StoryMarkup.Proofs.Render.Sequences

/-! What is asked of a renderer. A computation asks something if what it comes to depends on the
answer. -/
namespace StoryMarkup.Render

open Markup (Template)
open Script (ScriptError Value)
variable {w : World} {depth levels : Nat}

/-- What can be asked of a renderer, with the world it is asked in. -/
inductive Request where
  | nodes (spot : Spot) (ts : List Template) (w : World)
  | invoke (site : Site) (id : Nat) (name : String) (args : List Value) (w : World)

inductive Answer where
  | sequence (result : EStateM.Result RenderError World Signal)
  | call (result : EStateM.Result ScriptError World Value)

def Request.world : Request → World
  | .nodes _ _ w => w
  | .invoke _ _ _ _ w => w

def Renderer.answer (r : Renderer) : Request → Answer
  | .nodes spot ts w => .sequence (r.nodes spot ts w)
  | .invoke site id name args w => .call (r.invoke site id name args w)

structure AgreeExcept (q : Request) (r r' : Renderer) : Prop where
  setting_eq : r'.setting = r.setting
  answer_eq : ∀ q', q' ≠ q → r'.answer q' = r.answer q'

def Asks {β : Type} (x : Renderer → β) (r : Renderer) (q : Request) : Prop := ∃ r', AgreeExcept q r r' ∧ x r' ≠ x r

inductive Leads (setting : Setting) (defs : Array Definition) : Nat → Request → Nat → Request → Prop
  | refl (levels : Nat) (q : Request) : Leads setting defs levels q levels q
  | step {levels rest : Nat} {q q' q'' : Request} :
    Asks (fun r => (r.above defs).answer q) (renderer setting defs levels) q' →
      Leads setting defs levels q' rest q'' → Leads setting defs (levels + 1) q rest q''

variable {G : Regime} {q : Request} {r r' : Renderer} {spot : Spot} {ts : List Template} {site : Site} {name : String}
  {args : List Value} {ε α : Type} {fs : Frames} {loops : Nat}

lemma AgreeExcept.nodes_eq (h : AgreeExcept q r r') (hne : Request.nodes spot ts w ≠ q) :
    r'.nodes spot ts w = r.nodes spot ts w := by
  have heq := h.answer_eq _ hne
  exact Answer.sequence.inj heq

lemma AgreeExcept.invoke_eq (h : AgreeExcept q r r') {id : Nat} (hne : Request.invoke site id name args w ≠ q) :
    r'.invoke site id name args w = r.invoke site id name args w := by
  have heq := h.answer_eq _ hne
  exact Answer.call.inj heq

open Classical in
noncomputable def Renderer.answering (r : Renderer) (q : Request)
    (result : EStateM.Result RenderError World Signal) : Renderer :=
  { r with nodes := fun spot ts w => if Request.nodes spot ts w = q then result else r.nodes spot ts w }

lemma agreeExcept_answering (r : Renderer) (q : Request)
    (result : EStateM.Result RenderError World Signal) :
    AgreeExcept q r (r.answering q result) where
  setting_eq := rfl
  answer_eq := by
    intro q' hne
    cases q' with
    | nodes spot ts w => exact congrArg Answer.sequence (if_neg hne)
    | invoke site id name args w => rfl

lemma nodes_answering (r : Renderer) (spot : Spot) (ts : List Template) (w : World)
    (result : EStateM.Result RenderError World Signal) :
      (r.answering (.nodes spot ts w) result).nodes spot ts w = result :=
  if_pos rfl

def randomAfter {ε α : Type} : EStateM.Result ε World α → UInt64
  | .ok _ w => w.random
  | .error _ w => w.random

lemma asks_of_shown {x : Renderer → EStateM.Result ε World α} (w : World)
    (h : ∀ v : World, randomAfter (x (r.answering q (.ok .normal v))) = v.random) : Asks x r q := by
  refine ⟨_, agreeExcept_answering r q (.ok .normal { w with random := randomAfter (x r) + 1 }), fun he => ?_⟩
  have hshown := h { w with random := randomAfter (x r) + 1 }
  rw [he] at hshown
  simp at hshown

lemma Regime.Abreast.eq {w' : World} (h : G.Abreast ⟨fs, fs, depth, loops⟩ w w') : w' = w := by
  have hf : w.frames = fs := h.frames_eq
  rw [h.same]
  dsimp only
  rw [← hf]

lemma Regime.eq_of_matched {x y : EStateM.Result ε World α} (h : Matched False (G.Abreast ⟨fs, fs, depth, loops⟩) x y) :
    y = x := h.rigid (fun _ hR => by rw [hR.eq]) fun _ hR => by rw [hR.eq]

def Regime.Stands (G : Regime) (depth : Nat) (w : World) : Prop := w.host.depth = depth ∧ G.kept depth w.host.recovering

lemma AgreeExcept.fellows (h : AgreeExcept q r r') (hself : ∀ p, Fellows G p (fun _ => False) r r)
    (hq : ¬ G.Stands depth q.world) (fs : Frames) (loops : Nat) :
    Fellows G ⟨fs, fs, depth, loops⟩ (fun _ => False) r r' := by
  have hnodes : ∀ l spot ts, G.Lockstep ⟨fs, fs, depth, l⟩ (r.nodes spot ts) (r'.nodes spot ts) := by
    refine fun l spot ts => .rigid fun w w' hw => ?_
    have hne : Request.nodes spot ts w' ≠ q := by
      rintro rfl
      exact hq (hw.eq ▸ ⟨hw.depth_eq, hw.kept⟩)
    rw [h.nodes_eq hne]
    exact ((hself _).nodes spot ts).lockstep (fun _ => id) w w' hw
  exact
    { setting_eq := h.setting_eq, config_eq := (hself ⟨fs, fs, depth, loops⟩).config_eq
      out_normal := id, out_loops := fun _ => False.elim
      nodes := fun spot ts => .of_lockstep _ (hnodes loops spot ts)
      inner := hnodes _, fresh := hnodes _
      invoke := by
        refine fun fs l site id name args => .rigid fun w w' hw => ?_
        have hne : Request.invoke site id name args w' ≠ q := by
          rintro rfl
          exact hq (hw.eq ▸ ⟨hw.depth_eq, hw.kept⟩)
        rw [h.invoke_eq hne]
        exact (hself ⟨fs, fs, depth, l⟩).invoke fs l site id name args w w' hw }

lemma Asks.stands {β : Type} {x : Renderer → β} (h : Asks x r q) (hself : ∀ p, Fellows G p (fun _ => False) r r)
    (hx : ∀ {r'}, (∀ fs loops, Fellows G ⟨fs, fs, depth, loops⟩ (fun _ => False) r r') → x r' =
    x r) : G.Stands depth q.world := by
  obtain ⟨r', hagree, hne⟩ := h
  exact Classical.byContradiction fun hq => hne (hx (hagree.fellows hself hq))

section Levels

variable {setting : Setting} {defs : Array Definition} (hsteady : ∀ d ∈ defs, d.handler.Steady)
  (hconfig : setting.config = G.config)
include hsteady hconfig

lemma Asks.stands_nodes
    (h : Asks (fun r => (r.above defs).answer (.nodes spot ts w)) (renderer setting defs levels) q)
    (hw : G.kept w.host.depth w.host.recovering) : G.Stands (w.host.depth + 1) q.world := by
  refine h.stands (fun p => fellows_renderer hsteady hconfig levels p) fun {r'} hr => ?_
  have hstart : G.Abreast ⟨w.frames, w.frames, w.host.depth, w.host.loopDepth⟩ w w := ⟨rfl, rfl, rfl, rfl, hw⟩
  have hm := ((hr _ _).renderNodes hsteady spot ts).lockstep (fun _ => id) w w hstart
  exact congrArg Answer.sequence (Regime.eq_of_matched hm)

lemma Asks.stands_invoke {id : Nat}
    (h : Asks (fun r => (r.above defs).answer (.invoke site id name args w)) (renderer setting defs levels) q)
    (hw : G.kept w.host.depth w.host.recovering) : G.Stands w.host.depth q.world := by
  refine h.stands (fun p => fellows_renderer hsteady hconfig levels p) fun {r'} hr => ?_
  have hstart : G.Abreast ⟨w.frames, w.frames, w.host.depth, w.host.loopDepth⟩ w w := ⟨rfl, rfl, rfl, rfl, hw⟩
  have hm := (hr _ _).invokeMacro hsteady site id name args w w hstart
  exact congrArg Answer.call (Regime.eq_of_matched hm)

lemma Leads.kept {rest : Nat} {q q' : Request} (h : Leads setting defs levels q rest q')
    (hq : G.kept q.world.host.depth q.world.host.recovering) : G.kept q'.world.host.depth q'.world.host.recovering := by
  induction h with
  | refl levels q => exact hq
  | step hasks hleads ih =>
    rename_i first _ _
    refine ih ?_
    cases first with
    | nodes spot ts w =>
      have hs := hasks.stands_nodes hsteady hconfig hq
      rw [hs.1]
      exact hs.2
    | invoke site id name args w =>
      have hs := hasks.stands_invoke hsteady hconfig hq
      rw [hs.1]
      exact hs.2

end Levels
end StoryMarkup.Render
