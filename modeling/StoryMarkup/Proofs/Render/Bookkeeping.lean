import StoryMarkup.Proofs.Render.Courses
import StoryMarkup.Proofs.Render.Tasks

/-! Keeping the books. Firing a callback does not fail, so that a name which is triggered is settled
in the end. -/
namespace StoryMarkup.Render


variable {α β γ : Type} {c : Callback} {number : Nat} {event : Event} {w : World} {x : RenderM α} (r : Renderer)
  (name : String)

/-! What firing a callback comes to where it does not run. -/

lemma fire_absent {r : Renderer} (hc : w.host.callbacks.lookup number = none) : fire r number event w = .ok () w := by
  unfold fire
  rw [bind_stage, hc]
  rfl

lemma fire_detached {r : Renderer} (hc : w.host.callbacks.lookup number = some c)
    (hanchor : w.host.document.isAttached c.anchor = false) :
    fire r number event w = .ok () { w with host := w.host.without number } := by
  unfold fire
  rw [bind_stage, hc]
  dsimp only
  rw [bind_stage, hanchor]
  rfl

lemma Callback.host_install (c : Callback) (number : Nat) (w : World) :
    (c.install number w).host = if c.once then w.host.without number else w.host := by
  unfold install
  split <;> rfl

/-! Work that does not fail. -/

def Completes (x : RenderM α) : Prop := ∀ w, ∃ a v, x w = .ok a v

namespace Completes

lemma pure (a : α) : Completes (pure a : RenderM α) := fun w => ⟨a, w, rfl⟩

lemma bind {f : α → RenderM β} (hx : Completes x) (hf : ∀ a, Completes (f a)) : Completes (x >>= f) := by
  intro w
  obtain ⟨a, v, hv⟩ := hx w
  obtain ⟨b, u, hu⟩ := hf a v
  refine ⟨b, u, ?_⟩
  simp only [Bind.bind, EStateM.bind, hv]
  exact hu

lemma of_quiet (h : Quiet x) : Completes x := fun w =>
  let ⟨a, v, hv, _⟩ := h w
  ⟨a, v, hv⟩

lemma drawing (h : Drawing x) : Completes x := of_quiet (.of_drawing h)

lemma forM {f : γ → RenderM PUnit} (hf : ∀ a, Completes (f a)) (items : List γ) : Completes (items.forM f) := by
  induction items with
  | nil => exact pure _
  | cons a rest ih => exact bind (hf a) fun _ => ih

lemma finish (target : Nat) (x : RenderM Signal) : Completes (finish target x) := by
  intro w
  unfold Render.finish
  split
  · exact ⟨_, _, rfl⟩
  · exact bind (of_quiet (.displayError _ _)) (fun _ => pure _) _

lemma inPass (hx : Completes x) : Completes (inPass x) := by
  intro w
  obtain ⟨a, v, hv⟩ := hx (passWorld w)
  refine ⟨a, { v with host := { v.host with loopDepth := w.host.loopDepth } }, ?_⟩
  unfold passWorld at hv
  unfold Render.inPass
  rw [hv]

lemma goTo : Completes (goTo r name) := by
  rw [goTo_eq]
  exact bind (fun w => ⟨_, _, rfl⟩) fun _ => finish _ _

lemma runAction (c : Callback) (event : Event) : Completes (runAction r c event) := by
  unfold Render.runAction
  cases c.action with
  | render body target mode => exact bind (drawing (.modifyDocument fun _ => .clear _ _)) fun _ => finish _ _
  | navigate passage => exact goTo r passage
  | link body passage mode =>
    cases passage with
    | some passage =>
      cases body with
      | none => exact goTo r passage
      | some body => exact bind (drawing (.createElement _)) fun _ => bind (finish _ _) fun _ => goTo r passage
    | none =>
      refine bind (drawing (.createElement _)) fun _ => bind (drawing (.modifyDocument fun _ => .replace _ _ _)) fun _ => ?_
      cases body with
      | none => exact pure _
      | some body => exact finish _ _
  | call f =>
    refine bind (fun w => ⟨_, _, rfl⟩) fun argument => bind (fun w => ?_) fun found => ?_
    · unfold Renderer.callValue Renderer.run
      dsimp only
      split <;> exact ⟨_, _, rfl⟩
    · cases found with
      | ok => exact pure _
      | error => exact bind (of_quiet (.displayError _ _)) fun _ => pure _
  | bind target =>
    dsimp only
    cases event.bound? with
    | none => exact pure _
    | some v => exact finish _ _

lemma fire (number : Nat) (event : Event) : Completes (fire r number event) := by
  intro w
  cases hc : w.host.callbacks.lookup number with
  | none => exact ⟨_, _, fire_absent hc⟩
  | some c =>
    cases hanchor : w.host.document.isAttached c.anchor with
    | true =>
      rw [fire_eq r event hc hanchor]
      exact bind (inPass (runAction r c event)) (fun _ v => ⟨_, _, rfl⟩) _
    | false => exact ⟨_, _, fire_detached hc hanchor⟩

end Completes

lemma host_trigger (w : World) :
    (ending (trigger r name w)).host =
      (ending (((w.host.listed name).forM fun number => fire r number (.trigger name)) w)).host.settled name := by
  obtain ⟨_, v, hv⟩ := Completes.forM (fun number => Completes.fire r number (.trigger name)) (w.host.listed name) w
  have heq : trigger r name w = (do
      (w.host.listed name).forM fun number => fire r number (.trigger name)
      modifyStage (·.settled name)) w := rfl
  rw [heq]
  simp only [Bind.bind, EStateM.bind, hv]
  rfl

/-! Steps that add nothing. -/

namespace Thinned

variable {s t : Stage}

lemma of_redrawn (hdocument : s.document.Redrawn t.document) (hcallbacks : t.callbacks = s.callbacks)
    (hcreated : t.created = s.created) (hredoables : t.redoables = s.redoables) : Thinned s t where
  redrawn := hdocument
  created_eq := hcreated
  callbacks := hcallbacks ▸ .refl _
  listed := fun name => by
    have heq : t.listed name = s.listed name := by rw [Stage.listed, hredoables, Stage.listed]
    exact heq ▸ List.Sublist.refl _
  holds := fun _ _ _ ⟨c, hc⟩ => ⟨c, hcallbacks ▸ hc⟩

lemma refl (s : Stage) : Thinned s s := of_redrawn (.refl _) rfl rfl rfl

end Thinned

lemma Stage.listed_prune (s : Stage) (name : String) :
    s.prune.listed name = (s.listed name).filter fun id => s.prune.callbacks.any (·.1 == id) := by
  simp only [listed, prune, Bindings.get?_filter, Bindings.get?_map]
  cases s.redoables.get? name with
  | none => rfl
  | some ids =>
    rw [Option.map_some, Option.filter_some, Option.getD_some]
    split
    · rfl
    · rename_i hempty
      exact (List.isEmpty_iff.1 (by simpa using hempty)).symm

lemma Thinned.leave (s : Stage) (name : String) :
    Thinned s { ({ s with document := s.document.clear Document.root }).prune with punted := [], current := some name } where
  redrawn := .clear _ _
  created_eq := rfl
  callbacks := List.filter_sublist
  listed := fun other => by
    have hlisted := Stage.listed_prune { s with document := s.document.clear Document.root } other
    change (Stage.listed (Stage.prune _) other).Sublist _
    rw [hlisted]
    exact List.filter_sublist
  holds := fun other number hmem _ => by
    have hlisted := Stage.listed_prune { s with document := s.document.clear Document.root } other
    change number ∈ Stage.listed (Stage.prune _) other at hmem
    rw [hlisted] at hmem
    exact Stage.holds_iff_any.2 (List.mem_filter.1 hmem).2

end StoryMarkup.Render
