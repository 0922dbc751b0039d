import StoryMarkup.Proofs.Document.Redrawing
import StoryMarkup.Proofs.Script.Bond
import StoryMarkup.Render.Nodes

/-! Two renderings side by side, in worlds that differ at most in the parameters of running
functions. -/
namespace StoryMarkup.Render

open Script (Value)
variable {w w' : World} (node target : Nat) (tag : String) (v : Value) (s : String) (e : RenderError)
  (mode : NewlineMode)

abbrev Frames := List (Bindings Value)

section Drawing

variable {α β : Type} {x y : RenderM α} {f : α → RenderM β}

/-- All that is done is to redraw the document, whatever the parameters of functions are. -/
def Drawing (x : RenderM α) : Prop :=
  ∀ w : World, ∃ a document, w.host.document.Redrawn document ∧
    ∀ frames, x { w with frames } = .ok a { w with frames, host := { w.host with document } }

namespace Drawing

lemma ok (h : Drawing x) (w : World) : ∃ a document, w.host.document.Redrawn document ∧
    x w = .ok a { w with host := { w.host with document } } := by
  obtain ⟨a, document, hd, ha⟩ := h w
  exact ⟨a, document, hd, ha w.frames⟩

@[simp] lemma pure (a : α) : Drawing (pure a) := fun _ => ⟨a, _, .refl _, fun _ => rfl⟩

@[simp] lemma bind (hx : Drawing x) (hf : ∀ a, Drawing (f a)) : Drawing (x >>= f) := by
  intro w
  obtain ⟨a, d, hd, ha⟩ := hx w
  obtain ⟨b, d', hd', hb⟩ := hf a { w with host := { w.host with document := d } }
  refine ⟨b, d', hd.trans hd', fun frames => ?_⟩
  simp only [Bind.bind, EStateM.bind, ha]
  exact hb frames

@[simp] lemma ite {c : Prop} [Decidable c] (hx : Drawing x) (hy : Drawing y) : Drawing (if c then x else y) := by
  split <;> assumption

@[simp] lemma forM {f : β → RenderM PUnit} (items : List β) (h : ∀ b, Drawing (f b)) : Drawing (items.forM f) := by
  induction items with
  | nil => exact pure _
  | cons b rest ih => exact bind (h b) fun _ => ih

lemma modifyDocument {f : Document → Document} (h : ∀ d, Document.Redrawn d (f d)) : Drawing (modifyDocument f) :=
  fun _ => ⟨(), _, h _, fun _ => rfl⟩

@[simp] lemma create (kind : Document.Kind) : Drawing (create fun d => d.create kind) :=
  fun w => ⟨(w.host.document.create kind).1, _, .create _ kind, fun _ => rfl⟩

@[simp] lemma createElement (tag : String) : Drawing (createElement tag) := create _

@[simp] lemma append (parent child : Nat) : Drawing (append parent child) :=
  modifyDocument fun _ => .insert _ _ _ _

@[simp] lemma setAttribute (node : Nat) (name value : String) : Drawing (setAttribute node name value) :=
  modifyDocument fun _ => .setAttribute _ _ _ _

@[simp] lemma display (v : Value) : Drawing (display v) := fun w => ⟨w.heap.display v, _, .refl _, fun _ => rfl⟩

@[simp] lemma appendText (target : Nat) (s : String) : Drawing (appendText target s) := by
  unfold Render.appendText
  exact ite (pure _) (bind (create _) fun _ => append _ _)

@[simp] lemma appendElement (target : Nat) (tag : String) : Drawing (appendElement target tag) :=
  bind (createElement tag) fun _ => bind (append _ _) fun _ => pure _

@[simp] lemma appendBreaks (target count : Nat) : Drawing (appendBreaks target count) := by
  induction count with
  | zero => exact pure _
  | succ n ih => exact bind (appendElement target _) fun _ => ih

@[simp] lemma appendPieces (target breaks : Nat) (pieces : List String) :
    Drawing (appendPieces target breaks pieces) := by
  induction pieces with
  | nil => exact pure _
  | cons s rest ih =>
    cases rest with
    | nil => exact appendText target s
    | cons s' rest => exact bind (appendText target s) fun _ => bind (appendBreaks target breaks) fun _ => ih

@[simp] lemma emitText (target : Nat) (s : String) (mode : NewlineMode) : Drawing (emitText target s mode) := by
  unfold Render.emitText
  cases mode <;> simp

@[simp] lemma emitValue (target : Nat) (v : Value) (mode : NewlineMode) : Drawing (emitValue target v mode) := by
  unfold Render.emitValue
  cases v <;> simp

@[simp] lemma openParagraph (container : Nat) (para : Option Nat) :
    Drawing (openParagraph container para) := by
  cases para with
  | none => exact appendElement container "p"
  | some q => exact pure q

@[simp] lemma blockPiece (container : Nat) (para : Option Nat) (s : String) :
    Drawing (blockPiece container para s) := by
  unfold Render.blockPiece
  exact ite (pure _) (bind (openParagraph container para) fun q => bind (appendText q s) fun _ => pure _)

@[simp] lemma blockText (container : Nat) (para : Option Nat) (pieces : List String) :
    Drawing (blockText container para pieces) := by
  induction pieces generalizing para with
  | nil => exact pure _
  | cons s rest ih =>
    cases rest with
    | nil => exact blockPiece container para s
    | cons s' rest => exact bind (blockPiece container para s) fun _ => ih none

@[simp] lemma drawError (target : Nat) (e : RenderError) : Drawing (drawError target e) := by
  unfold Render.drawError
  refine bind (createElement _) fun span => bind (setAttribute _ _ _) fun _ => bind (setAttribute _ _ _) fun _ =>
    bind (appendText _ _) fun _ => ?_
  cases e.sample with
  | none => exact append _ _
  | some sample =>
    exact bind (createElement _) fun code => bind (appendText _ _) fun _ => bind (append _ _) fun _ => append _ _

end Drawing

end Drawing

lemma bind_stage {α : Type} (f : Stage → RenderM α) (w : World) : (stage >>= f) w = f w.host w := rfl

structure Regime where
  config : Config
  kept : Nat → Bool → Prop
  deeper : ∀ {d}, kept d false → d < config.recursionLimit → kept (d + 1) false
  cut : ∀ {d}, kept d false → config.recursionLimit ≤ d → kept d true
  left : ∀ {d}, kept d false → ∀ b, kept d (b && decide (d > config.recoveryDepth))

def Regime.free (config : Config) : Regime where
  config
  kept := fun _ _ => True
  deeper := fun _ _ => trivial
  cut := fun _ _ => trivial
  left := fun _ _ => trivial

structure Footing where
  frames : Frames
  frames' : Frames
  depth : Nat
  loops : Nat

structure Regime.Abreast (G : Regime) (p : Footing) (w w' : World) : Prop where
  same : w' = { w with frames := p.frames' }
  frames_eq : w.frames = p.frames
  depth_eq : w.host.depth = p.depth
  loops_eq : w.host.loopDepth = p.loops
  kept : G.kept p.depth w.host.recovering

structure Stage.SameNesting (s s' : Stage) : Prop where
  depth_eq : s'.depth = s.depth := by rfl
  loops_eq : s'.loopDepth = s.loopDepth := by rfl
  recovering_eq : s'.recovering = s.recovering := by rfl

lemma Stage.SameNesting.trans {s s' s'' : Stage} (h : s.SameNesting s') (h' : s'.SameNesting s'') : s.SameNesting s'' :=
  ⟨h'.depth_eq.trans h.depth_eq, h'.loops_eq.trans h.loops_eq, h'.recovering_eq.trans h.recovering_eq⟩

namespace Regime

variable {ε α : Type} {G : Regime} {p : Footing}

abbrev Lockstep (G : Regime) (p : Footing) (x y : EStateM ε World α) : Prop :=
  StoryMarkup.Lockstep never (G.Abreast p) x y

abbrev Keeps (G : Regime) (p : Footing) (x : EStateM ε World α) : Prop := G.Lockstep p x x

namespace Abreast

lemma host_eq (h : G.Abreast p w w') : w'.host = w.host := by rw [h.same]

lemma heap_eq (h : G.Abreast p w w') : w'.heap = w.heap := by rw [h.same]

lemma set_host (h : G.Abreast p w w') {s : Stage} (hs : w.host.SameNesting s) :
    G.Abreast p { w with host := s } { w' with host := s } where
  same := by rw [h.same]
  frames_eq := h.frames_eq
  depth_eq := hs.depth_eq.trans h.depth_eq
  loops_eq := hs.loops_eq.trans h.loops_eq
  kept := by
    change G.kept p.depth s.recovering
    rw [hs.recovering_eq]
    exact h.kept

lemma set_heap (h : G.Abreast p w w') (heap : Script.Heap) :
    G.Abreast p { w with heap } { w' with heap } where
  same := by rw [h.same]
  frames_eq := h.frames_eq
  depth_eq := h.depth_eq
  loops_eq := h.loops_eq
  kept := h.kept

end Abreast

lemma bind_get {f g : World → RenderM α}
    (h : ∀ w w', G.Abreast p w w' → G.Lockstep p (f w) (g w')) :
    G.Lockstep p (get >>= f) (get >>= g) :=
  .rigid fun w w' hw => h w w' hw w w' hw

@[simp] lemma stage : G.Keeps p stage :=
  .rigid fun _ _ h => .of_ok (by rw [← h.host_eq]; rfl) h

lemma modifyStage {f : Stage → Stage} (hf : ∀ s : Stage, s.SameNesting (f s)) : G.Keeps p (modifyStage f) := by
  refine .rigid fun w w' h => ?_
  refine .of_ok ?_ (h.set_host (hf _))
  rw [← h.host_eq]
  rfl

@[simp] lemma modifyDocument (f : Document → Document) : G.Keeps p (modifyDocument f) :=
  modifyStage fun _ => {}

lemma drawing {x : RenderM α} (h : Drawing x) : G.Keeps p x := by
  refine .rigid fun w w' hw => ?_
  obtain ⟨a, document, -, ha⟩ := h w
  have hframes := ha w.frames
  have hframes' := ha p.frames'
  rw [← hw.same] at hframes'
  rw [hframes, hframes']
  exact .ok a ⟨rfl, hw.frames_eq, hw.depth_eq, hw.loops_eq, hw.kept⟩

@[simp] lemma createElement : G.Keeps p (createElement tag) := drawing (.createElement tag)

@[simp] lemma append (parent child : Nat) : G.Keeps p (append parent child) := modifyDocument _

@[simp] lemma setAttribute (name value : String) : G.Keeps p (setAttribute node name value) := modifyDocument _

@[simp] lemma subscribe (event : String) (callback : Nat) :
    G.Keeps p (subscribe node event callback) := modifyDocument _

@[simp] lemma addCallback (c : Callback) : G.Keeps p (addCallback c) := by
  refine .rigid fun w w' h => ?_
  refine .of_ok ?_ (h.set_host {})
  simp [Render.addCallback, h.host_eq]

@[simp] lemma addWarnings (ws : List Markup.Warning) : G.Keeps p (addWarnings ws) :=
  modifyStage fun _ => {}

@[simp] lemma display : G.Keeps p (display v) := drawing (.display v)

lemma modifyHeap (f : Script.Heap → Script.Heap) :
    G.Lockstep p (modify fun w => { w with heap := f w.heap } : RenderM Unit)
      (modify fun w => { w with heap := f w.heap }) := by
  refine .rigid fun w w' h => ?_
  refine .of_ok ?_ (h.set_heap _)
  rw [← h.heap_eq]
  rfl

@[simp] lemma displayError : G.Keeps p (displayError target e) := by
  unfold Render.displayError
  exact .ite (.pure _) (.bind (drawing (.drawError _ _)) fun _ => .bind (modifyStage fun _ => {}) fun _ => .pure _)

@[simp] lemma reportError : G.Keeps p (reportError target e) :=
  .bind (displayError target e) fun _ => .pure _

end Regime
end StoryMarkup.Render
