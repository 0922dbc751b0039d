import StoryMarkup.Proofs.Render.Bookkeeping

/-! What a computation adds to the world: cells, callbacks that are kept track of, a course of the
tables. -/
namespace StoryMarkup.Render

open Script (Value)

variable {ε ε' α β γ : Type}
variable {x : EStateM ε World α} {site : Site} {u v w : World} {temp : Nat} {nums more : List Nat}
  {f : α → EStateM ε World β} (target : Nat) (items : List γ) (e : RenderError)

def Scoped (w : World) : Prop := ∀ p ∈ w.host.callbacks, p.2.temp < w.heap.objects.size

structure Ready (temp : Nat) (w : World) : Prop where
  temp_lt : temp < w.heap.objects.size
  scopes : Scoped w

/-- A later world: nothing has gone from the heap, and every callback was there or is a new one of a
given kind. -/
structure Extends (K : Nat × Callback → Prop) (w v : World) : Prop where
  heap_le : w.heap.objects.size ≤ v.heap.objects.size
  callbacks : ∀ p ∈ v.host.callbacks, p ∈ w.host.callbacks ∨ p.2.temp < v.heap.objects.size ∧ K p

namespace Extends

variable {K K' : Nat × Callback → Prop}

lemma refl (w : World) : Extends K w w := ⟨Nat.le_refl _, fun _ hp => .inl hp⟩

lemma trans (h : Extends K u v) (h' : Extends K v w) : Extends K u w where
  heap_le := Nat.le_trans h.heap_le h'.heap_le
  callbacks := by
    intro p hp
    obtain hold | hnew := h'.callbacks p hp
    · exact (h.callbacks p hold).imp id fun ⟨htemp, hK⟩ => ⟨Nat.lt_of_lt_of_le htemp h'.heap_le, hK⟩
    · exact .inr hnew

lemma mono (h : Extends K u v) (hK : ∀ p, K p → K' p) : Extends K' u v where
  heap_le := h.heap_le
  callbacks := fun p hp => (h.callbacks p hp).imp id fun ⟨htemp, hp⟩ => ⟨htemp, hK p hp⟩

lemma ready (h : Extends K u v) (hu : Ready temp u) : Ready temp v where
  temp_lt := Nat.lt_of_lt_of_le hu.temp_lt h.heap_le
  scopes := fun p hp => (h.callbacks p hp).elim (fun hold => Nat.lt_of_lt_of_le (hu.scopes p hold) h.heap_le) (·.1)

end Extends

/-- A later world with nothing new in it: nothing has gone from the heap, and the tables are thinned
out at most. -/
structure Subsides (w v : World) : Prop where
  heap_le : w.heap.objects.size ≤ v.heap.objects.size
  thinned : Thinned w.host v.host

lemma Subsides.refl (w : World) : Subsides w w := ⟨Nat.le_refl _, .refl _⟩

inductive Aspect where
  | scopes
  | tables

namespace Aspect

variable {m : Aspect} {K K' : Nat × Callback → Prop}

def Before (m : Aspect) (temp : Nat) (w : World) : Prop :=
  match m with
  | .scopes => Ready temp w
  | .tables => 0 < w.host.document.nodes.size

def After (m : Aspect) (nums : List Nat) (K : Nat × Callback → Prop) (w v : World) : Prop :=
  match m with
  | .scopes => Extends K w v
  | .tables => Course nums w.host v.host

def Fresh (m : Aspect) (node : Nat) : Prop := m = .tables → node ≠ Document.root

namespace After

lemma idle (nums : List Nat) (w : World) : m.After nums K w w := by
  cases m with
  | scopes => exact Extends.refl w
  | tables => exact Course.idle nums w.host

lemma append (h : m.After nums K u v) (h' : m.After more K v w) : m.After (nums ++ more) K u w := by
  cases m with
  | scopes => exact Extends.trans h h'
  | tables => exact Course.append h h'

lemma mono (h : m.After nums K w v) (hK : ∀ p, K p → K' p) : m.After nums K' w v := by
  cases m with
  | scopes => exact Extends.mono h hK
  | tables => exact h

lemma before (h : m.After nums K w v) (hw : m.Before temp w) : m.Before temp v := by
  cases m with
  | scopes => exact Extends.ready h hw
  | tables => exact Nat.lt_of_lt_of_le hw (Course.later h).size_le

lemma of_subsides (h : Subsides w v) : m.After [] K w v := by
  cases m with
  | scopes => exact ⟨h.heap_le, fun _ hp => .inl (h.thinned.callbacks.subset hp)⟩
  | tables => exact .of_step (.thin h.thinned)

lemma registered {c : Callback} (hw : m.Before c.temp w) (hfresh : m.Fresh c.anchor) (hK : K (w.host.created + 1, c))
    (hheap : v.heap = w.heap) (hcallbacks : v.host.callbacks = (w.host.registered c).callbacks)
    (hstep : c.anchor ≠ Document.root → Step w.host v.host) : m.After [] K w v := by
  cases m with
  | scopes =>
    refine ⟨Nat.le_of_eq (by rw [hheap]), fun p hp => ?_⟩
    rw [hcallbacks] at hp
    obtain rfl | hold := List.mem_cons.1 hp
    · exact .inr ⟨by rw [hheap]; exact hw.temp_lt, hK⟩
    · exact .inl hold
  | tables => exact .of_step (hstep (hfresh rfl))

end After

lemma Before.scope {p : Nat × Callback} (hw : m.Before temp w) (hp : p ∈ w.host.callbacks) : m.Before p.2.temp w := by
  cases m with
  | scopes => exact ⟨hw.scopes p hp, hw.scopes⟩
  | tables => exact hw

end Aspect

def Adds (m : Aspect) (nums : List Nat) (temp : Nat) (K : Nat × Callback → Prop)
    (x : EStateM ε World α) (w : World) : Prop := m.Before temp w → m.After nums K w (ending (x w))

namespace Adds

variable {m : Aspect} {K K' : Nat × Callback → Prop} {c : Callback}

lemma of_subsides (h : Subsides w (ending (x w))) : Adds m [] temp K x w := fun _ => .of_subsides h

lemma pure (a : α) : Adds m [] temp K (pure a : EStateM ε World α) w := of_subsides (.refl w)

lemma throw (e : ε) : Adds m [] temp K (MonadExcept.throw e : EStateM ε World α) w := of_subsides (.refl w)

lemma throw_bind (e : ε) (f : α → EStateM ε World β) :
    Adds m [] temp K ((MonadExcept.throw e : EStateM ε World α) >>= f) w := of_subsides (.refl w)

lemma append (hx : Adds m nums temp K x w)
    (hf : ∀ a v, x w = .ok a v → Adds m more temp K (f a) v) :
    Adds m (nums ++ more) temp K (x >>= f) w := by
  intro hw
  have hfirst := hx hw
  simp only [Bind.bind, EStateM.bind]
  cases hxw : x w with
  | ok a v =>
    rw [hxw] at hfirst
    exact hfirst.append (hf a v hxw (hfirst.before hw))
  | error e v =>
    rw [hxw] at hfirst
    exact hfirst.append (.idle more v)

lemma bind (hx : Adds m [] temp K x w) (hf : ∀ a v, x w = .ok a v → Adds m nums temp K (f a) v) :
    Adds m nums temp K (x >>= f) w := hx.append hf

lemma bind_bind {g : β → EStateM ε World γ} (h : Adds m nums temp K ((x >>= f) >>= g) w) :
    Adds m nums temp K (x >>= fun a => f a >>= g) w := by
  rwa [bind_assoc] at h

lemma mono (h : Adds m nums temp K x w) (hK : ∀ p, K p → K' p) : Adds m nums temp K' x w :=
  fun hw => (h hw).mono hK

lemma unnumbered (h : Adds .scopes nums temp K x w) : Adds .scopes more temp K x w := h

lemma ite {c : Prop} [Decidable c] {y : EStateM ε World α} (hx : c → Adds m nums temp K x w)
    (hy : ¬ c → Adds m nums temp K y w) : Adds m nums temp K (if c then x else y) w := by
  split
  · exact hx ‹_›
  · exact hy ‹_›

lemma bind_get {f : World → RenderM α} (hf : Adds m nums temp K (f w) w) : Adds m nums temp K (get >>= f) w := hf

lemma bind_stage {f : Stage → RenderM α} (hf : Adds m nums temp K (f w.host) w) :
    Adds m nums temp K (stage >>= f) w := hf

lemma drawing {x : RenderM α} (h : Drawing x) : Adds m [] temp K x w := by
  obtain ⟨a, document, hdrawn, hx⟩ := h.ok w
  refine of_subsides ?_
  rw [hx]
  exact ⟨Nat.le_refl _, .of_redrawn hdrawn rfl rfl rfl⟩

lemma draw {x : RenderM α} {f : α → RenderM β} (hx : Drawing x)
    (hf : ∀ a document, Adds m [] temp K (f a) { w with host := { w.host with document } }) :
      Adds m [] temp K (x >>= f) w := by
  refine bind (drawing hx) fun a v hv => ?_
  obtain ⟨a', document, -, hdrawn⟩ := hx.ok w
  rw [hdrawn] at hv
  cases hv
  exact hf a document

lemma draw_element {tag : String} {f : Nat → RenderM β}
    (hf : ∀ node document, m.Fresh node → Adds m [] temp K (f node) { w with host := { w.host with document } }) :
    Adds m [] temp K (createElement tag >>= f) w := by
  intro hw
  refine bind (drawing (.createElement tag)) (fun node v hv => ?_) hw
  cases hv
  refine hf _ _ fun hm => ?_
  subst hm
  exact Nat.ne_of_gt hw

lemma modifyStage {f : Stage → Stage} (h : Thinned w.host (f w.host)) : Adds m [] temp K (modifyStage f) w :=
  of_subsides ⟨Nat.le_refl _, h⟩

lemma modifyScope (scope : Nat) (f : Bindings Value → Bindings Value) : Adds m [] temp K (modifyScope scope f) w :=
  of_subsides ⟨Nat.le_of_eq (Array.size_modify ..).symm, .refl _⟩

lemma newScope (fields : Bindings Value) : Adds m [] temp K (newScope fields) w :=
  of_subsides ⟨by simp [Render.newScope, ending], .refl _⟩

lemma addWarnings (ws : List Markup.Warning) : Adds m [] temp K (addWarnings ws) w :=
  modifyStage (.of_redrawn (.refl _) rfl rfl rfl)

lemma displayError : Adds m [] temp K (displayError target e) w := by
  unfold Render.displayError
  exact ite (fun _ => pure _) fun _ => bind (drawing (Drawing.drawError _ _)) fun _ _ _ =>
    bind (modifyStage (.of_redrawn (.refl _) rfl rfl rfl)) fun _ _ _ => pure _

lemma reportError : Adds m [] temp K (reportError target e) w :=
  bind (displayError target e) fun _ _ _ => pure _

/-! New callbacks. -/

lemma listen {node : Nat} {event : String} (htemp : c.temp = temp) (hanchor : m.Fresh c.anchor)
    (hK : K (w.host.created + 1, c)) : Adds m [] temp K (do subscribe node event (← addCallback c)) w :=
  fun hw => .registered (htemp ▸ hw) hanchor hK rfl rfl (.listen c node event)

lemma postpone {delay : Nat} (htemp : c.temp = temp) (hanchor : m.Fresh c.anchor)
    (hK : K (w.host.created + 1, c)) : Adds m [] temp K (do
      let id ← addCallback c
      Render.modifyDocument fun d => d.schedule delay id) w :=
  fun hw => .registered (htemp ▸ hw) hanchor hK rfl rfl (.postpone c delay)

lemma region {name : String} (htemp : c.temp = temp) (honce : c.once = false)
    (hanchor : m.Fresh c.anchor) (hK : K (w.host.created + 1, c)) :
    Adds m [] temp K (do
      let id ← addCallback c
      Render.modifyStage fun s =>
        { s with redoables := s.redoables.insert name ((s.redoables.get? name).getD [] ++ [id]) }) w :=
  fun hw => .registered (htemp ▸ hw) hanchor hK rfl rfl fun h => .region c name h honce

/-! Computations around others. -/

lemma around {y : EStateM ε' World β} (hx : Adds m nums temp K x u) (henter : Subsides w u)
    (hleave : Subsides (ending (x u)) (ending (y w))) : Adds m nums temp K y w := by
  intro hw
  have hin : m.After [] K w u := .of_subsides henter
  have hend := hin.append ((hx (hin.before hw)).append (.of_subsides hleave))
  rwa [List.append_nil] at hend

lemma catching {x : RenderM α} (h : Adds m nums temp K x w) : Adds m nums temp K (catchingRender x) w := by
  refine h.around (.refl w) ?_
  unfold catchingRender
  cases x w <;> exact .refl _

lemma finish {x : RenderM Signal} (h : Adds m [] temp K x w) : Adds m [] temp K (finish target x) w := by
  intro hw
  have hx := h hw
  unfold Render.finish
  cases hxw : x w with
  | ok a v =>
    rw [hxw] at hx
    exact hx
  | error e v =>
    rw [hxw] at hx
    exact hx.append (bind (displayError target e) (fun _ _ _ => pure ()) (hx.before hw))

lemma inLoop {x : RenderM α} (h : Adds m nums temp K x (loopWorld w)) : Adds m nums temp K (inLoop x) w := by
  refine h.around ⟨Nat.le_refl _, .of_redrawn (.refl _) rfl rfl rfl⟩ ?_
  unfold Render.inLoop loopWorld
  dsimp only
  generalize x _ = outcome
  cases outcome <;> exact ⟨Nat.le_refl _, .of_redrawn (.refl _) rfl rfl rfl⟩

lemma inPass {x : RenderM α} (h : Adds m nums temp K x (passWorld w)) : Adds m nums temp K (inPass x) w := by
  refine h.around ⟨Nat.le_refl _, .of_redrawn (.refl _) rfl rfl rfl⟩ ?_
  unfold Render.inPass passWorld
  dsimp only
  generalize x _ = outcome
  cases outcome <;> exact ⟨Nat.le_refl _, .of_redrawn (.refl _) rfl rfl rfl⟩

lemma nested {x : RenderM α} (recoveryDepth : Nat)
    (h : Adds m nums temp K x { w with host := { w.host with depth := w.host.depth + 1 } }) :
    Adds m nums temp K (nested recoveryDepth x) w := by
  refine h.around ⟨Nat.le_refl _, .of_redrawn (.refl _) rfl rfl rfl⟩ ?_
  unfold Render.nested
  dsimp only
  generalize x _ = outcome
  cases outcome <;> exact ⟨Nat.le_refl _, .of_redrawn (.refl _) rfl rfl rfl⟩

lemma turns {f : γ → RenderM α} {goesOn : α → Bool} {g : List γ → RenderM β} {stop : γ → α → RenderM β}
    (hcons : ∀ a rest, g (a :: rest) = do let v ← f a; if goesOn v then g rest else stop a v)
    (hnil : ∀ v, Adds m [] temp K (g []) v) (items : List γ)
    (hf : ∀ a v, Turn f goesOn items w a v → Adds m [] temp K (f a) v)
    (hstop : ∀ a b v v', Turn f goesOn items w a v → f a v = .ok b v' → goesOn b = false →
      Adds m [] temp K (stop a b) v') :
    Adds m [] temp K (g items) w := by
  induction items generalizing w with
  | nil => exact hnil w
  | cons a rest ih =>
    rw [hcons]
    refine bind (hf a w .first) fun b v hb => ite (fun hgo => ?_) fun hstops => ?_
    · exact ih (fun c u hc => hf c u (.next hb hgo hc)) fun c d u u' hc => hstop c d u u' (.next hb hgo hc)
    · exact hstop a b w v .first hb (Bool.eq_false_iff.2 hstops)

lemma mapM {f : γ → RenderM α}
    (hf : ∀ a v, Turn f (fun _ => true) items w a v → Adds m [] temp K (f a) v) :
    Adds m [] temp K (items.mapM f) w := by
  induction items generalizing w with
  | nil => exact pure _
  | cons a rest ih =>
    rw [List.mapM_cons]
    exact bind (hf a w .first) fun b v hb =>
      bind (ih fun c u hc => hf c u (.next hb rfl hc)) fun _ _ _ => pure _

lemma forM {f : γ → RenderM Unit}
    (hf : ∀ a v, Turn f (fun _ => true) items w a v → Adds m [] temp K (f a) v) :
    Adds m [] temp K (items.forM f) w := by
  induction items generalizing w with
  | nil => exact pure _
  | cons a rest ih => exact bind (hf a w .first) fun b v hb => ih fun c u hc => hf c u (.next hb rfl hc)

lemma firings {f : Nat → RenderM Unit} (nums : List Nat)
    (hf : ∀ n v, Turn f (fun _ => true) nums w n v → Adds m [n] temp K (f n) v) :
    Adds m nums temp K (nums.forM f) w := by
  induction nums generalizing w with
  | nil => exact pure _
  | cons n rest ih => exact (hf n w .first).append fun b v hb => ih fun n' u hn' => hf n' u (.next hb rfl hn')

/-! Scripts and their failures. -/

lemma runSource {x : EStateM Script.ScriptError World α} (raw : String)
    (hx : Adds m [] temp K (Renderer.run site x) w) :
    Adds m [] temp K (Renderer.runSource raw site x) w := by
  refine hx.bind fun found v _ => ?_
  cases found with
  | ok a => exact .pure a
  | error e => exact .throw _

lemma run_of_script (hx : Adds m [] temp K x { w with frames := [], warnings := #[] }) :
    Adds m [] temp K (Renderer.run site x) w := by
  refine hx.around ⟨Nat.le_refl _, .refl _⟩ ?_
  unfold Renderer.run
  dsimp only
  generalize x _ = outcome
  cases outcome <;> exact ⟨Nat.le_refl _, .of_redrawn (.refl _) rfl rfl rfl⟩

lemma run (env : Script.Env) (y : EStateM ε (Script.Machine (Script.Noting Stage)) α)
    (hxy : ∀ I : Script.CallInvariant Stage, StoryMarkup.Lockstep never ((I.bond env).rel 0) x y) :
    Adds m [] temp K (Renderer.run site x) w := by
  let I : Script.CallInvariant Stage := {
    holds := fun size host _ => w.heap.objects.size ≤ size ∧ host = w.host
    grow := fun hsize ⟨hheap, hhost⟩ => ⟨Nat.le_trans hheap hsize, hhost⟩ }
  let start : World := { w with frames := [], warnings := #[] }
  have hend : I.holds (ending (x start)).heap.objects.size (ending (x start)).host (Script.callsOf y start) :=
    Script.CallInvariant.holds_ending (hxy I) ⟨Nat.le_refl _, rfl⟩
  have hsame : Thinned start.host (ending (x start)).host := by
    rw [hend.2]
    exact .refl _
  exact run_of_script (of_subsides ⟨hend.1, hsame⟩)

lemma parseExpr {e : Markup.ExprSource} {f : Script.Expr → RenderM β}
    (hf : ∀ tree, Script.Expr.parse e.code.toList = .ok tree → Adds m [] temp K (f tree) w) :
    Adds m [] temp K (Renderer.parseExpr e site >>= f) w := by
  unfold Renderer.parseExpr
  cases hparse : Script.Expr.parse e.code.toList with
  | ok tree =>
    rw [pure_bind]
    exact hf tree hparse
  | error cause => exact .throw _

end Adds

end StoryMarkup.Render
