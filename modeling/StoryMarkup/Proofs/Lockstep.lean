import Mathlib.Tactic.Lemma
/-! Computations in lockstep: started in related states they end alike, in related states again. -/
namespace StoryMarkup

variable {ε σ τ α β : Type}
variable {y : EStateM ε τ α} {x : EStateM ε σ α}

def ending : EStateM.Result ε σ α → σ
  | .ok _ s => s
  | .error _ s => s

inductive Matched (lax : Prop) (R : σ → τ → Prop) : EStateM.Result ε σ α → EStateM.Result ε τ α → Prop
  | ok (a : α) {s : σ} {t : τ} : R s t → Matched lax R (.ok a s) (.ok a t)
  | error (e : ε) {s : σ} {t : τ} : R s t → Matched lax R (.error e s) (.error e t)
  /-- A lax comparison asks nothing after a failure. -/
  | off {e : ε} {s : σ} {y : EStateM.Result ε τ α} : lax → Matched lax R (.error e s) y

lemma Matched.of_ok {lax : Prop} {R : σ → τ → Prop} {a : α} {s : σ} {t : τ} {y : EStateM.Result ε τ α}
    (hy : y = .ok a t) (h : R s t) : Matched lax R (.ok a s) y := hy ▸ .ok a h

lemma Matched.imp {lax : Prop} {R S : σ → τ → Prop} {x : EStateM.Result ε σ α} {y : EStateM.Result ε τ α}
    (h : Matched lax R x y) (hRS : ∀ {s t}, R s t → S s t) : Matched lax S x y := by
  cases h with
  | ok a hr => exact .ok a (hRS hr)
  | error e hr => exact .error e (hRS hr)
  | off hlax => exact .off hlax

section Rigid

variable {R : σ → τ → Prop} {x : EStateM.Result ε σ α} {y : EStateM.Result ε τ α}

@[elab_as_elim] lemma Matched.rigid {motive : EStateM.Result ε σ α → EStateM.Result ε τ α → Prop}
    (h : Matched False R x y)
    (ok : ∀ {s t} a, R s t → motive (.ok a s) (.ok a t)) (error : ∀ {s t} e, R s t → motive (.error e s) (.error e t)) :
    motive x y := by
  cases h with
  | ok a hr => exact ok a hr
  | error e hr => exact error e hr
  | off hlax => exact hlax.elim

lemma Matched.ends (h : Matched False R x y) : R (ending x) (ending y) := h.rigid (fun _ => id) fun _ => id

end Rigid

/-- From related states the two computations come to results that match. The second one is let off
where it ends in a state of the given kind, and does not get out of such states again, whatever has
become of the first. -/
structure Lockstep (lax : τ → Prop) (R : σ → τ → Prop) (x : EStateM ε σ α) (y : EStateM ε τ α) : Prop where
  matched : ∀ s t, R s t → Matched (lax (ending (y t))) R (x s) (y t)
  stray : ∀ (_ : σ) t, lax t → lax (ending (y t))

instance {lax : τ → Prop} {R : σ → τ → Prop} {x : EStateM ε σ α} {y : EStateM ε τ α} :
    CoeFun (Lockstep lax R x y) fun _ => ∀ s t, R s t → Matched (lax (ending (y t))) R (x s) (y t) :=
  ⟨Lockstep.matched⟩

abbrev never : τ → Prop := fun _ => False

namespace Lockstep

variable {lax : τ → Prop} {R : σ → τ → Prop}

lemma rigid (h : ∀ s t, R s t → Matched False R (x s) (y t)) : Lockstep never R x y :=
  ⟨h, fun _ _ hlax => hlax⟩

@[simp] lemma pure (a : α) : Lockstep lax R (pure a : EStateM ε σ α) (pure a) :=
  ⟨fun _ _ h => .ok a h, fun _ _ hlax => hlax⟩

@[simp] lemma throw (e : ε) : Lockstep lax R (throw e : EStateM ε σ α) (throw e) :=
  ⟨fun _ _ h => .error e h, fun _ _ hlax => hlax⟩

@[simp] lemma bind {f : α → EStateM ε σ β} {g : α → EStateM ε τ β} (hx : Lockstep lax R x y)
    (hf : ∀ a, Lockstep lax R (f a) (g a)) : Lockstep lax R (x >>= f) (y >>= g) := by
  -- the kind of states in which the second is let off is kept by what comes after
  have hafter : ∀ (_ : σ) (r : EStateM.Result ε τ α), lax (ending r) →
      lax (ending (match r with | .ok a t => g a t | .error e t => .error e t)) := by
    intro s r hr
    cases r with
    | ok a t => exact (hf a).stray s t hr
    | error e t => exact hr
  refine ⟨fun s t h => ?_, fun s t hlax => hafter s _ (hx.stray s t hlax)⟩
  have hm := hx s t h
  change Matched (lax (ending (match y t with | .ok a t => g a t | .error e t => .error e t))) R
    (match x s with | .ok a s => f a s | .error e s => .error e s)
    (match y t with | .ok a t => g a t | .error e t => .error e t)
  generalize x s = r, y t = r' at hm
  cases hm with
  | ok a hR => exact hf a _ _ hR
  | error e hR => exact .error e hR
  | off hlax => exact .off (hafter s _ hlax)

@[simp] lemma map {f : α → β} (hx : Lockstep lax R x y) : Lockstep lax R (f <$> x) (f <$> y) := by
  rw [map_eq_pure_bind, map_eq_pure_bind]
  exact bind hx fun a => pure (f a)

@[simp] lemma ite {c : Prop} [Decidable c] {x' : EStateM ε σ α} {y' : EStateM ε τ α} (hx : Lockstep lax R x y)
    (hx' : Lockstep lax R x' y') : Lockstep lax R (if c then x else x') (if c then y else y') := by
  split <;> assumption

lemma adaptExcept {ε' : Type} (f : ε → ε') (h : Lockstep lax R x y) :
    Lockstep lax R (x.adaptExcept f) (y.adaptExcept f) := by
  have hend : ∀ t, ending (y.adaptExcept f t) = ending (y t) := by
    intro t
    simp only [EStateM.adaptExcept]
    cases y t <;> rfl
  refine ⟨fun s t hR => ?_, fun s t hlax => (hend t).symm ▸ h.stray s t hlax⟩
  have hm := h s t hR
  rw [hend]
  simp only [EStateM.adaptExcept]
  generalize x s = r, y t = r' at hm
  cases hm with
  | ok a hR => exact .ok a hR
  | error e hR => exact .error (f e) hR
  | off hlax => exact .off hlax

variable {γ : Type}

@[simp] lemma mapM {f : γ → EStateM ε σ α} {g : γ → EStateM ε τ α} (items : List γ)
    (h : ∀ c, Lockstep lax R (f c) (g c)) : Lockstep lax R (items.mapM f) (items.mapM g) := by
  induction items with
  | nil => simp
  | cons c rest ih =>
    rw [List.mapM_cons, List.mapM_cons]
    exact bind (h c) fun a => bind ih fun as => pure (a :: as)

@[simp] lemma forM {f : γ → EStateM ε σ PUnit} {g : γ → EStateM ε τ PUnit} (items : List γ)
    (h : ∀ c, Lockstep lax R (f c) (g c)) : Lockstep lax R (items.forM f) (items.forM g) := by
  induction items with
  | nil => simp
  | cons c rest ih =>
    exact bind (h c) fun _ => ih

end Lockstep
end StoryMarkup
