import StoryMarkup.Proofs.Script.Bond

/-! Limits on loops and calls. While narrower limits allow going on, wider ones make no
difference. -/
namespace StoryMarkup.Script

variable {ω α : Type}

def Env.withLimits (env : Env) (iterations depth : Nat) : Env :=
  { env with maxIterations := iterations, maxDepth := depth }

def limitBond (ω : Type) (env : Env) {iterations iterations' depth depth' : Nat}
    (hiterations : iterations ≤ iterations') (hdepth : depth ≤ depth') : Bond ω ω where
  left := env.withLimits iterations depth
  right := env.withLimits iterations' depth'
  lax := fun _ => True
  marked := fun _ => False
  lax_mono := fun _ _ => trivial
  scope_eq := fun s => by cases s <;> rfl
  strict_eq := .inl rfl
  iterations_eq := .inr ⟨fun _ => trivial, hiterations⟩
  depth_eq := .inr ⟨fun _ => trivial, hdepth⟩
  marked_eq := False.elim
  rel := fun _ m m' => m' = m
  heap_eq := fun h => by rw [h]
  random_eq := fun h => by rw [h]
  captured_eq := fun h => by rw [h]
  set_heap := fun h _ => by rw [h]
  set_random := fun _ h => by rw [h]
  add_warning := fun _ _ h => by rw [h]
  lax_of_warned := fun _ {_ _ _} _ => trivial
  assign_local := fun _ _ h => by rw [h]
  push_frame := fun _ h => by rw [h]
  pop_frame := fun h => by rw [h]

lemma eq_of_narrow_ok {lax : Prop} {x y : EStateM.Result ScriptError (Machine ω) α} {a : α} {m : Machine ω}
    (h : Matched lax (fun m m' => m' = m) x y) (hx : x = .ok a m) : y = .ok a m := by
  cases h with
  | ok b hm =>
    obtain rfl := hm
    exact hx
  | error e hm | off hlax => nomatch hx

/-- Limits never change a result: an evaluation that comes to a value comes to the same value within
any wider limits, and leaves the same machine behind, with its heap, its scopes, its random state
and its warnings. -/
theorem wider_limits_keep_the_result (env : Env) {iterations iterations' depth depth' : Nat}
    (hiterations : iterations ≤ iterations') (hdepth : depth ≤ depth') (e : Expr) {m m' : Machine ω}
    {v : Value} (h : eval (env.withLimits iterations depth) noInvoker e m = .ok v m') :
    eval (env.withLimits iterations' depth') noInvoker e m = .ok v m' := by
  let B := limitBond ω env hiterations hdepth
  have hsteps : B.Lockstep 0 (eval (env.withLimits iterations depth) noInvoker e)
      (eval (env.withLimits iterations' depth') noInvoker e) :=
    B.evalUsing (fun _ b args => B.callBuiltin b args fun _ _ _ hmarked => hmarked) (fun _ _ _ _ => B.refuse _) e
  exact eq_of_narrow_ok (hsteps m m rfl) h

/-- A function that calls another one needs two levels: with one it stops, and with two or more it
gives its value. -/
theorem nested_call_needs_two_levels : let env : Env := { story := 0, temp := 1, constants := 2 }
    let m : Machine Unit := { heap := { objects := #[.empty, .empty, .empty] }, host := () }
    let at0 (f : Form) : Expr := .mk ⟨0, 0⟩ f
    let inner : Expr := at0 (.call (at0 (.arrow ["y"] (at0 (.ident "y")))) [at0 (.ident "x")] false)
    let outer : Expr := at0 (.call (at0 (.arrow ["x"] inner)) [at0 (.bool true)] false)
    (∃ m', eval (env.withLimits 0 1) noInvoker outer m = .error ⟨.callDepth 1, some ⟨0, 0⟩⟩ m') ∧
      ∃ m', eval (env.withLimits 0 2) noInvoker outer m = .ok (.bool true) m' ∧
        eval (env.withLimits 10000 64) noInvoker outer m = .ok (.bool true) m' := by
  intro env m at0 inner outer
  have hnarrow : ∃ m', eval (env.withLimits 0 2) noInvoker outer m = .ok (.bool true) m' := ⟨_, rfl⟩
  obtain ⟨m', hm'⟩ := hnarrow
  refine ⟨⟨_, rfl⟩, m', hm', ?_⟩
  exact wider_limits_keep_the_result env (by decide) (by decide) outer hm'

end StoryMarkup.Script
