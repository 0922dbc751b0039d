import StoryMarkup.Proofs.Script.Bond

/-! Calls in balance: an evaluation never goes below the stack it started with, and leaves that
stack. -/
namespace StoryMarkup.Script

open List ScriptM

variable {ω : Type}

/-- The names that the functions being run have bound, the innermost function first. -/
def Machine.stack (m : Machine ω) : List (List String) := m.frames.map Bindings.keys

lemma stack_assignLocal (name : String) (v : Value) (frames : List (Bindings Value)) :
    (assignLocal name v frames).map Bindings.keys = frames.map Bindings.keys := by
  induction frames with
  | nil => rfl
  | cons f rest ih =>
    rw [assignLocal]
    split
    · next hbound =>
      have hkeys : (f.insert name v).keys = f.keys :=
        (Bindings.names_put name v f.entries).trans (if_pos ((f.contains_iff name).1 hbound))
      rw [map_cons, hkeys, map_cons]
    · rw [map_cons, ih, map_cons]

/-- What the surroundings keep, and the stacks that were noted, the last one first. -/
abbrev Observed (ω : Type) := ω × List (List (List String))

def Machine.unobserved (m : Machine (Observed ω)) : Machine ω := { m with host := m.host.1 }

def Machine.note (m : Machine (Observed ω)) : Machine (Observed ω) :=
  { m with host := (m.host.1, m.stack :: m.host.2) }

/-- Note the stack before and after a part is evaluated, whether it comes to a value or not. -/
def observe (_ : Form) (x : ScriptM (Observed ω) Value) : ScriptM (Observed ω) Value := fun m =>
  match x m.note with
  | .ok v m' => .ok v m'.note
  | .error e m' => .error e m'.note

/-- Macros are run by the surroundings, which see nothing of the stacks that were noted. -/
def unseen (invoke : Invoker ω) : Invoker (Observed ω) := fun id name args m =>
  match invoke id name args m.unobserved with
  | .ok v m' => .ok v { m' with host := (m'.host, m.host.2) }
  | .error e m' => .error e { m' with host := (m'.host, m.host.2) }

variable (env : Env) (invoke : Invoker ω)

def observedClosure : Nat → List String → Expr → Bindings Value → List Value → ScriptM (Observed ω) Value
  | 0, _, _, _, _ => throw ⟨.callDepth env.maxDepth, none⟩
  | depth + 1, params, body, captures, args =>
    withFrame (callFrame params captures args)
      (evalWith env observe (writePlace env)
        (callWith env (callBy callBuiltin (unseen invoke) (observedClosure depth))) body)

/-- Evaluation with `depth` nested calls of arrow functions still allowed, and with the stack noted
on the way. -/
def observedEval (depth : Nat) (e : Expr) : ScriptM (Observed ω) Value :=
  evalWith env observe (writePlace env)
    (callWith env (callBy callBuiltin (unseen invoke) (observedClosure env invoke depth))) e

/-- The stack stands on the given one, with so many functions entered since. -/
def Above (base : List (List String)) (count : Nat → Prop) (stack : List (List String)) : Prop :=
  ∃ upper, stack = upper ++ base ∧ count upper.length

def balanceBond (ω : Type) (env : Env) (base : List (List String)) (limit : Nat) : Bond ω (Observed ω) where
  toTerms := .same env False
  rel := fun n m m' => m = m'.unobserved ∧ Above base (· = n) m'.stack ∧ ∀ stack ∈ m'.host.2,
    Above base (· ≤ limit) stack
  heap_eq := fun h => by rw [h.1]; rfl
  random_eq := fun h => by rw [h.1]; rfl
  captured_eq := fun h => by rw [h.1]; rfl
  set_heap := fun h _ => ⟨by rw [h.1]; rfl, h.2⟩
  set_random := fun _ h => ⟨by rw [h.1]; rfl, h.2⟩
  add_warning := fun _ _ h => ⟨by rw [h.1]; rfl, h.2⟩
  assign_local := fun name v h => by
    refine ⟨by rw [h.1]; rfl, ?_, h.2.2⟩
    rw [Machine.stack, stack_assignLocal]
    exact h.2.1
  push_frame := fun f h => by
    obtain ⟨hm, ⟨upper, hstack, hupper⟩, hnoted⟩ := h
    exact ⟨by rw [hm]; rfl, ⟨f.keys :: upper, congrArg (f.keys :: ·) hstack, congrArg Nat.succ hupper⟩, hnoted⟩
  pop_frame := fun h => by
    obtain ⟨hm, ⟨upper, hstack, hupper⟩, hnoted⟩ := h
    obtain ⟨top, upper, rfl⟩ := exists_cons_of_length_eq_add_one hupper
    refine ⟨by rw [hm]; rfl, ⟨upper, ?_, Nat.succ.inj hupper⟩, hnoted⟩
    rw [Machine.stack, map_tail]
    exact congrArg tail hstack

section Steps

variable {env invoke} {base : List (List String)} {limit n : Nat}

lemma note_keeps {m : Machine ω} {m' : Machine (Observed ω)}
    (h : (balanceBond ω env base limit).rel n m m')
    (hn : n ≤ limit) : (balanceBond ω env base limit).rel n m m'.note := by
  obtain ⟨hm, hstack, hnoted⟩ := h
  refine ⟨hm, hstack, forall_mem_cons.2 ⟨?_, hnoted⟩⟩
  obtain ⟨upper, hupper, hlength⟩ := hstack
  exact ⟨upper, hupper, Nat.le_trans (Nat.le_of_eq hlength) hn⟩

lemma observe_keeps (hn : n ≤ limit) {form : Form} {w : Machine (Observed ω)} {x : ScriptM ω Value}
    {y : ScriptM (Observed ω) Value} (h : (balanceBond ω env base limit).accord.Abreast n w x y) :
    (balanceBond ω env base limit).accord.Abreast n w (asIs form x) (observe form y) := by
  refine ⟨fun m m' hr _ => ?_, fun _ _ hlax => hlax⟩
  have hnote {m m'} (hr : (balanceBond ω env base limit).rel n m m') := note_keeps hr hn
  have hm := h.agrees m m'.note (hnote hr) trivial
  unfold asIs observe
  generalize x m = r, y m'.note = r' at hm ⊢
  cases hm with
  | ok hr _ hv => exact .ok (hnote hr) trivial hv
  | error hr _ he => exact .error (hnote hr) trivial he
  | off hlax => exact hlax.elim

lemma evalWith_keeps (hn : n ≤ limit) {plain : Value → List Value → ScriptM ω Value}
    {plain' : Value → List Value → ScriptM (Observed ω) Value}
    (hplain : ∀ f args, (balanceBond ω env base limit).Lockstep n (plain f args) (plain' f args)) (e : Expr) :
    (balanceBond ω env base limit).Lockstep n (evalWith env asIs (writePlace env)
      (callWith env plain) e) (evalWith env observe (writePlace env) (callWith env plain') e) := by
  let B := balanceBond ω env base limit
  have hvisit {form w x y} (h : B.accord.AbreastTo n w (B.accord.UpTo form.limited) x y) :
      B.accord.Abreast n w (asIs form x) (observe form y) := observe_keeps hn (.known (.inl B.anyText) h)
  exact B.lockstep fun _ => .evalWith hvisit (fun _ _ => .writePlace B.runs B.writes _)
    (fun _ _ => .callWith (fun _ => B.abreast (hplain _ _)) B.writes B.anyText _) e (B.each e true)

variable (hinvoke : ∀ id name args m, (ending (invoke id name args m)).stack = m.stack)
include hinvoke

lemma unseen_keeps (id : Nat) (name : String) (args : List Value) :
    (balanceBond ω env base limit).Lockstep n (invoke id name args) (unseen invoke id name args) := by
  refine .rigid fun m m' hr => ?_
  obtain ⟨rfl, hstack, hnoted⟩ := hr
  have hkeeps := hinvoke id name args m'.unobserved
  unfold unseen
  generalize invoke id name args m'.unobserved = r at hkeeps
  cases r with
  | ok v m => exact .ok v ⟨rfl, hkeeps.symm ▸ hstack, hnoted⟩
  | error e m => exact .error e ⟨rfl, hkeeps.symm ▸ hstack, hnoted⟩

lemma callBy_keeps {enter : List String → Expr → Bindings Value → List Value → ScriptM ω Value}
    {enter' : List String → Expr → Bindings Value → List Value → ScriptM (Observed ω) Value}
    (henter : ∀ params body captures args,
      (balanceBond ω env base limit).Lockstep n (enter params body captures args) (enter' params body captures args))
    (f : Value) (args : List Value) : (balanceBond ω env base limit).Lockstep n (callBy callBuiltin invoke enter f args)
      (callBy callBuiltin (unseen invoke) enter' f args) := by
  let B := balanceBond ω env base limit
  exact B.lockstep fun _ => .callBy (fun _ => B.abreast (B.callBuiltin _ _ fun _ _ _ hmarked => hmarked.1))
    (fun _ => B.abreast (unseen_keeps hinvoke _ _ _)) (fun _ _ _ => B.abreast (henter _ _ _ _)) (B.all args)

/-- A body runs with one more function entered and one call less to nest, so that together they stay
the same. -/
theorem observedClosure_keeps {depth : Nat} (hdepth : n + depth = limit) (params : List String)
    (body : Expr) (captures : Bindings Value) (args : List Value) :
    (balanceBond ω env base limit).Lockstep n (callClosure env callBuiltin invoke depth params body
      captures args) (observedClosure env invoke depth params body captures args) := by
  let B := balanceBond ω env base limit
  induction depth generalizing n params body captures args with
  | zero => exact .throw _
  | succ depth ih =>
    have hinner : n + 1 + depth = limit := by omega
    have hbody := evalWith_keeps (Nat.le.intro hinner) (callBy_keeps hinvoke (ih hinner)) body
    exact B.lockstep fun _ => .withFrame B.runs (B.all _) (B.abreast hbody)

end Steps

/-- Whatever is evaluated, in whatever state and however it ends, the functions being run and the
names they have bound are in the end those of the start; only values have been assigned. The
evaluation is the one that is observed, and every stack noted on the way stands on the first one and
has no more functions on it than are allowed, those counted that were entered before. Macros are
taken to leave the stack as they find it. -/
theorem calls_in_balance (hinvoke : ∀ id name args m, (ending (invoke id name args m)).stack = m.stack)
    {running left : Nat} (hdepth : running + left = env.maxDepth) (e : Expr) (m : Machine ω) :
    Matched False (fun m₁ m₂ => m₁ = m₂.unobserved ∧ m₁.stack = m.stack ∧
        ∀ stack ∈ m₂.host.2, Above m.stack (running + · ≤ env.maxDepth) stack)
      (evalWith env asIs (writePlace env) (callWith env (callUsing env callBuiltin invoke left)) e m)
      (observedEval env invoke left e { m with host := (m.host, []) }) := by
  have hplain : ∀ f args, (balanceBond ω env m.stack left).Lockstep 0 (callUsing env callBuiltin invoke left f args)
      (callBy callBuiltin (unseen invoke) (observedClosure env invoke left) f args) :=
    callBy_keeps hinvoke (observedClosure_keeps hinvoke (Nat.zero_add left))
  have hstart : (balanceBond ω env m.stack left).rel 0 m { m with host := (m.host, []) } :=
    ⟨rfl, ⟨[], rfl, rfl⟩, by simp⟩
  refine (evalWith_keeps (Nat.zero_le left) hplain e m _ hstart).imp ?_
  rintro _ m₂ ⟨rfl, ⟨upper, hstack, hnone⟩, hnoted⟩
  rw [eq_nil_of_length_eq_zero hnone] at hstack
  refine ⟨rfl, hstack, fun stack hmem => ?_⟩
  obtain ⟨upper, hupper, hle⟩ := hnoted stack hmem
  exact ⟨upper, hupper, by omega⟩

/-- A function that calls another one which fails: both have been entered, and both have been left
again. -/
theorem failed_calls_are_left : let env : Env := { story := 0, temp := 1, constants := 2, maxDepth := 2 }
    let m : Machine Unit := { heap := { objects := #[.empty, .empty, .empty] }, host := () }
    let at0 (f : Form) : Expr := .mk ⟨0, 0⟩ f
    let inner : Expr := at0 (.call (at0 (.arrow ["y"] (at0 (.member (at0 .null) "z" false)))) [at0 (.ident "x")] false)
    let outer : Expr := at0 (.call (at0 (.arrow ["x"] inner)) [at0 (.bool true)] false)
    ∃ err m₁ m₂, eval env noInvoker outer m = .error err m₁ ∧
      observedEval env noInvoker 2 outer { m with host := (m.host, []) } = .error err m₂ ∧
      [["x", "y"], ["x"]] ∈ m₂.host.2 ∧ m₁.stack = [] ∧ ∀ stack ∈ m₂.host.2, Above [] (0 + · ≤ 2) stack := by
  intro env m at0 inner outer
  have hbalance := calls_in_balance env noInvoker (fun _ _ _ _ => rfl) (Nat.zero_add 2) outer m
  refine ⟨_, _, _, rfl, rfl, by decide, ?_⟩
  cases hbalance with
  | error _ h => exact h.2
  | off hlax => exact hlax.elim

end StoryMarkup.Script
