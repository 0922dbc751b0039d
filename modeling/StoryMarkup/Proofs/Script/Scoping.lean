import StoryMarkup.Proofs.Script.Bond

/-! What an arrow function sees of its callers: their stack under the frame of the call. -/
namespace StoryMarkup.Script

open ScriptM

variable {ω ε α : Type}

def reframe (fs : List (Bindings Value)) : EStateM.Result ε (Machine ω) α → EStateM.Result ε (Machine ω) α
  | .ok a m => .ok a { m with frames := fs }
  | .error e m => .error e { m with frames := fs }

/-- Macros called from expressions that neither read nor write the parameters of functions. -/
def Invoker.Blind (invoke : Invoker ω) : Prop :=
  ∀ id name args m fs, invoke id name args { m with frames := fs } = reframe fs (invoke id name args m)

lemma blind_noInvoker : Invoker.Blind (noInvoker (ω := ω)) := fun _ _ _ _ _ => rfl

def stackBond (ω : Type) (env : Env) : Bond ω ω where
  toTerms := .same env False
  rel := fun n m m' => ∃ upper lower lower', upper.length = n ∧ m.frames = upper ++ lower ∧
    captured lower' = captured lower ∧ m' = { m with frames := upper ++ lower' }
  heap_eq := by
    rintro n m m' ⟨_, _, _, -, -, -, rfl⟩
    rfl
  random_eq := by
    rintro n m m' ⟨_, _, _, -, -, -, rfl⟩
    rfl
  captured_eq := by
    rintro n m m' ⟨upper, lower, lower', -, hm, hc, rfl⟩
    rw [hm, captured_append, captured_append, hc]
  set_heap := by
    rintro n m m' h ⟨upper, lower, lower', hn, hm, hc, rfl⟩ -
    exact ⟨upper, lower, lower', hn, hm, hc, rfl⟩
  set_random := by
    rintro n m m' x ⟨upper, lower, lower', hn, hm, hc, rfl⟩
    exact ⟨upper, lower, lower', hn, hm, hc, rfl⟩
  add_warning := by
    rintro n m m' s - ⟨upper, lower, lower', hn, hm, hc, rfl⟩
    exact ⟨upper, lower, lower', hn, hm, hc, rfl⟩
  assign_local := by
    rintro n m m' name v ⟨upper, lower, lower', hn, hm, hc, rfl⟩
    dsimp only
    rw [hm, assignLocal_append, assignLocal_append]
    split
    · exact ⟨assignLocal name v upper, lower, lower', (length_assignLocal _ _ _).trans hn, rfl, hc, rfl⟩
    · exact ⟨upper, assignLocal name v lower, assignLocal name v lower', hn, rfl,
        captured_assignLocal_congr hc name v, rfl⟩
  push_frame := by
    rintro n m m' f ⟨upper, lower, lower', hn, hm, hc, rfl⟩
    exact ⟨f :: upper, lower, lower', congrArg (· + 1) hn, congrArg (f :: ·) hm, hc, rfl⟩
  pop_frame := by
    rintro n m m' ⟨upper, lower, lower', hn, hm, hc, rfl⟩
    obtain ⟨f, rest, rfl⟩ := List.exists_cons_of_length_eq_add_one hn
    exact ⟨rest, lower, lower', Nat.succ.inj hn, by rw [hm]; rfl, hc, rfl⟩

section Calls

variable {env : Env} {invoke : Invoker ω}

lemma lockstep_blind (hinvoke : invoke.Blind) (n id : Nat) (name : String) (args : List Value) :
    (stackBond ω env).Lockstep n (invoke id name args) (invoke id name args) := by
  refine .rigid ?_
  rintro m m' ⟨upper, lower, lower', hn, hm, hc, rfl⟩
  have hframes : (ending (invoke id name args m)).frames = upper ++ lower := by
    have hsame : invoke id name args m = _ := hinvoke id name args m m.frames
    rw [hsame, ← hm]
    cases invoke id name args m <;> rfl
  rw [hinvoke id name args m (upper ++ lower')]
  generalize invoke id name args m = r at hframes
  cases r with
  | ok v m₁ => exact .ok (R := (stackBond ω env).rel n) v ⟨upper, lower, lower', hn, hframes, hc, rfl⟩
  | error e m₁ => exact .error (R := (stackBond ω env).rel n) e ⟨upper, lower, lower', hn, hframes, hc, rfl⟩

lemma reframe_withFrame (frame : Bindings Value) (x : ScriptM ω α) (m : Machine ω) (fs : List (Bindings Value)) :
    reframe [] (withFrame frame x { m with frames := fs }) = reframe [] (x { m with frames := frame :: fs }) := by
  simp only [withFrame]
  cases x { m with frames := frame :: fs } <;> rfl

lemma reframe_eq_of_matched {n : Nat} {x y : EStateM.Result ε (Machine ω) α}
    (h : Matched False ((stackBond ω env).rel n) x y) : reframe [] y = reframe [] x := by
  refine h.rigid (fun _ hR => ?_) fun _ hR => ?_ <;>
    obtain ⟨_, _, _, -, -, -, rfl⟩ := hR <;> rfl

lemma reframe_callClosure_arrow (depth : Nat) (params : List String) (captures : Bindings Value) (args : List Value)
    (m : Machine ω) (fs : List (Bindings Value)) :
    reframe [] (callClosure env callBuiltin invoke (depth + 1) params (.mk ⟨0, 0⟩ (.arrow [] default)) captures args
        { m with frames := fs }) =
      .ok (.function m.heap.functions.size) { m with
        heap := (m.heap.newFunction (.closure [] default (captured (callFrame params captures args :: fs)))).2
        frames := [] } := rfl

end Calls

/-- Arrow functions see their callers: two stacks of callers are the same to every body if and only
if no call is allowed any more or they flatten to the same bindings under the frame of the call. -/
theorem call_blind_to_callers_iff (env : Env) {invoke : Invoker ω} (hinvoke : invoke.Blind) (depth : Nat)
    (params : List String) (captures : Bindings Value) (args : List Value) (m : Machine ω)
    (fs fs' : List (Bindings Value)) :
    (∀ body,
      reframe [] (callClosure env callBuiltin invoke depth params body captures args { m with frames := fs' }) =
        reframe [] (callClosure env callBuiltin invoke depth params body captures args { m with frames := fs })) ↔
      depth = 0 ∨ captured (callFrame params captures args :: fs') = captured (callFrame params captures args :: fs) := by
  cases depth with
  | zero => exact ⟨fun _ => .inl rfl, fun _ _ => rfl⟩
  | succ depth =>
    constructor
    · intro h
      have hmade := h (.mk ⟨0, 0⟩ (.arrow [] default))
      rw [reframe_callClosure_arrow, reframe_callClosure_arrow] at hmade
      injection hmade with _ hmachine
      have hfunctions := congrArg (fun m : Machine ω => m.heap.functions) hmachine
      simp only [Heap.newFunction, Array.push_eq_push] at hfunctions
      have hclosure := hfunctions.1
      injection hclosure with _ _ hcaptured
      exact .inr hcaptured
    · rintro (hzero | hframes) body
      · exact absurd hzero (Nat.succ_ne_zero depth)
      · let B := stackBond ω env
        let frame := callFrame params captures args
        have hlibrary : ∀ n b args, B.Lockstep n (callBuiltin b args) (callBuiltin b args) := fun n b args =>
          B.callBuiltin b args fun _ _ _ hmarked => hmarked.1
        -- the frame of the call counts as part of the stacks, which are the same from there on
        have hm := B.evalBody hlibrary (lockstep_blind hinvoke) (.inl (rfl : depth = depth)) body
          { m with frames := frame :: fs } { m with frames := frame :: fs' }
          ⟨[], frame :: fs, frame :: fs', rfl, rfl, hframes, rfl⟩
        rw [callClosure, reframe_withFrame, reframe_withFrame]
        exact reframe_eq_of_matched hm

/-- Callers that bind nothing but the parameter of the function cannot be told apart. -/
theorem call_blind_to_shadowed_parameter : let env : Env := { story := 0, temp := 1, constants := 2 }
    let m : Machine Unit := { host := () }
    let fs := [Bindings.ofList [("x", Value.text "five")]]
    let fs' := [Bindings.ofList [("x", Value.text "six")]]
    Invoker.Blind (ω := Unit) noInvoker ∧ ∀ body,
      reframe [] (callClosure env callBuiltin noInvoker 1 ["x"] body .empty [.text "one"] { m with frames := fs' }) =
        reframe [] (callClosure env callBuiltin noInvoker 1 ["x"] body .empty [.text "one"] { m with frames := fs }) := by
  intro env m fs fs'
  have hiff := call_blind_to_callers_iff env blind_noInvoker 1 ["x"] .empty [.text "one"] m fs fs'
  exact ⟨blind_noInvoker, hiff.2 (.inr rfl)⟩

/-- A parameter of the caller is seen where no such name is in sight otherwise, and in the place of
the scope of its name. -/
theorem caller_parameter_seen : let env : Env := { story := 0, temp := 1, constants := 2 }
    let call (name : String) (fs : List (Bindings Value)) :=
      callClosure env callBuiltin noInvoker 1 [] (.mk ⟨0, 0⟩ (.ident name)) .empty [] { frames := fs, host := () }
    (∃ m, call "x" [.ofList [("x", .text "five")]] = .ok (.text "five") m) ∧ (∃ e m, call "x" [] = .error e m) ∧
      (∃ m, call "story" [.ofList [("story", .text "five")]] = .ok (.text "five") m) ∧
      ∃ m, call "story" [] = .ok (.object 0) m :=
  ⟨⟨_, rfl⟩, ⟨_, _, rfl⟩, ⟨_, rfl⟩, ⟨_, rfl⟩⟩

end StoryMarkup.Script
