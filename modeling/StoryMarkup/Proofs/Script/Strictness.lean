import StoryMarkup.Proofs.Script.Bond

/-! Strict evaluation stops at a missing variable, and up to there lenient evaluation does the
same. -/
namespace StoryMarkup.Script

variable {ω α : Type}

def Env.withStrict (env : Env) (strict : Bool) : Env := { env with strict }

def strictBond (ω : Type) (env : Env) (warnings : Array String) : Bond ω ω where
  left := env.withStrict true
  right := env.withStrict false
  lax := fun count => warnings.size < count
  marked := fun _ => False
  lax_mono := fun hle hlt => Nat.lt_of_lt_of_le hlt hle
  scope_eq := fun s => by cases s <;> rfl
  strict_eq := .inr ⟨rfl, rfl⟩
  iterations_eq := .inl rfl
  depth_eq := .inl rfl
  marked_eq := False.elim
  rel := fun _ m m' => m' = m ∧ m.warnings = warnings
  heap_eq := fun ⟨h, _⟩ => by rw [h]
  random_eq := fun ⟨h, _⟩ => by rw [h]
  captured_eq := fun ⟨h, _⟩ => by rw [h]
  set_heap := fun ⟨h, hw⟩ _ => ⟨by rw [h], hw⟩
  set_random := fun _ ⟨h, hw⟩ => ⟨by rw [h], hw⟩
  add_warning := fun _ hstrict _ => nomatch hstrict
  lax_of_warned := fun _ {_ _ _} ⟨h, hw⟩ => by rw [h, hw]; exact Nat.lt_succ_self _
  assign_local := fun _ _ ⟨h, hw⟩ => ⟨by rw [h], hw⟩
  push_frame := fun _ ⟨h, hw⟩ => ⟨by rw [h], hw⟩
  pop_frame := fun ⟨h, hw⟩ => ⟨by rw [h], hw⟩

section Results

variable {env : Env} {warnings : Array String} {n : Nat} {x y : EStateM.Result ScriptError (Machine ω) α} {lax : Prop}

lemma eq_of_strict_ok {a : α} {m : Machine ω}
    (h : Matched lax ((strictBond ω env warnings).rel n) x y)
    (hx : x = .ok a m) : y = .ok a m ∧ m.warnings = warnings := by
  cases h with
  | ok b hR =>
    obtain ⟨rfl, hw⟩ := hR
    injection hx with hb hm
    exact ⟨by rw [hb, hm], hm ▸ hw⟩
  | error e hR | off hlax => nomatch hx

lemma strict_eq_of_rigid (h : Matched lax ((strictBond ω env warnings).rel n) x y) (hlax : ¬ lax) : x = y := by
  cases h with
  | ok b hR | error e hR => rw [hR.1]
  | off hlax' => exact absurd hlax' hlax

end Results

/-- Strict evaluation only turns warnings into errors. If it comes to a value, lenient evaluation
comes to the same value in the same machine, with no warning added; and where lenient evaluation
adds no warning, it comes to the same as strict evaluation does, be it a value or an error. -/
theorem strict_only_turns_warnings_into_errors (env : Env) (e : Expr) (m : Machine ω) :
    let strict := eval (env.withStrict true) noInvoker e m
    let lenient := eval (env.withStrict false) noInvoker e m
    (∀ v m', strict = .ok v m' → lenient = .ok v m' ∧ m'.warnings = m.warnings) ∧
      ((ending lenient).warnings = m.warnings → strict = lenient) := by
  intro strict lenient
  let B := strictBond ω env m.warnings
  have hsteps : B.Lockstep 0 (eval (env.withStrict true) noInvoker e) (eval (env.withStrict false) noInvoker e) :=
    B.evalUsing (fun _ b args => B.callBuiltin b args fun _ _ _ hmarked => hmarked) (fun _ _ _ _ => B.refuse _) e
  have hm : Matched (m.warnings.size < (ending lenient).warnings.size) (B.rel 0) strict lenient :=
    hsteps m m ⟨rfl, rfl⟩
  refine ⟨fun v m' hok => eq_of_strict_ok hm hok, fun hw => strict_eq_of_rigid hm ?_⟩
  rw [hw]
  exact Nat.lt_irrefl _

/-- A variable that is there reads the same either way; a missing one stops the strict evaluation
alone. -/
theorem missing_variable_minded_when_strict : let env : Env := { story := 0, temp := 1, constants := 2 }
    let m : Machine Unit := { heap := { objects := #[.ofList [("name", .text "Ann")], .empty, .empty] }, host := () }
    let read (name : String) : Expr := .mk ⟨0, 0⟩ (.member (.mk ⟨0, 0⟩ (.ident "story")) name false)
    eval (env.withStrict false) noInvoker (read "name") m = .ok (.text "Ann") m ∧
      (∃ e, eval (env.withStrict true) noInvoker (read "nme") m = .error e m) ∧
      ∃ m', eval (env.withStrict false) noInvoker (read "nme") m = .ok .undefined m' ∧ m'.warnings.size = 1 := by
  intro env m read
  exact ⟨((strict_only_turns_warnings_into_errors env (read "name") m).1 (.text "Ann") m rfl).1, ⟨_, rfl⟩, _, rfl, rfl⟩

end StoryMarkup.Script
