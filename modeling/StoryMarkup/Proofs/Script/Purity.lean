import StoryMarkup.Proofs.Script.Evaluation

/-! Purity: without assignments and calls evaluation only makes new cells and gives warnings. -/
namespace StoryMarkup.Script

open ScriptM

variable {ω : Type}

/-- Nothing is lost or changed on the way from one machine to the other: cells and warnings are
added behind the old ones. -/
structure Machine.Untouched (m m' : Machine ω) : Prop where
  arrays : m.heap.arrays.toList <+: m'.heap.arrays.toList
  objects : m.heap.objects.toList <+: m'.heap.objects.toList
  functions : m.heap.functions.toList <+: m'.heap.functions.toList
  patterns : m.heap.patterns.toList <+: m'.heap.patterns.toList
  warnings : m.warnings.toList <+: m'.warnings.toList
  random_eq : m'.random = m.random
  frames_eq : m'.frames = m.frames
  host_eq : m'.host = m.host

namespace Machine.Untouched

variable {m m' : Machine ω}

lemma refl (m : Machine ω) : m.Untouched m :=
  ⟨List.prefix_rfl, List.prefix_rfl, List.prefix_rfl, List.prefix_rfl, List.prefix_rfl, rfl, rfl, rfl⟩

lemma push {α : Type} {xs ys : Array α} (h : xs.toList <+: ys.toList) (y : α) : xs.toList <+: (ys.push y).toList := by
  rw [Array.toList_push]
  exact h.trans (List.prefix_append _ _)

lemma make_cell {value : Value → Prop} {text : String → Prop} {fits : Expr → Prop} {r : Value × Heap}
    (h : m.Untouched m') (hr : Allocates value text fits m'.heap r) : m.Untouched { m' with heap := r.2 } := by
  cases hr with
  | array _ => exact { h with arrays := push h.arrays _ }
  | object _ => exact { h with objects := push h.objects _ }
  | closure _ _ | builtin _ | method _ => exact { h with functions := push h.functions _ }
  | pattern _ _ => exact { h with patterns := push h.patterns _ }

lemma warn (h : m.Untouched m') (s : String) : m.Untouched { m' with warnings := m'.warnings.push s } :=
  { h with warnings := push h.warnings s }

end Machine.Untouched

/-- The forms of an expression without effects: what is not to happen stands in the bodies of arrow
functions. -/
def Form.harmless (inside : Bool) (form : Form) : Prop := inside = true ∨ form.writes = false ∧ form.calls = false

def pureAccord (env : Env) (start : Machine ω) : Accord ω ω where
  toTerms := .same env False
  rel := fun _ m m' => m = m' ∧ start.Untouched m'
  kind := fun _ => Kind.any
  form := Form.harmless
  le := fun _ _ => True
  le_refl := fun _ => trivial
  le_trans := fun _ _ => trivial
  kind_mono := fun _ h => h
  heap_eq := fun h => by rw [h.1]
  captured_eq := fun h => by rw [h.1]
  all_heap := fun _ => Holding.of_forall fun _ => trivial
  all_frames := fun _ => Holding.of_forall fun _ => trivial
  all_scope := fun _ _ => trivial
  literal := fun _ _ _ => trivial
  closure := fun _ _ _ _ _ => .inl rfl
  pattern := fun _ _ _ => ⟨trivial, trivial⟩
  make_cell := by
    rintro _ _ m' r ⟨rfl, hm⟩ hmade
    exact ⟨⟨rfl, hm.make_cell hmade⟩, trivial, trivial⟩
  free := False.elim
  add_warning := by
    rintro _ _ m' s - ⟨rfl, hm⟩
    exact ⟨⟨rfl, hm.warn s⟩, trivial⟩

/-- An expression without assignment, update or call outside of arrow functions leaves all that
there was as it was, whether it comes to a value or not. -/
theorem eval_leaves_untouched (env : Env) (invoke : Invoker ω) (e : Expr)
    (he : e.Each Form.harmless false) (m : Machine ω) :
    m.Untouched (ending (eval env invoke e m)) := by
  have heval : (pureAccord env m).Abreast 0 m (eval env invoke e) (eval env invoke e) := by
    refine .evalWith (.asIs fun _ _ => trivial) (fun hform hwrites => ?_) (fun hform hcalls => ?_) e
      ⟨he, fun _ _ => trivial⟩
    · obtain hinside | ⟨hnone, _⟩ := hform
      · cases hinside
      · exact absurd (hwrites.symm.trans hnone) (by decide)
    · obtain hinside | ⟨_, hnone⟩ := hform
      · cases hinside
      · exact absurd (hcalls.symm.trans hnone) (by decide)
  exact (heval.agrees m m ⟨rfl, .refl m⟩ trivial).ends.2

/-- A look-up that warns, a method that is looked up and not called, and an assignment that waits in
a function. -/
theorem list_literal_leaves_story : let env : Env := { story := 0, temp := 1, constants := 2 }
    let m : Machine Unit :=
      { heap := { arrays := #[#[.null]], objects := #[.ofList [("bag", .array 0)], .empty, .empty] }, host := () }
    let at0 : Form → Expr := .mk ⟨0, 0⟩
    let story : String → Expr := fun name => at0 (.member (at0 (.ident "story")) name false)
    -- [...story.bag, story.hat, story.bag.push, (x) => story.bag = x]
    let e := at0 (.array [at0 (.spread (story "bag")), story "hat", at0 (.member (story "bag") "push" false),
      at0 (.arrow ["x"] (at0 (.assign none (story "bag") (at0 (.ident "x")))))])
    let after := ending (eval env noInvoker e m)
    e.Each Form.harmless false ∧ m.Untouched after ∧ after.warnings.size = 1 ∧
      after.heap.arrays.size = 2 ∧ after.heap.functions.size = 2 := by
  intro env m at0 story e after
  have he : e.Each Form.harmless false := by
    simp [e, at0, story, Expr.each_mk, Form.parts, Form.isArrow, Form.harmless, Form.writes, Form.calls]
  exact ⟨he, eval_leaves_untouched env noInvoker e he m, by decide +kernel, by decide +kernel, by decide +kernel⟩

end StoryMarkup.Script
