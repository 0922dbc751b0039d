import StoryMarkup.Proofs.Bindings
import StoryMarkup.Script.Eval

/-! The parameters of running functions: stacks that flatten alike cannot be told apart. -/
namespace StoryMarkup.Script

open ScriptM
variable {frames : List (Bindings Value)} (name : String) (f : Bindings Value) (v : Value)
  (upper rest lower : List (Bindings Value))

lemma captured_cons : captured (f :: rest) = (captured rest).insertAll f.entries := by
  simp [captured, List.foldl_append]

lemma captured_append :
    captured (upper ++ lower) = upper.foldr (fun f all => all.insertAll f.entries) (captured lower) := by
  induction upper with
  | nil => rfl
  | cons f rest ih => rw [List.cons_append, captured_cons, ih, List.foldr_cons]

lemma localValue?_cons : localValue? name (f :: rest) = (f.get? name).or (localValue? name rest) := by
  simp only [localValue?, List.findSome?_cons]
  cases f.get? name <;> rfl

lemma get?_captured (frames : List (Bindings Value)) : (captured frames).get? name = localValue? name frames := by
  induction frames with
  | nil => rfl
  | cons f rest ih =>
    rw [captured_cons, Bindings.get?_insertAll, ih, localValue?_cons]

lemma assignLocal_of_none {name : String} (h : localValue? name frames = none) :
    assignLocal name v frames = frames := by
  induction frames with
  | nil => rfl
  | cons f rest ih =>
    rw [localValue?_cons, Option.or_eq_none_iff] at h
    have hc : f.contains name = false := by simp [Bindings.contains, h.1]
    rw [assignLocal, hc, ih h.2]
    simp

lemma captured_assignLocal {name : String} (h : (localValue? name frames).isSome) :
    captured (assignLocal name v frames) = (captured frames).insert name v := by
  induction frames with
  | nil => simp [localValue?] at h
  | cons f rest ih =>
    by_cases hc : f.contains name = true
    · rw [assignLocal, if_pos hc, captured_cons, captured_cons]
      exact Bindings.insertAll_put v f.entries f.distinct ((Bindings.contains_iff f name).1 hc)
    · have hf : f.get? name = none := by simpa [Bindings.contains] using hc
      have hrest : (localValue? name rest).isSome := by
        simpa [localValue?_cons, hf] using h
      have hbound : (captured rest).contains name = true := by
        rw [Bindings.contains, get?_captured]
        exact hrest
      have hname : name ∉ f.entries.map (·.1) := fun hmem => hc ((Bindings.contains_iff f name).2 hmem)
      rw [assignLocal, if_neg hc, captured_cons, captured_cons, ih hrest]
      exact (Bindings.insertAll_insert v f.entries hname hbound).symm

/-- Stacks that cannot be told apart still cannot be after the same assignment to both. -/
theorem captured_assignLocal_congr {frames' : List (Bindings Value)} (h : captured frames' = captured frames)
    (name : String) (v : Value) : captured (assignLocal name v frames') = captured (assignLocal name v frames) := by
  have hlocal : localValue? name frames' = localValue? name frames := by
    rw [← get?_captured, h, get?_captured]
  cases hv : localValue? name frames with
  | none => rw [assignLocal_of_none v hv, assignLocal_of_none v (hlocal.trans hv), h]
  | some w =>
    have hsome : (localValue? name frames).isSome := by rw [hv]; rfl
    have hsome' : (localValue? name frames').isSome := hlocal ▸ hsome
    rw [captured_assignLocal v hsome, captured_assignLocal v hsome', h]

lemma assignLocal_append :
    assignLocal name v (upper ++ lower) =
      if (localValue? name upper).isSome then assignLocal name v upper ++ lower
      else upper ++ assignLocal name v lower := by
  induction upper with
  | nil => simp [localValue?]
  | cons f rest ih =>
    rw [localValue?_cons, List.cons_append, assignLocal, assignLocal, ih]
    by_cases hc : f.contains name = true
    · have hf : (f.get? name).isSome := hc
      simp [hc, hf]
    · have hf : f.get? name = none := by simpa [Bindings.contains] using hc
      rw [if_neg hc, if_neg hc, hf, Option.none_or]
      split <;> rfl

@[simp] lemma length_assignLocal (frames : List (Bindings Value)) :
    (assignLocal name v frames).length = frames.length := by
  induction frames with
  | nil => rfl
  | cons f rest ih =>
    rw [assignLocal]
    split <;> simp [ih]

end StoryMarkup.Script
