import StoryMarkup.Proofs.Script.Cells
import StoryMarkup.Proofs.Script.Constants

/-! Storing a property and reading it back. All else reads as before. -/
namespace StoryMarkup.Script

open List Heap

variable {ω α : Type} (h : Heap)

/-! What a store does to the cells. -/

namespace Heap

lemma array_modifyArray {ref : Nat} (f : Array Value → Array Value) (hlt : ref < h.arrays.size) :
    (h.modifyArray ref f).array ref = f (h.array ref) := by
  simp [array, modifyArray, hlt, Array.getElem_modify_self]

lemma displayWithin_modifyObject (ref : Nat) (f : Bindings Value → Bindings Value) (depth : Nat) (v : Value) :
    (h.modifyObject ref f).displayWithin depth v = h.displayWithin depth v := by
  fun_induction displayWithin h depth v with
  | case8 depth r ih => simp [displayWithin, modifyObject, array] at ih ⊢; simp only [ih]
  | _ => simp_all [displayWithin, modifyObject, function?, pattern?]

/-- The text of a value does not depend on what objects hold. -/
theorem display_modifyObject (ref : Nat) (f : Bindings Value → Bindings Value) (v : Value) :
    (h.modifyObject ref f).display v = h.display v := by
  have hdepth : (h.modifyObject ref f).depth = h.depth := by simp [depth, modifyObject]
  rw [display, hdepth, displayWithin_modifyObject, display]

end Heap

namespace ScriptM

variable {items : Array Value} {i n : Nat} {v : Value}

/-- What reads at a position; undefined where a list has none. -/
def readAt (items : Array Value) (i : Nat) : Value := (items[i]?).getD .undefined

lemma toList_resize (items : Array Value) (n : Nat) :
    (resize items n).toList = items.toList.take n ++ replicate (n - items.size) .undefined := by
  unfold resize
  split
  case isTrue hle => simp [Nat.sub_eq_zero_of_le hle]
  case isFalse hgt => simp [take_of_length_le (show items.toList.length ≤ n by simpa using Nat.le_of_not_le hgt)]

lemma readAt_resize {j : Nat} (h : items.size ≤ n) : readAt (resize items n) j = readAt items j := by
  rw [readAt, ← Array.getElem?_toList, toList_resize, take_of_length_le (by simpa using h)]
  by_cases hj : j < items.size
  · rw [getElem?_append_left (by simpa using hj), Array.getElem?_toList, readAt]
  · rw [getElem?_append_right (by simpa using hj), getElem?_replicate]
    have hnone : items[j]? = none := by simpa using hj
    split <;> simp [readAt, hnone]

lemma readAt_storeAt (items : Array Value) (i j : Nat) (v : Value) :
    readAt (storeAt items i v) j = if j = i then v else readAt items j := by
  have hsize : ∀ items : Array Value, i < items.size →
      readAt (items.setIfInBounds i v) j = if j = i then v else readAt items j := by
    intro items hi
    by_cases hj : j = i
    · subst hj
      simp [readAt, hi]
    · simp [readAt, Array.getElem?_setIfInBounds_ne (Ne.symm hj), hj]
  unfold storeAt
  split
  case isTrue hi => exact hsize items hi
  case isFalse hi =>
    have hle : items.size ≤ i + 1 := by omega
    have hlength : (resize items (i + 1)).size = i + 1 := by
      rw [← Array.length_toList, toList_resize, length_append, length_take, length_replicate,
        Array.length_toList]
      omega
    rw [hsize _ (by omega), readAt_resize hle]

end ScriptM

/-! What a store does to the reads. -/

def answer {ε σ : Type} : EStateM.Result ε σ α → Except ε α
  | .ok a _ => .ok a
  | .error e _ => .error e

/-- All that two machines may differ in is the cell that a value refers to. -/
structure Machine.DiffersAt (m m' : Machine ω) (target : Value) : Prop where
  rest : m' = { m with heap := { m.heap with arrays := m'.heap.arrays, objects := m'.heap.objects } }
  arrays : ∀ ref, .array ref ≠ target → m'.heap.array ref = m.heap.array ref
  objects : ∀ ref, .object ref ≠ target → m'.heap.object ref = m.heap.object ref

open ScriptM

/-- The value is read back under its key, what is read under other keys is what was, and no other
cell is touched. -/
structure Stored (m m' : Machine ω) (target key v : Value) (other : Value → Prop) : Prop where
  differs : m.DiffersAt m' target
  reads : getProperty target key m' = .ok v m'
  others : ∀ k, other k → answer (getProperty target k m') = answer (getProperty target k m)

variable {env : Env} {m : Machine ω} {ref i n : Nat} {key v : Value} {name : String}

lemma differsAt_modifyArray (m : Machine ω) (ref : Nat) (f : Array Value → Array Value) :
    m.DiffersAt { m with heap := m.heap.modifyArray ref f } (.array ref) where
  rest := rfl
  arrays := fun other hne => by
    have hne : ref ≠ other := fun h => hne (by rw [h])
    simp [array, modifyArray, Array.getElem?_modify, hne]
  objects := fun _ _ => rfl

lemma differsAt_modifyObject (m : Machine ω) (ref : Nat) (f : Bindings Value → Bindings Value) :
    m.DiffersAt { m with heap := m.heap.modifyObject ref f } (.object ref) where
  rest := rfl
  arrays := fun _ _ => rfl
  objects := fun other hne => by
    have hne : ref ≠ other := fun h => hne (by rw [h])
    simp [object, modifyObject, Array.getElem?_modify, hne]

lemma getProperty_array (m : Machine ω) (ref : Nat) (h : key.index? = some i) :
    getProperty (.array ref) key m = .ok (readAt (m.heap.array ref) i) m := by
  simp only [getProperty, h]
  rfl

lemma getProperty_object (m : Machine ω) (ref : Nat) (key : Value) :
    getProperty (.object ref) key m =
      (((m.heap.object ref).get? (m.heap.display key)).elim (derivedProperty (.object ref) (m.heap.display key))
        pure) m := by
  have hdisplay (f : String → ScriptM ω Value) : (ScriptM.display key >>= f) m = f (m.heap.display key) m := rfl
  have hheap (f : Heap → ScriptM ω Value) : (heap >>= f) m = f m.heap m := rfl
  rw [getProperty, hdisplay, hheap]
  cases (m.heap.object ref).get? (m.heap.display key) <;> rfl

lemma answer_derivedProperty_object (ref : Nat) (name : String) {m m' : Machine ω}
    (h : m'.heap.functions = m.heap.functions) :
    answer (derivedProperty (.object ref) name m') = answer (derivedProperty (.object ref) name m) := by
  simp only [derivedProperty]
  split
  · change Except.ok (Value.function _) = .ok (.function _)
    rw [h]
  · rfl

lemma setProperty_object (m : Machine ω) (key v : Value) (hconst : ref ≠ env.constants) :
    setProperty env (.object ref) key v m =
      .ok () { m with heap := m.heap.modifyObject ref fun o => o.insert (m.heap.display key) v } := by
  simp only [setProperty, beq_eq_false_iff_ne.2 hconst, Bool.false_eq_true, if_false]
  rfl

lemma checkIterations_bind_if {c : Prop} [Decidable c] (count : Nat) (x : ScriptM ω α) (m : Machine ω)
    (hc : ¬ c → count ≤ env.maxIterations) :
    (if c then (checkIterations env count >>= fun _ => x) else x) m =
      if count ≤ env.maxIterations then x m else .error ⟨.tooManyIterations, none⟩ m := by
  by_cases hcount : count ≤ env.maxIterations
  · have hpass : checkIterations (ω := ω) env count = pure () := if_neg (by omega)
    rw [hpass, if_pos hcount]
    split <;> rfl
  · have hfail : checkIterations (ω := ω) env count = throw ⟨.tooManyIterations, none⟩ := if_pos (by omega)
    rw [hfail, if_neg hcount, if_pos (by_contra fun h => hcount (hc h))]
    rfl

/-- A list takes a value at a position that it reaches or that is not too far off. -/
theorem setProperty_item (m : Machine ω) (ref : Nat) (v : Value) (hkey : key.index? = some i) :
    setProperty env (.array ref) key v m =
      if i - (m.heap.array ref).size ≤ env.maxIterations then
        .ok () { m with heap := m.heap.modifyArray ref fun items => storeAt items i v }
      else .error ⟨.tooManyIterations, none⟩ m := by
  simp only [setProperty, hkey]
  exact checkIterations_bind_if _ _ m (by omega)

lemma setProperty_length (m : Machine ω) (ref : Nat) (hkey : key.index? = none)
    (hname : m.heap.display key = "length") (hv : v.index? = some n) :
    setProperty env (.array ref) key v m =
      if n - (m.heap.array ref).size ≤ env.maxIterations then
        .ok () { m with heap := m.heap.modifyArray ref fun items => resize items n }
      else .error ⟨.tooManyIterations, none⟩ m := by
  simp only [setProperty, hkey, hv]
  change (if (m.heap.display key == "length") = true then _ else _ : ScriptM ω Unit) m = _
  rw [hname]
  exact checkIterations_bind_if _ _ m (by omega)

lemma setProperty_refused (m : Machine ω) (ref : Nat) (hkey : key.index? = none)
    (h : m.heap.display key = "length" → v.index? = none) : ∃ e, setProperty env (.array ref) key v m = .error e m := by
  by_cases hname : m.heap.display key = "length"
  · refine ⟨.typeMismatch .arrayLength, ?_⟩
    simp only [setProperty, hkey, h hname]
    change (if (m.heap.display key == "length") = true then _ else _ : ScriptM ω Unit) m = _
    rw [hname]
    rfl
  · refine ⟨.typeMismatch (.writeArray (m.heap.display key)), ?_⟩
    simp only [setProperty, hkey]
    change (if (m.heap.display key == "length") = true then _ else _ : ScriptM ω Unit) m = _
    rw [beq_eq_false_iff_ne.2 hname]
    rfl

/-- A store to an object that is not the constants always succeeds. One to a list succeeds at a
position that the list may grow to and at the length; otherwise the machine is as before. -/
theorem setProperty_reads_back (env : Env) (m : Machine ω) (ref : Nat) (key v : Value) :
    (ref < m.heap.objects.size → ref ≠ env.constants → ∃ m', setProperty env (.object ref) key v m = .ok () m' ∧
      Stored m m' (.object ref) key v fun k => m.heap.display k ≠ m.heap.display key) ∧
    (ref < m.heap.arrays.size →
      (∃ m', setProperty env (.array ref) key v m = .ok () m' ∧
        ((∃ i, key.index? = some i ∧ i - (m.heap.array ref).size ≤ env.maxIterations ∧
          (Stored m m' (.array ref) key v fun k => ∃ j, k.index? = some j ∧ j ≠ i) ∧
          ∀ k j, k.index? = some j → (m.heap.array ref).size ≤ j → j < i →
            getProperty (.array ref) k m' = .ok .undefined m') ∨
        (key.index? = none ∧ m.heap.display key = "length" ∧ ∃ n, v.index? = some n ∧
          n - (m.heap.array ref).size ≤ env.maxIterations ∧ m.DiffersAt m' (.array ref) ∧
          (m'.heap.array ref).toList =
            (m.heap.array ref).toList.take n ++ replicate (n - (m.heap.array ref).size) .undefined))) ∨
      ((∃ e, setProperty env (.array ref) key v m = .error e m) ∧
        ((∃ i, key.index? = some i ∧ env.maxIterations < i - (m.heap.array ref).size) ∨
        (key.index? = none ∧ (m.heap.display key = "length" → ∀ n, v.index? = some n →
          env.maxIterations < n - (m.heap.array ref).size))))) := by
  refine ⟨fun hlt hconst => ⟨_, setProperty_object m key v hconst, differsAt_modifyObject m ref _, ?_, fun k hk => ?_⟩,
    fun hlt => ?_⟩
  · rw [getProperty_object, object_modifyObject _ _ hlt, display_modifyObject, Bindings.get?_insert, if_pos rfl]
    rfl
  · rw [getProperty_object, getProperty_object, object_modifyObject _ _ hlt, display_modifyObject,
      Bindings.get?_insert, if_neg hk]
    cases (m.heap.object ref).get? (m.heap.display k) with
    | none => exact answer_derivedProperty_object ref _ rfl
    | some w => rfl
  cases hkey : key.index? with
  | some i =>
    by_cases hfar : i - (m.heap.array ref).size ≤ env.maxIterations
    · have hset := (setProperty_item m ref v hkey).trans (if_pos hfar)
      have hread {k : Value} {j : Nat} (hj : k.index? = some j) :=
        getProperty_array { m with heap := m.heap.modifyArray ref fun items => storeAt items i v } ref hj
      simp only [array_modifyArray _ _ hlt, readAt_storeAt] at hread
      refine .inl ⟨_, hset, .inl ⟨i, rfl, hfar, ⟨differsAt_modifyArray m ref _, ?_, ?_⟩, fun k j hj hbeyond hbelow => ?_⟩⟩
      · rw [hread hkey, if_pos rfl]
      · rintro k ⟨j, hj, hne⟩
        rw [hread hj, if_neg hne, getProperty_array _ _ hj]
        rfl
      · have hnone : (m.heap.array ref)[j]? = none := by simpa using hbeyond
        rw [hread hj, if_neg (by omega), readAt, hnone]
        rfl
    · have hset := (setProperty_item m ref v hkey).trans (if_neg hfar)
      exact .inr ⟨⟨_, hset⟩, .inl ⟨i, rfl, by omega⟩⟩
  | none =>
    by_cases hrefused : m.heap.display key = "length" → v.index? = none
    · refine .inr ⟨setProperty_refused m ref hkey hrefused, .inr ⟨rfl, fun hname n hn => ?_⟩⟩
      simp [hrefused hname] at hn
    · push Not at hrefused
      obtain ⟨hname, hsome⟩ := hrefused
      obtain ⟨n, hn⟩ := Option.ne_none_iff_exists'.1 hsome
      have hset : setProperty env (.array ref) key v m = _ := setProperty_length m ref hkey hname hn
      by_cases hfar : n - (m.heap.array ref).size ≤ env.maxIterations
      · refine .inl ⟨_, hset.trans (if_pos hfar), .inr ⟨rfl, hname, n, hn, hfar, differsAt_modifyArray m ref _, ?_⟩⟩
        rw [array_modifyArray _ _ hlt, toList_resize]
      · refine .inr ⟨⟨_, hset.trans (if_neg hfar)⟩, .inr ⟨rfl, fun _ n' hn' => ?_⟩⟩
        have : n' = n := by simpa [hn] using hn'.symm
        omega

/-- Storing beyond the end of a list leaves a gap that reads as undefined, and an object keeps what
is stored in it. -/
theorem setProperty_reads_back_gap :
    let m : Machine Unit := { heap := { arrays := #[#[.null]], objects := #[.empty, .empty] }, host := () }
    let env : Env := { story := 1, temp := 1, constants := 0 }
    (∃ m', setProperty env (.object 1) (.text "a") .null m = .ok () m' ∧
      getProperty (.object 1) (.text "a") m' = .ok .null m') ∧
    ∃ m', setProperty env (.array 0) (.number 3) .null m = .ok () m' ∧
      getProperty (.array 0) (.number 3) m' = .ok .null m' ∧
      getProperty (.array 0) (.text "2") m' = .ok .undefined m' := by
  intro m env
  have hindex : (Value.number 3).index? = some 3 := by decide +kernel
  obtain ⟨m', hset, hstored⟩ := (setProperty_reads_back env m 1 (.text "a") .null).1 (by decide) (by decide)
  refine ⟨⟨m', hset, hstored.reads⟩, ?_⟩
  obtain ⟨m', hset, ⟨i, hi, -, hstored, hgap⟩ | ⟨hnone, -⟩⟩ | ⟨-, ⟨i, hi, hfar⟩ | ⟨hnone, -⟩⟩ :=
    (setProperty_reads_back env m 0 (.number 3) .null).2 (by decide)
  · obtain rfl : 3 = i := Option.some.inj (hindex.symm.trans hi)
    exact ⟨m', hset, hstored.reads, hgap (.text "2") 2 (by decide +kernel) (by decide) (by decide)⟩
  · simp [hindex] at hnone
  · obtain rfl : 3 = i := Option.some.inj (hindex.symm.trans hi)
    exact absurd hfar (by decide)
  · simp [hindex] at hnone

end StoryMarkup.Script
