import Mathlib.Tactic.Lemma
import StoryMarkup.Bindings

/-! Laws of bindings. Two insertions commute as soon as one of the names is bound already. -/
namespace StoryMarkup.Bindings

open List

variable {α β : Type}
variable {b : Bindings α} {es : List (String × α)} {name : String} {c : Bindings α} {k : String} (v w : α)

lemma ext (h : b.entries = c.entries) : b = c := by
  cases b
  cases c
  cases h
  rfl

lemma lookup_pair (k other : String) (w : α) (rest : List (String × α)) :
    ((k, w) :: rest).lookup other = if other = k then some w else rest.lookup other := by
  rw [lookup_cons]
  by_cases h : other = k
  · simp [h]
  · have hb : (other == k) = false := by simpa using h
    simp [h, hb]

lemma lookup_eq_none (h : name ∉ es.map (·.1)) : es.lookup name = none := by
  rw [lookup_eq_none_iff]
  intro e he
  have hne : name ≠ e.1 := fun hn => h (hn ▸ mem_map_of_mem he)
  simpa using hne

lemma ext_get? (hkeys : b.keys = c.keys) (h : ∀ name, b.get? name = c.get? name) : b = c := by
  obtain ⟨es, hes⟩ := b
  obtain ⟨fs, hfs⟩ := c
  simp only [keys, get?] at hkeys h
  refine ext ?_
  change es = fs
  clear hfs
  induction es generalizing fs with
  | nil => exact (map_eq_nil_iff.1 hkeys.symm).symm
  | cons e rest ih =>
    obtain _ | ⟨f, rest'⟩ := fs
    · cases hkeys
    · obtain ⟨k, v⟩ := e
      obtain ⟨k', w⟩ := f
      obtain ⟨rfl, hrest⟩ : k = k' ∧ rest.map (·.1) = rest'.map (·.1) := by simpa using hkeys
      rw [map_cons, nodup_cons] at hes
      have hv : v = w := by simpa [lookup_pair] using h k
      have htail : rest = rest' := by
        refine ih hes.2 rest' hrest fun name => ?_
        by_cases hname : name = k
        · rw [hname, lookup_eq_none hes.1, lookup_eq_none (hrest ▸ hes.1)]
        · simpa [lookup_pair, hname] using h name
      rw [hv, htail]

lemma lookup_put (name other : String) (v : α) (es : List (String × α)) :
    (put name v es).lookup other = if other = name then some v else es.lookup other := by
  induction es with
  | nil => simp [put, lookup_pair]
  | cons e rest ih =>
    obtain ⟨k, w⟩ := e
    by_cases hk : k = name
    · subst hk
      by_cases h : other = k <;> simp [put, lookup_pair, h]
    · have hput : put name v ((k, w) :: rest) = (k, w) :: put name v rest := by simp [put, hk]
      rw [hput, lookup_pair, lookup_pair, ih]
      by_cases h : other = k
      · subst h
        simp [hk]
      · simp [h]

@[simp] lemma get?_insert (b : Bindings α) (name other : String) (v : α) :
    (b.insert name v).get? other = if other = name then some v else b.get? other :=
  lookup_put name other v b.entries

@[simp] lemma get?_empty (name : String) : (empty : Bindings α).get? name = none := rfl

lemma get?_map (f : α → β) (b : Bindings α) (name : String) : (b.map f).get? name = (b.get? name).map f := by
  obtain ⟨entries, distinct⟩ := b
  simp only [get?, map]
  clear distinct
  induction entries with
  | nil => rfl
  | cons e rest ih =>
    obtain ⟨k, v⟩ := e
    rw [map_cons, lookup_pair, lookup_pair, ih]
    split <;> rfl

lemma get?_filter (p : String × α → Bool) (b : Bindings α) (name : String) :
    (b.filter p).get? name = (b.get? name).filter fun v => p (name, v) := by
  obtain ⟨entries, distinct⟩ := b
  simp only [get?, filter]
  induction entries with
  | nil => rfl
  | cons e rest ih =>
    obtain ⟨k, v⟩ := e
    obtain ⟨hk, hrest⟩ := nodup_cons.1 distinct
    rw [filter_cons, lookup_pair]
    by_cases hname : name = k
    · subst hname
      have hnone : (rest.filter p).lookup name = none :=
        lookup_eq_none fun hmem => hk ((filter_sublist.map _).subset hmem)
      rw [if_pos rfl, Option.filter_some]
      split
      · rw [lookup_pair, if_pos rfl]
      · exact hnone
    · rw [if_neg hname, ← ih hrest]
      split
      · rw [lookup_pair, if_neg hname]
      · rfl

lemma contains_iff (b : Bindings α) (name : String) : b.contains name = true ↔ name ∈ b.keys := by
  obtain ⟨es, hes⟩ := b
  simp only [contains, get?, keys]
  clear hes
  induction es with
  | nil => simp
  | cons e rest ih =>
    obtain ⟨k, w⟩ := e
    by_cases h : name = k <;> simp [lookup_pair, h, ih]

@[simp] lemma insertAll_nil (b : Bindings α) : b.insertAll [] = b := rfl

@[simp] lemma insertAll_cons (b : Bindings α) (e : String × α) (es : List (String × α)) :
    b.insertAll (e :: es) = (b.insert e.1 e.2).insertAll es := rfl

lemma insertAll_append (b : Bindings α) (es fs : List (String × α)) :
    b.insertAll (es ++ fs) = (b.insertAll es).insertAll fs := foldl_append

@[simp] lemma contains_insert (b : Bindings α) (name other : String) (v : α) :
    (b.insert name v).contains other = (decide (other = name) || b.contains other) := by
  simp only [contains, get?_insert]
  split <;> simp_all

lemma put_put (name : String) (v w : α) (es : List (String × α)) : put name v (put name w es) = put name v es := by
  induction es with
  | nil => simp [put]
  | cons e rest ih => by_cases h : e.1 = name <;> simp [put, h, ih]

lemma insert_insert (b : Bindings α) (name : String) (v w : α) : (b.insert name w).insert name v = b.insert name v :=
  ext (put_put name v w b.entries)

lemma put_comm (es : List (String × α)) (hk : k ≠ name) (h : name ∈ es.map (·.1)) :
    put name v (put k w es) = put k w (put name v es) := by
  induction es with
  | nil => simp at h
  | cons e rest ih =>
    obtain ⟨j, u⟩ := e
    by_cases hj : j = name
    · subst hj
      simp [put, Ne.symm hk]
    · have hrest : name ∈ rest.map (·.1) := by
        simpa [Ne.symm hj] using h
      by_cases hjk : j = k
      · subst hjk
        simp [put, hk]
      · simp [put, hj, hjk, ih hrest]

lemma insert_comm (hk : k ≠ name) (h : b.contains name = true) :
    (b.insert k w).insert name v = (b.insert name v).insert k w :=
  ext (put_comm v w b.entries hk ((contains_iff b name).1 h))

lemma insertAll_insert (es : List (String × α)) (hname : name ∉ es.map (·.1))
    (h : b.contains name = true) :
    (b.insertAll es).insert name v = (b.insert name v).insertAll es := by
  induction es generalizing b with
  | nil => rfl
  | cons e rest ih =>
    simp only [map_cons, mem_cons, not_or] at hname
    rw [insertAll_cons, insertAll_cons, ih hname.2 (by simp [h]), insert_comm v e.2 (Ne.symm hname.1) h]

/-- Writing a frame over bindings after a write to one of its names is a write to what the frame
gives. -/
theorem insertAll_put (es : List (String × α)) (hes : (es.map (·.1)).Nodup) (hname : name ∈ es.map (·.1)) :
    b.insertAll (put name v es) = (b.insertAll es).insert name v := by
  induction es generalizing b with
  | nil => simp at hname
  | cons e rest ih =>
    obtain ⟨k, w⟩ := e
    simp only [map_cons, nodup_cons] at hes
    by_cases hk : k = name
    · subst hk
      have hput : put k v ((k, w) :: rest) = (k, v) :: rest := by simp [put]
      rw [hput, insertAll_cons, insertAll_cons, insertAll_insert v rest hes.1 (by simp), insert_insert]
    · have hput : put name v ((k, w) :: rest) = (k, w) :: put name v rest := by simp [put, hk]
      have hrest : name ∈ rest.map (·.1) := by simpa [Ne.symm hk] using hname
      rw [hput, insertAll_cons, insertAll_cons, ih hes.2 hrest]

lemma get?_insertAll (b c : Bindings α) (name : String) :
    (b.insertAll c.entries).get? name = (c.get? name).or (b.get? name) := by
  obtain ⟨es, hes⟩ := c
  simp only [get?]
  change (b.insertAll es).get? name = _
  induction es generalizing b with
  | nil => simp; rfl
  | cons e rest ih =>
    obtain ⟨k, w⟩ := e
    simp only [map_cons, nodup_cons] at hes
    rw [insertAll_cons, ih (b.insert k w) hes.2]
    by_cases h : name = k
    · subst h
      simp [lookup_eq_none hes.1, lookup_put, insert]
    · simp [lookup_pair, h, lookup_put, insert]

lemma contains_insertAll (b : Bindings α) (es : List (String × α)) (name : String) :
    (b.insertAll es).contains name = true ↔ name ∈ es.map (·.1) ∨ b.contains name = true := by
  induction es generalizing b with
  | nil => simp
  | cons e rest ih =>
    rw [insertAll_cons, ih, contains_insert, map_cons, mem_cons, Bool.or_eq_true, decide_eq_true_eq]
    grind

lemma get?_insertAll_of_not_mem (b : Bindings α) (h : name ∉ es.map (·.1)) :
    (b.insertAll es).get? name = b.get? name := by
  induction es generalizing b with
  | nil => rfl
  | cons e rest ih =>
    rw [map_cons, mem_cons, not_or] at h
    rw [insertAll_cons, ih _ h.2, get?_insert, if_neg h.1]

lemma put_of_not_mem (h : name ∉ es.map (·.1)) : put name v es = es ++ [(name, v)] := by
  induction es with
  | nil => rfl
  | cons e rest ih =>
    obtain ⟨k, w⟩ := e
    rw [map_cons, mem_cons, not_or] at h
    simp [put, Ne.symm h.1, ih h.2]

lemma entries_insertAll (b : Bindings α) (h : ((b.entries ++ es).map (·.1)).Nodup) :
    (b.insertAll es).entries = b.entries ++ es := by
  induction es generalizing b with
  | nil => simp
  | cons e rest ih =>
    have hnew : e.1 ∉ b.entries.map (·.1) := by
      rw [map_append, nodup_append] at h
      exact fun hmem => h.2.2 e.1 hmem e.1 (by simp) rfl
    have hentries : (b.insert e.1 e.2).entries = b.entries ++ [e] := put_of_not_mem e.2 hnew
    rw [insertAll_cons, ih, hentries, append_assoc, singleton_append]
    rwa [hentries, append_assoc, singleton_append]

lemma entries_ofList (h : (es.map (·.1)).Nodup) : (ofList es).entries = es :=
  entries_insertAll empty h

lemma keys_insertAll (b : Bindings α) (h : ∀ name ∈ es.map (·.1), b.contains name = true) :
    (b.insertAll es).keys = b.keys := by
  induction es generalizing b with
  | nil => rfl
  | cons e rest ih =>
    have hbound : e.1 ∈ b.keys := (contains_iff b e.1).1 (h e.1 (by simp))
    have hkeys : (b.insert e.1 e.2).keys = b.keys := by
      simp only [keys, insert, names_put]
      exact if_pos hbound
    have hrest : ∀ name ∈ rest.map (·.1), (b.insert e.1 e.2).contains name = true := by
      intro name hname
      rw [contains_iff, hkeys, ← contains_iff]
      exact h name (mem_cons_of_mem _ hname)
    rw [insertAll_cons, ih _ hrest, hkeys]

lemma insertAll_eq_self_iff (b : Bindings α) (es : List (String × α)) :
    b.insertAll es = b ↔ ∀ name ∈ es.map (·.1), (b.insertAll es).get? name = b.get? name := by
  constructor
  · intro h name _
    rw [h]
  · intro h
    have hbound : ∀ name ∈ es.map (·.1), b.contains name = true := by
      intro name hname
      rw [contains, ← h name hname]
      exact (contains_insertAll b es name).2 (.inl hname)
    refine ext_get? (keys_insertAll b hbound) fun name => ?_
    by_cases hname : name ∈ es.map (·.1)
    · exact h name hname
    · exact get?_insertAll_of_not_mem b hname

/-! The values that are bound. -/

lemma mem_values_of_get? {v : α} (h : b.get? name = some v) : v ∈ b.values := by
  obtain ⟨before, after, he, -⟩ := lookup_eq_some_iff.1 h
  simp [values, he]

lemma mem_values_insert {v w : α} (h : w ∈ (b.insert name v).values) : w = v ∨ w ∈ b.values := by
  have hput : ∀ es : List (String × α), w ∈ (put name v es).map (·.2) → w = v ∨ w ∈ es.map (·.2) := by
    intro es
    induction es with
    | nil => simp [put]
    | cons e rest ih =>
      rw [put]
      split <;> grind
  exact hput b.entries h

lemma mem_values_insertAll {w : α} (h : w ∈ (b.insertAll es).values) : w ∈ b.values ∨ w ∈ es.map (·.2) := by
  induction es generalizing b with
  | nil => exact .inl h
  | cons e rest ih =>
    obtain hw | hw := ih h
    · obtain rfl | hw := mem_values_insert hw
      · simp
      · exact .inl hw
    · exact .inr (mem_cons_of_mem _ hw)

end StoryMarkup.Bindings
