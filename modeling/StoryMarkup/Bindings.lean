/-! Bindings of names to values in the order of their first insertion. No name is bound twice. -/
namespace StoryMarkup

structure Bindings (α : Type) where
  entries : List (String × α)
  distinct : (entries.map (·.1)).Nodup
deriving Repr

namespace Bindings

variable {α β : Type}

def empty : Bindings α := ⟨[], List.nodup_nil⟩

instance : Inhabited (Bindings α) := ⟨empty⟩

def get? (b : Bindings α) (name : String) : Option α := b.entries.lookup name

def contains (b : Bindings α) (name : String) : Bool := (b.get? name).isSome

def put (name : String) (value : α) : List (String × α) → List (String × α)
  | [] => [(name, value)]
  | (k, v) :: rest => if k == name then (k, value) :: rest else (k, v) :: put name value rest

theorem names_put (name : String) (value : α) (es : List (String × α)) :
    (put name value es).map (·.1) =
      if name ∈ es.map (·.1) then es.map (·.1) else es.map (·.1) ++ [name] := by
  induction es with
  | nil => simp [put]
  | cons e rest ih =>
    obtain ⟨k, v⟩ := e
    by_cases hk : k = name
    · simp [put, hk]
    · have hk' : ¬ name = k := fun h => hk h.symm
      simp only [put, beq_iff_eq, hk, if_false, List.map_cons, ih, List.mem_cons, hk', false_or]
      split <;> rfl

theorem distinct_put (name : String) (value : α) {es : List (String × α)}
    (h : (es.map (·.1)).Nodup) : ((put name value es).map (·.1)).Nodup := by
  rw [names_put]
  split
  · exact h
  · rename_i hname
    refine List.nodup_append.2 ⟨h, by simp, ?_⟩
    intro a ha b hb hab
    simp only [List.mem_singleton] at hb
    exact hname (hb ▸ hab ▸ ha)

def insert (b : Bindings α) (name : String) (value : α) : Bindings α :=
  ⟨put name value b.entries, distinct_put name value b.distinct⟩

def filter (p : String × α → Bool) (b : Bindings α) : Bindings α :=
  ⟨b.entries.filter p, List.Nodup.sublist (List.filter_sublist.map _) b.distinct⟩

def erase (b : Bindings α) (name : String) : Bindings α := b.filter fun e => e.1 != name

def keys (b : Bindings α) : List String := b.entries.map (·.1)

def values (b : Bindings α) : List α := b.entries.map (·.2)

def insertAll (b : Bindings α) (es : List (String × α)) : Bindings α :=
  es.foldl (fun b e => b.insert e.1 e.2) b

def ofList (es : List (String × α)) : Bindings α := empty.insertAll es

def map (f : α → β) (b : Bindings α) : Bindings β :=
  ⟨b.entries.map fun e => (e.1, f e.2), by simpa [Function.comp_def] using b.distinct⟩

def isEmpty (b : Bindings α) : Bool := b.entries.isEmpty

end Bindings
end StoryMarkup
