import Mathlib.Tactic.Lemma
import StoryMarkup.Document.Basic

/-! A node stands among the children of another exactly when that is its parent, and it stands there
once. -/
namespace StoryMarkup.Document

open List

variable {c p parent child : Nat}

inductive Operation where
  | createText (s : String)
  | createElement (tag : String)
  | append (parent child : Nat)
  | prepend (parent child : Nat)
  | replace (old new : Nat)
  | clear (id : Nat)
  | setAttribute (id : Nat) (name value : String)
  | subscribe (id : Nat) (event : String) (callback : Nat)
deriving DecidableEq, Repr

def perform (d : Document) : Operation → Document
  | .createText s => (d.createText s).2
  | .createElement tag => (d.createElement tag).2
  | .append parent child => d.append parent child
  | .prepend parent child => d.prepend parent child
  | .replace old new => d.replace old new
  | .clear id => d.clear id
  | .setAttribute id name value => d.setAttribute id name value
  | .subscribe id event callback => d.subscribe id event callback

def built (ops : List Operation) : Document := ops.foldl perform {}

structure Linked (d : Document) : Prop where
  mem_children_iff : ∀ p c, c ∈ d.children p ↔ d.parent? c = some p
  nodup_children : ∀ p, (d.children p).Nodup

/-! What the operations do to parents and children. -/
section Views

variable (d : Document)

lemma children_eq_elim (x : Nat) : d.children x = (d.node? x).elim [] fun n => n.children.toList := by
  simp only [children]
  cases d.node? x <;> rfl

lemma node?_modifyNode (i x : Nat) (f : Node → Node) :
    (d.modifyNode i f).node? x = if i = x then (d.node? x).map f else d.node? x := by
  simp [node?, modifyNode, Array.getElem?_modify]

lemma size_modifyNode (i : Nat) (f : Node → Node) : (d.modifyNode i f).nodes.size = d.nodes.size :=
  Array.size_modify

lemma isSome_node?_iff (x : Nat) : (d.node? x).isSome ↔ x < d.nodes.size := by
  simp [node?]

lemma parent?_modifyNode (i x : Nat) {f : Node → Node} (h : ∀ n, (f n).parent = n.parent) :
    (d.modifyNode i f).parent? x = d.parent? x := by
  simp only [parent?, node?_modifyNode]
  split
  · cases d.node? x <;> simp [h]
  · rfl

lemma children_modifyNode (i x : Nat) {f : Node → Node} (h : ∀ n, (f n).children = n.children) :
    (d.modifyNode i f).children x = d.children x := by
  simp only [children_eq_elim, node?_modifyNode]
  split
  · cases d.node? x <;> simp [h]
  · rfl

lemma parent?_withoutParent (i x : Nat) :
    (d.modifyNode i fun n => { n with parent := none }).parent? x = if i = x then none else d.parent? x := by
  simp only [parent?, node?_modifyNode]
  split
  · cases d.node? x <;> rfl
  · rfl

lemma parent?_withParent {i : Nat} (hi : i < d.nodes.size) (p x : Nat) :
    (d.modifyNode i fun n => { n with parent := some p }).parent? x = if i = x then some p else d.parent? x := by
  simp only [parent?, node?_modifyNode]
  split
  · rename_i hx
    obtain ⟨n, hn⟩ := Option.isSome_iff_exists.1 ((isSome_node?_iff d x).2 (hx ▸ hi))
    simp [hn]
  · rfl

lemma children_withChildren {i : Nat} (hi : i < d.nodes.size) (g : Array Nat → Array Nat) (x : Nat) :
    (d.modifyNode i fun n => { n with children := g n.children }).children x =
      if i = x then (g (d.children x).toArray).toList else d.children x := by
  simp only [children_eq_elim, node?_modifyNode]
  split
  · rename_i hx
    obtain ⟨n, hn⟩ := Option.isSome_iff_exists.1 ((isSome_node?_iff d x).2 (hx ▸ hi))
    simp [hn]
  · rfl

lemma node?_size : d.node? d.nodes.size = none := by
  simp [node?]

lemma node?_create (kind : Kind) (x : Nat) :
    (d.create kind).2.node? x = if x = d.nodes.size then some { kind } else d.node? x := by
  simp [node?, create, Array.getElem?_push]

lemma parent?_create (kind : Kind) (x : Nat) : (d.create kind).2.parent? x = d.parent? x := by
  simp only [parent?, node?_create]
  split
  · rename_i hx
    rw [hx, node?_size]
    rfl
  · rfl

lemma children_create (kind : Kind) (x : Nat) : (d.create kind).2.children x = d.children x := by
  simp only [children_eq_elim, node?_create]
  split
  · rename_i hx
    rw [hx, node?_size]
    rfl
  · rfl

lemma parent?_detach (c x : Nat) : (d.detach c).parent? x = if c = x then none else d.parent? x := by
  cases hc : d.parent? c with
  | none =>
    simp only [detach, hc]
    split
    · rename_i hx
      exact hx ▸ hc
    · rfl
  | some p =>
    simp only [detach, hc]
    rw [parent?_withoutParent, parent?_modifyNode]
    exact fun _ => rfl

lemma size_detach (c : Nat) : (d.detach c).nodes.size = d.nodes.size := by
  unfold detach
  split
  · rfl
  · simp [size_modifyNode]

lemma parent?_orphaned (cs : List Nat) (x : Nat) :
    (cs.foldl (fun d c => d.modifyNode c fun n => { n with parent := none }) d).parent? x =
      if x ∈ cs then none else d.parent? x := by
  induction cs generalizing d with
  | nil => simp
  | cons c cs ih =>
    rw [foldl_cons, ih, parent?_withoutParent]
    by_cases hx : x ∈ cs
    · simp [hx]
    · simp [hx, eq_comm]

lemma children_orphaned (cs : List Nat) (x : Nat) :
    (cs.foldl (fun d c => d.modifyNode c fun n => { n with parent := none }) d).children x = d.children x := by
  induction cs generalizing d with
  | nil => rfl
  | cons c cs ih =>
    rw [foldl_cons, ih, children_modifyNode]
    exact fun _ => rfl

lemma parent?_clear (id x : Nat) : (d.clear id).parent? x = if x ∈ d.children id then none else d.parent? x := by
  rw [clear, parent?_orphaned, parent?_modifyNode]
  exact fun _ => rfl

lemma children_clear (id x : Nat) : (d.clear id).children x = if id = x then [] else d.children x := by
  rw [clear, children_orphaned]
  simp only [children_eq_elim, node?_modifyNode]
  split
  · cases d.node? x <;> rfl
  · rfl

variable {d}

lemma children_of_node? {id : Nat} {n : Node} (hn : d.node? id = some n) : d.children id = n.children.toList := by
  rw [children_eq_elim, hn]
  rfl

lemma lt_size_of_parent? (h : d.parent? c = some p) : c < d.nodes.size := by
  obtain ⟨n, hn, -⟩ := Option.bind_eq_some_iff.1 h
  exact (isSome_node?_iff d c).1 (Option.isSome_of_mem hn)

lemma lt_size_of_mem_children (h : c ∈ d.children p) : p < d.nodes.size := by
  rw [← isSome_node?_iff]
  rw [children_eq_elim] at h
  cases hn : d.node? p with
  | none => simp [hn] at h
  | some n => rfl

lemma insert_eq_self (h : ¬ (parent < d.nodes.size ∧ child < d.nodes.size ∧ parent ≠ child)) (place : Option Nat) :
    d.insert parent child place = d := by
  have hguard : (decide (parent ≥ d.nodes.size) || decide (child ≥ d.nodes.size) || parent == child) = true := by
    simp only [Bool.or_eq_true, decide_eq_true_eq, beq_iff_eq]
    omega
  simp [insert, hguard]

def placed (child : Nat) (place : Option Nat) (children : Array Nat) : Array Nat :=
  match place with
  | some i => children.insertIdxIfInBounds (min i children.size) child
  | none => children.push child

lemma perm_placed (child : Nat) (place : Option Nat) (children : List Nat) :
    (placed child place children.toArray).toList.Perm (child :: children) := by
  cases place with
  | none => simp [placed]
  | some i =>
    simp only [placed, insertIdxIfInBounds_toArray, size_toArray]
    exact perm_insertIdx child children (Nat.min_le_right _ _)

lemma insert_eq (h : parent < d.nodes.size ∧ child < d.nodes.size ∧ parent ≠ child) (place : Option Nat) :
    d.insert parent child place =
      ((d.detach child).modifyNode parent fun n => { n with children := placed child place n.children }).modifyNode
        child fun n => { n with parent := some parent } := by
  have hguard : (decide (parent ≥ d.nodes.size) || decide (child ≥ d.nodes.size) || parent == child) = false := by
    simp only [Bool.or_eq_false_iff, decide_eq_false_iff_not, beq_eq_false_iff_ne]
    omega
  simp only [insert, hguard, Bool.false_eq_true, if_false]
  rfl

lemma parent?_insert (h : parent < d.nodes.size ∧ child < d.nodes.size ∧ parent ≠ child) (place : Option Nat)
    (x : Nat) : (d.insert parent child place).parent? x = if child = x then some parent else d.parent? x := by
  rw [insert_eq h, parent?_withParent, parent?_modifyNode, parent?_detach]
  · split <;> rfl
  · exact fun _ => rfl
  · rw [size_modifyNode, size_detach]
    exact h.2.1

lemma children_insert (h : parent < d.nodes.size ∧ child < d.nodes.size ∧ parent ≠ child) (place : Option Nat)
    (x : Nat) :
    (d.insert parent child place).children x =
      if parent = x then (placed child place ((d.detach child).children x).toArray).toList
      else (d.detach child).children x := by
  rw [insert_eq h, children_modifyNode, children_withChildren]
  · rw [size_detach]
    exact h.1
  · exact fun _ => rfl

end Views

namespace Linked

variable {d : Document}

lemma empty : ({} : Document).Linked := by
  have hnode : ∀ x n, ({} : Document).node? x = some n → n = { kind := .element "main" } := by
    intro x n hn
    obtain ⟨hx, rfl⟩ := Array.getElem?_eq_some_iff.1 hn
    simp
  have hparent : ∀ x, ({} : Document).parent? x = none := by
    intro x
    rw [parent?, Option.bind_eq_none_iff]
    intro n hn
    rw [hnode x n hn]
  have hchildren : ∀ x, ({} : Document).children x = [] := by
    intro x
    rw [children_eq_elim]
    cases hn : ({} : Document).node? x with
    | none => rfl
    | some n => rw [hnode x n hn]; rfl
  exact ⟨fun p c => by simp [hparent, hchildren], fun p => by simp [hchildren]⟩

lemma congr {e : Document} (h : d.Linked) (hparent : ∀ x, e.parent? x = d.parent? x)
    (hchildren : ∀ x, e.children x = d.children x) : e.Linked :=
  ⟨fun p c => by rw [hparent, hchildren]; exact h.mem_children_iff p c,
    fun p => by rw [hchildren]; exact h.nodup_children p⟩

variable (h : d.Linked)
include h

lemma mem_children (hp : d.parent? c = some p) : c ∈ d.children p := (h.mem_children_iff p c).2 hp

lemma parent_lt_size (hp : d.parent? c = some p) : p < d.nodes.size :=
  lt_size_of_mem_children (h.mem_children hp)

lemma children_detach (c x : Nat) : (d.detach c).children x = (d.children x).filter (· != c) := by
  have hother : d.parent? c ≠ some x → (d.children x).filter (· != c) = d.children x := by
    intro hne
    apply filter_eq_self.2
    intro y hy
    rw [bne_iff_ne]
    rintro rfl
    exact hne ((h.mem_children_iff x y).1 hy)
  cases hc : d.parent? c with
  | none => rw [hother (by simp [hc]), detach, hc]
  | some p =>
    simp only [detach, hc]
    rw [children_modifyNode, children_withChildren d (h.parent_lt_size hc) fun cs => cs.filter (· != c)]
    · split
      · simp
      · rename_i hx
        rw [hother (by simp [hc, hx])]
    · exact fun _ => rfl

protected lemma detach (c : Nat) : (d.detach c).Linked where
  mem_children_iff p x := by
    rw [h.children_detach, parent?_detach, mem_filter, h.mem_children_iff]
    by_cases hx : c = x
    · simp [hx]
    · simp [hx, Ne.symm hx]
  nodup_children p := by
    rw [h.children_detach]
    exact (h.nodup_children p).filter _

protected lemma insert (parent child : Nat) (place : Option Nat) : (d.insert parent child place).Linked := by
  by_cases hmoves : parent < d.nodes.size ∧ child < d.nodes.size ∧ parent ≠ child
  · have hd := h.detach child
    have hnot : ∀ x, child ∉ (d.detach child).children x := by
      intro x
      rw [h.children_detach]
      simp
    constructor
    · intro p x
      rw [children_insert hmoves, parent?_insert hmoves]
      have hold : x ∈ (d.detach child).children p ↔ child ≠ x ∧ d.parent? x = some p := by
        rw [hd.mem_children_iff, parent?_detach]
        by_cases hx : child = x <;> simp [hx]
      by_cases hp : parent = p
      · rw [if_pos hp, (perm_placed child place _).mem_iff, mem_cons, hold]
        by_cases hx : child = x
        · simp [hx, hp]
        · simp [hx, Ne.symm hx]
      · rw [if_neg hp, hold]
        by_cases hx : child = x
        · simp [hx, hp]
        · simp [hx]
    · intro p
      rw [children_insert hmoves]
      split
      · rw [(perm_placed child place _).nodup_iff]
        exact nodup_cons.2 ⟨hnot p, hd.nodup_children p⟩
      · exact hd.nodup_children p
  · rw [insert_eq_self hmoves]
    exact h

protected lemma replace (old new : Nat) : (d.replace old new).Linked := by
  unfold replace
  split
  · exact h
  · exact ((h.detach new).detach old).insert _ _ _

protected lemma clear (id : Nat) : (d.clear id).Linked where
  mem_children_iff p x := by
    rw [children_clear, parent?_clear]
    simp only [h.mem_children_iff]
    by_cases hp : id = p
    · by_cases hx : d.parent? x = some p <;> simp [hp, hx]
    · by_cases hx : d.parent? x = some id
      · simp [hp, hx, h.mem_children_iff]
      · simp [hp, hx, h.mem_children_iff]
  nodup_children p := by
    rw [children_clear]
    split
    · exact nodup_nil
    · exact h.nodup_children p

lemma perform (op : Operation) : (d.perform op).Linked := by
  cases op with
  | createText s | createElement tag => exact h.congr (parent?_create d _) (children_create d _)
  | append parent child => exact h.insert parent child none
  | prepend parent child => exact h.insert parent child (some 0)
  | replace old new => exact h.replace old new
  | clear id => exact h.clear id
  | setAttribute id name value | subscribe id event callback =>
    exact h.congr (fun x => parent?_modifyNode d id x fun _ => rfl) fun x => children_modifyNode d id x fun _ => rfl

lemma foldl_perform (ops : List Operation) : (ops.foldl Document.perform d).Linked := by
  induction ops generalizing d with
  | nil => exact h
  | cons op ops ih => exact ih (h.perform op)

end Linked

lemma linked_built (ops : List Operation) : (built ops).Linked := Linked.empty.foldl_perform ops

/-- Whatever is done to an empty document, a node is among the children of another exactly when that
other is its parent, and nowhere twice. -/
theorem built_links_agree (ops : List Operation) :
    (∀ p c, c ∈ (built ops).children p ↔ (built ops).parent? c = some p) ∧ ∀ p, ((built ops).children p).Nodup :=
  ⟨(linked_built ops).mem_children_iff, (linked_built ops).nodup_children⟩

/-! A node in place of another. -/

lemma placed_idxOf? {l : List Nat} {old new : Nat} (hnodup : l.Nodup) (hmem : old ∈ l) :
    (placed new (l.idxOf? old) (l.filter (· != old)).toArray).toList = l.map fun c => if c = old then new else c := by
  obtain ⟨before, after, rfl⟩ := append_of_mem hmem
  obtain ⟨-, hafter, hdisjoint⟩ := nodup_append.1 hnodup
  have hnot : ∀ c ∈ before ++ after, c ≠ old := by
    intro c hc
    rcases mem_append.1 hc with hc | hc
    · exact hdisjoint c hc old mem_cons_self
    · exact fun h => (nodup_cons.1 hafter).1 (h ▸ hc)
  have hfilter : (before ++ old :: after).filter (· != old) = before ++ after := by
    rw [filter_append, filter_cons_of_neg (by simp), ← filter_append]
    exact filter_eq_self.2 fun c hc => bne_iff_ne.2 (hnot c hc)
  have hindex : (before ++ old :: after).idxOf? old = some before.length := by
    rw [idxOf?_eq_some_iff]
    refine ⟨by simp, by simp, fun j hj => ?_⟩
    rw [getElem_append_left hj]
    exact hnot _ (mem_append_left _ (getElem_mem hj))
  have hmap (part : List Nat) (hpart : ∀ c ∈ part, c ∈ before ++ after) :
      part.map (fun c => if c = old then new else c) = part :=
    (map_congr_left fun c hc => if_neg (hnot c (hpart c hc))).trans (map_id part)
  rw [hfilter, hindex, map_append, map_cons, if_pos rfl, hmap before fun _ => mem_append_left _,
    hmap after fun _ => mem_append_right _]
  simp only [placed, insertIdxIfInBounds_toArray, size_toArray, length_append, Nat.le_add_right,
    Nat.min_eq_left]
  clear hnodup hmem hdisjoint hnot hfilter hindex hmap
  induction before with
  | nil => rfl
  | cons c before ih => exact congrArg (c :: ·) ih

/-- A node that is put in place of another leaves where it was and stands where the other stood,
which is left without a parent. -/
theorem replace_keeps_place {d : Document} (h : d.Linked) {p : Nat} (old new : Nat) (hold : d.parent? old = some p)
    (hnew : new < d.nodes.size) (hne : new ≠ old) (hparent : new ≠ p) :
    (d.replace old new).children p = ((d.children p).erase new).map (fun c => if c = old then new else c) ∧
    (d.replace old new).parent? old = none ∧
    ∀ x, x ≠ p → (d.replace old new).children x =
      if d.parent? new = some x then (d.children x).erase new else d.children x := by
  have hn := h.detach new
  have herase (x : Nat) : (d.detach new).children x = (d.children x).erase new := by
    rw [h.children_detach, (h.nodup_children x).erase_eq_filter]
  have hparent? : (d.detach new).parent? old = some p := by rw [parent?_detach, if_neg hne, hold]
  have hmoves : p < ((d.detach new).detach old).nodes.size ∧ new < ((d.detach new).detach old).nodes.size ∧ p ≠ new := by
    rw [size_detach, size_detach]
    exact ⟨h.parent_lt_size hold, hnew, hparent.symm⟩
  have hagain (x : Nat) : (((d.detach new).detach old).detach new).children x = ((d.detach new).detach old).children x := by
    rw [(hn.detach old).children_detach, hn.children_detach]
    refine filter_eq_self.2 fun c hc => ?_
    rw [h.children_detach, mem_filter, mem_filter] at hc
    exact hc.1.2
  simp only [replace, hold]
  refine ⟨?_, ?_, fun x hx => ?_⟩
  · rw [children_insert hmoves, if_pos rfl, hagain, hn.children_detach, herase,
      placed_idxOf? ((h.nodup_children p).erase new) (herase p ▸ hn.mem_children hparent?)]
  · rw [parent?_insert hmoves, if_neg hne, parent?_detach, if_pos rfl]
  · have hnot : old ∉ (d.detach new).children x := fun hmem =>
      hx (Option.some.inj (((hn.mem_children_iff x old).1 hmem).symm.trans hparent?))
    rw [children_insert hmoves, if_neg hx.symm, hagain, hn.children_detach,
      filter_eq_self.2 fun c hc => bne_iff_ne.2 (ne_of_mem_of_not_mem hc hnot), herase]
    split
    · rfl
    · rename_i hformer
      exact erase_of_not_mem fun hmem => hformer ((h.mem_children_iff x new).1 hmem)

theorem last_replaces_first :
    let d := built [.createText "a", .createText "b", .createText "c", .append 0 1, .append 0 2, .append 0 3]
    (d.replace 1 3).children 0 = [3, 2] :=
  (replace_keeps_place (linked_built _) 1 3 (by decide) (by decide) (by decide) (by decide)).1.trans (by decide)

end StoryMarkup.Document
