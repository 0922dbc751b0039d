import StoryMarkup.Document.Html
import StoryMarkup.Proofs.Descent
import StoryMarkup.Proofs.Document.Links

/-! Loops in a document. Only putting a node under one that lies below it makes a loop. -/
namespace StoryMarkup.Document

open List

open Relation (TransGen ReflTransGen)

def Below (d : Document) : Nat → Nat → Prop := TransGen fun c p => d.parent? c = some p

inductive Ends (d : Document) : Nat → Prop
  | top {id : Nat} (h : d.parent? id = none) : Ends d id
  | up {id p : Nat} (h : d.parent? id = some p) (hp : Ends d p) : Ends d id

def Acyclic (d : Document) : Prop := ∀ id, d.Ends id

/-- The operation puts a node under one that lies below it. -/
def Operation.MakesLoop (d : Document) : Operation → Prop
  | .append parent child => d.Below parent child
  | .prepend parent child => d.Below parent child
  | .replace old new => ∃ parent, d.parent? old = some parent ∧ d.Below parent new
  | _ => False

/-- The walks through a document come to an end: what is above and below each node is finite, and no
answer changes when a walk may go on for longer. -/
structure WalksEnd (d : Document) : Prop where
  above : ∀ id, d.Ends id
  below : ∀ id, Acc (fun c p => c ∈ d.children p) id
  isAttached : ∀ id steps, d.nodes.size ≤ steps → d.reachesRoot steps id = d.isAttached id
  html : ∀ id levels, d.nodes.size < levels → d.htmlWithin levels id = d.html id
  textContent : ∀ id levels, d.nodes.size < levels → d.textWithin levels id = d.textContent id
  query : ∀ selector levels, d.nodes.size < levels →
    (d.children root).flatMap (d.queryWithin (.ofText selector) levels) = d.query selector

variable {d e : Document} {x levels : Nat}

lemma Ends.not_below_self {id : Nat} (h : d.Ends id) : ¬ d.Below id id := by
  induction h with
  | top htop =>
    intro hb
    obtain ⟨p, hp, -⟩ := TransGen.head'_iff.1 hb
    simp [htop] at hp
  | @up id p hup _ ih =>
    intro hb
    obtain ⟨q, hq, hrest⟩ := TransGen.head'_iff.1 hb
    obtain rfl : p = q := by simpa [hup] using hq
    exact ih (TransGen.tail' hrest hup)

lemma Acyclic.of_fewer (h : d.Acyclic) (hfewer : ∀ x p, e.parent? x = some p → d.parent? x = some p) : e.Acyclic := by
  intro id
  induction h id with
  | @top id htop =>
    cases hp : e.parent? id with
    | none => exact .top hp
    | some p => simp [hfewer id p hp] at htop
  | @up id q hup _ ih =>
    cases hp : e.parent? id with
    | none => exact .top hp
    | some p =>
      obtain rfl : q = p := by simpa [hup] using hfewer id p hp
      exact .up hp ih

section Moved

/-! One node is given a new parent. -/

variable {parent child : Nat} (hmoved : ∀ x, e.parent? x = if child = x then some parent else d.parent? x)
include hmoved

lemma Ends.of_not_below (h : d.Ends x) (hne : x ≠ child) (hx : ¬ d.Below x child) : e.Ends x := by
  induction h with
  | @top x htop => exact .top (by rw [hmoved, if_neg (Ne.symm hne), htop])
  | @up x p hup _ ih =>
    have hp : e.parent? x = some p := by rw [hmoved, if_neg (Ne.symm hne), hup]
    refine .up hp (ih ?_ ?_)
    · rintro rfl
      exact hx (.single hup)
    · intro hb
      exact hx (.head hup hb)

lemma Acyclic.moved (h : d.Acyclic) (hne : parent ≠ child) (hnot : ¬ d.Below parent child) : e.Acyclic := by
  have hparent : e.Ends parent := (h parent).of_not_below hmoved hne hnot
  intro x
  induction h x with
  | @top x htop =>
    by_cases hx : child = x
    · exact .up (by rw [hmoved, if_pos hx]) hparent
    · exact .top (by rw [hmoved, if_neg hx, htop])
  | @up x p hup _ ih =>
    by_cases hx : child = x
    · exact .up (by rw [hmoved, if_pos hx]) hparent
    · exact .up (by rw [hmoved, if_neg hx, hup]) ih

lemma Below.moved (hb : d.Below x child) (hne : x ≠ child) : e.Below x child := by
  induction hb using TransGen.head_induction_on with
  | @single x hx => exact .single (by rw [hmoved, if_neg (Ne.symm hne), hx])
  | @head x y hx _ ih =>
    have hy : e.parent? x = some y := by rw [hmoved, if_neg (Ne.symm hne), hx]
    by_cases hyc : y = child
    · exact .single (hyc ▸ hy)
    · exact .head hy (ih hyc)

lemma acyclic_moved_iff (h : d.Acyclic) (hne : parent ≠ child) : e.Acyclic ↔ ¬ d.Below parent child := by
  constructor
  · intro he hb
    have hstep : e.parent? child = some parent := by rw [hmoved, if_pos rfl]
    exact (he child).not_below_self (.head hstep (hb.moved hmoved hne))
  · exact h.moved hmoved hne

end Moved

lemma Linked.lt_size_of_below (h : d.Linked) {a : Nat} (hb : d.Below x a) : x < d.nodes.size ∧ a < d.nodes.size := by
  constructor
  · obtain ⟨p, hp, -⟩ := TransGen.head'_iff.1 hb
    exact lt_size_of_parent? hp
  · obtain ⟨p, -, hp⟩ := TransGen.tail'_iff.1 hb
    exact h.parent_lt_size hp

lemma Linked.acyclic_insert_iff (h : d.Linked) (ha : d.Acyclic) (parent child : Nat)
    (place : Option Nat) : (d.insert parent child place).Acyclic ↔ ¬ d.Below parent child := by
  by_cases hmoves : parent < d.nodes.size ∧ child < d.nodes.size ∧ parent ≠ child
  · exact acyclic_moved_iff (parent?_insert hmoves place) ha hmoves.2.2
  · rw [insert_eq_self hmoves]
    refine ⟨fun _ hb => ?_, fun _ => ha⟩
    have hsize := h.lt_size_of_below hb
    refine hmoves ⟨hsize.1, hsize.2, ?_⟩
    rintro rfl
    exact (ha parent).not_below_self hb

lemma acyclic_detach (ha : d.Acyclic) (c : Nat) : (d.detach c).Acyclic := by
  refine ha.of_fewer fun x p hp => ?_
  rw [parent?_detach] at hp
  split at hp
  · cases hp
  · exact hp

lemma below_detach_detach_iff (ha : d.Acyclic) {old new parent : Nat}
    (hold : d.parent? old = some parent) :
    ((d.detach new).detach old).Below parent new ↔ d.Below parent new := by
  have hlinks : ∀ x, ((d.detach new).detach old).parent? x =
      if old = x then none else if new = x then none else d.parent? x := by
    intro x
    rw [parent?_detach, parent?_detach]
  constructor
  · refine fun hb => TransGen.mono (fun x p hp => ?_) _ _ hb
    rw [hlinks] at hp
    split at hp
    · cases hp
    · split at hp
      · cases hp
      · exact hp
  · intro hb
    -- A node on the way is neither of the two: each would lie below itself.
    suffices hway : ∀ x, d.Below x new → ReflTransGen (fun c p => d.parent? c = some p) parent x →
        ((d.detach new).detach old).Below x new from hway parent hb .refl
    have hkept : ∀ x, d.Below x new → ReflTransGen (fun c p => d.parent? c = some p) parent x →
        ((d.detach new).detach old).parent? x = d.parent? x := by
      intro x hx hreach
      have hxold : old ≠ x := by
        rintro rfl
        exact (ha old).not_below_self (.head' hold hreach)
      have hxnew : new ≠ x := by
        rintro rfl
        exact (ha new).not_below_self hx
      rw [hlinks, if_neg hxold, if_neg hxnew]
    intro x hx
    induction hx using TransGen.head_induction_on with
    | @single x hstep =>
      intro hreach
      exact .single ((hkept x (.single hstep) hreach).trans hstep)
    | @head x y hstep hrest ih =>
      intro hreach
      exact .head ((hkept x (.head hstep hrest) hreach).trans hstep) (ih (hreach.tail hstep))

lemma Linked.acyclic_replace_iff (h : d.Linked) (ha : d.Acyclic) (old new : Nat) :
    (d.replace old new).Acyclic ↔ ¬ ∃ parent, d.parent? old = some parent ∧ d.Below parent new := by
  cases hold : d.parent? old with
  | none =>
    simp only [replace, hold]
    simpa using ha
  | some parent =>
    simp only [replace, hold]
    rw [((h.detach new).detach old).acyclic_insert_iff (acyclic_detach (acyclic_detach ha new) old),
      below_detach_detach_iff ha hold]
    simp

lemma Linked.acyclic_perform_iff (h : d.Linked) (ha : d.Acyclic) (op : Operation) :
    (d.perform op).Acyclic ↔ ¬ op.MakesLoop d := by
  have hsame : ∀ e : Document, (∀ x, e.parent? x = d.parent? x) → (e.Acyclic ↔ ¬ False) := fun e he =>
    ⟨fun _ => not_false, fun _ => ha.of_fewer fun x p hp => he x ▸ hp⟩
  cases op with
  | createText s | createElement tag => exact hsame _ (parent?_create d _)
  | append parent child => exact h.acyclic_insert_iff ha parent child none
  | prepend parent child => exact h.acyclic_insert_iff ha parent child (some 0)
  | replace old new => exact h.acyclic_replace_iff ha old new
  | clear id =>
    refine ⟨fun _ => not_false, fun _ => ha.of_fewer fun x p hp => ?_⟩
    have hp : (d.clear id).parent? x = some p := hp
    rw [parent?_clear] at hp
    split at hp
    · cases hp
    · exact hp
  | setAttribute id name value => exact hsame _ fun x => parent?_modifyNode d id x fun _ => rfl
  | subscribe id event callback => exact hsame _ fun x => parent?_modifyNode d id x fun _ => rfl

lemma acyclic_empty : ({} : Document).Acyclic := by
  intro id
  apply Ends.top
  cases hp : ({} : Document).parent? id with
  | none => rfl
  | some p =>
    have hid : id = 0 := by
      have := lt_size_of_parent? hp
      simp at this
      exact this
    subst hid
    cases hp

/-! The ways through a document without loops are no longer than it has nodes. -/

section Finite

variable (h : d.Linked) (ha : d.Acyclic)
include h ha

lemma Linked.loopFree (id : Nat) : LoopFree (fun p c => c ∈ d.children p) id := by
  intro a _ hloop
  have hdown : TransGen (fun p c => d.parent? c = some p) a a :=
    TransGen.mono (fun p c hc => (h.mem_children_iff p c).1 hc) _ _ hloop
  exact (ha a).not_below_self hdown.swap

omit ha in
lemma Linked.mem_range_of_mem_children {p c : Nat} (hc : c ∈ d.children p) : p ∈ Finset.range d.nodes.size :=
  Finset.mem_range.2 (h.parent_lt_size ((h.mem_children_iff p c).1 hc))

omit h in
lemma Acyclic.exists_depth :
    ∃ depth : Nat → Nat, (∀ c p, d.parent? c = some p → depth p < depth c) ∧ ∀ c, depth c ≤ d.nodes.size := by
  have hplaces : ∀ c p, d.parent? c = some p → c ∈ Finset.range d.nodes.size := fun c p hp =>
    Finset.mem_range.2 (lt_size_of_parent? hp)
  obtain ⟨depth, hlower, hle⟩ := exists_rank hplaces
  exact ⟨depth, fun c p hp => hlower c p hp (ha c).not_below_self, fun c => (hle c).trans_eq (Finset.card_range _)⟩

/-- A walk down a document that looks at nothing but a node and what it found at the children comes
to the same answer whenever it may go deep enough. -/
theorem Linked.walk_eq {β : Type} {walk : Nat → Nat → β}
    (hlocal : ∀ k m id, (d.children id).map (walk k) = (d.children id).map (walk m) → walk (k + 1) id = walk (m + 1) id)
    {k m : Nat} (hk : d.nodes.size < k) (hm : d.nodes.size < m) (id : Nat) : walk k id = walk m id := by
  rw [← Finset.card_range d.nodes.size] at hk hm
  exact (h.loopFree ha id).walk_eq (fun _ _ => h.mem_range_of_mem_children)
    (fun k m id _ hc => hlocal k m id (map_congr_left hc)) hk hm

omit h in
lemma Acyclic.reachesRoot_eq {k m : Nat} (hk : d.nodes.size ≤ k) (hm : d.nodes.size ≤ m)
    (id : Nat) : d.reachesRoot k id = d.reachesRoot m id := by
  obtain ⟨depth, hlower, hle⟩ := ha.exists_depth
  suffices hwalk : ∀ k m id, depth id ≤ k → depth id ≤ m → d.reachesRoot k id =
    d.reachesRoot m id from hwalk k m id ((hle id).trans hk) ((hle id).trans hm)
  intro k
  induction k with
  | zero =>
    intro m id hk hm
    have htop : d.parent? id = none := by
      cases hp : d.parent? id with
      | none => rfl
      | some p =>
        have := hlower id p hp
        omega
    cases m with
    | zero => rfl
    | succ m => simp [reachesRoot, htop]
  | succ k ih =>
    intro m id hk hm
    cases hp : d.parent? id with
    | none => cases m <;> simp [reachesRoot, hp]
    | some p =>
      have hlt := hlower id p hp
      obtain _ | m := m
      · omega
      simp [reachesRoot, hp, ih m p (by omega) (by omega)]

lemma Linked.walksEnd : d.WalksEnd where
  above := ha
  below id := (h.loopFree ha id).acc fun _ _ => h.mem_range_of_mem_children
  isAttached id _ hsteps := ha.reachesRoot_eq hsteps le_rfl id
  html id _ hlevels := by
    refine h.walk_eq ha (fun k m id hc => ?_) hlevels (Nat.lt_succ_self _) id
    cases hn : d.node? id with
    | none => simp only [htmlWithin, hn]
    | some n =>
      rw [children_of_node? hn] at hc
      simp [htmlWithin, hn, hc]
  textContent id _ hlevels := by
    refine h.walk_eq ha (fun k m id hc => ?_) hlevels (Nat.lt_succ_self _) id
    cases hn : d.node? id with
    | none => simp only [textWithin, hn]
    | some n =>
      rw [children_of_node? hn] at hc
      simp [textWithin, hn, hc]
  query selector _ hlevels := by
    refine congrArg (d.children root).flatMap (funext (h.walk_eq ha (fun k m id hc => ?_) hlevels (Nat.lt_succ_self _)))
    cases hn : d.node? id with
    | none => simp only [queryWithin, hn]
    | some n =>
      rw [children_of_node? hn] at hc
      simp [queryWithin, hn, flatMap_def, hc]

end Finite

/-- A document is without loops all along some operations exactly when none of them puts a node
under one that lies below it, and then every walk through it comes to an end. -/
theorem built_acyclic_iff (ops : List Operation) :
    ((∀ done, done <+: ops → (built done).Acyclic) ↔
      ∀ done op, done ++ [op] <+: ops → ¬ op.MakesLoop (built done)) ∧
    ((built ops).Acyclic → (built ops).WalksEnd) := by
  have hstep : ∀ done op, built (done ++ [op]) = (built done).perform op := fun done op => by
    rw [built, foldl_append]
    rfl
  refine ⟨⟨fun hall done op hdone => ?_, fun hno => ?_⟩, (linked_built ops).walksEnd⟩
  · have hbefore := hall done ((prefix_append _ _).trans hdone)
    have hafter := hall _ hdone
    rw [hstep] at hafter
    exact ((linked_built done).acyclic_perform_iff hbefore op).1 hafter
  · intro done
    induction done using reverseRecOn with
    | nil => exact fun _ => acyclic_empty
    | append_singleton done op ih =>
      intro hdone
      have hbefore := ih ((prefix_append _ _).trans hdone)
      rw [hstep]
      exact ((linked_built done).acyclic_perform_iff hbefore op).2 (hno done op hdone)

theorem append_under_root_walks_end : (built [.createElement "a", .append 0 1]).WalksEnd := by
  have hroot : ∀ x, ¬ (built [.createElement "a"]).Below 0 x := by
    intro x hb
    obtain ⟨p, hp, -⟩ := TransGen.head'_iff.1 hb
    cases hp
  have hno : ∀ (done : List Operation) (op : Operation), done ++
      [op] <+: [.createElement "a", .append 0 1] → ¬ op.MakesLoop (built done) := by
    rintro (_ | ⟨first, _ | ⟨second, _⟩⟩) op ⟨rest, hrest⟩
    · simp only [nil_append, cons_append, cons.injEq] at hrest
      obtain ⟨rfl, -⟩ := hrest
      exact not_false
    · simp only [nil_append, cons_append, cons.injEq] at hrest
      obtain ⟨rfl, rfl, -⟩ := hrest
      exact hroot 1
    · simp at hrest
  exact (built_acyclic_iff _).2 ((built_acyclic_iff _).1.2 hno _ prefix_rfl)

/-- Two elements, each put under the other: going up from either goes on for ever. -/
theorem mutual_append_not_acyclic :
    ¬ (built [.createElement "a", .createElement "b", .append 1 2, .append 2 1]).Acyclic := by
  intro hacyclic
  have hup : (built [.createElement "a", .createElement "b", .append 1 2, .append 2 1]).parent? 1 = some 2 := by
    rfl
  have hdown : (built [.createElement "a", .createElement "b", .append 1 2, .append 2 1]).parent? 2 = some 1 := by
    rfl
  exact (hacyclic 1).not_below_self (.tail (.single hup) hdown)

end StoryMarkup.Document
