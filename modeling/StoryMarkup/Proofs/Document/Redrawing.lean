import StoryMarkup.Proofs.Document.Links

/-! Drawing on a document forgets no node, keeps the links in agreement and leaves alone what
waits. -/
namespace StoryMarkup.Document

open List

/-! What listens to the events of a node. -/

def listeners (d : Document) (id : Nat) : List (String × Nat) := (d.node? id).elim [] (·.listeners)

section Listeners

variable (d : Document)

lemma listeners_empty (x : Nat) : ({} : Document).listeners x = [] := by
  rw [listeners]
  cases hnode : ({} : Document).node? x with
  | none => rfl
  | some n =>
    obtain ⟨hx, rfl⟩ := Array.getElem?_eq_some_iff.1 hnode
    simp

lemma listeners_modifyNode (i x : Nat) {f : Node → Node} (h : ∀ n, (f n).listeners = n.listeners) :
    (d.modifyNode i f).listeners x = d.listeners x := by
  simp only [listeners, node?_modifyNode]
  split
  · cases d.node? x <;> simp [h]
  · rfl

lemma listeners_create (kind : Kind) (x : Nat) : (d.create kind).2.listeners x = d.listeners x := by
  simp only [listeners, node?_create]
  split
  · rename_i hx
    rw [hx, node?_size]
    rfl
  · rfl

lemma mem_listeners_subscribe {i x callback number : Nat} {event event' : String}
    (h : (event', number) ∈ (d.subscribe i event callback).listeners x) :
    (event', number) ∈ d.listeners x ∨ number = callback := by
  simp only [listeners, subscribe, node?_modifyNode] at h ⊢
  split at h
  · cases hnode : d.node? x with
    | none =>
      rw [hnode] at h
      exact .inl h
    | some n =>
      rw [hnode] at h
      obtain hold | hnew := mem_append.1 h
      · exact .inl hold
      · cases mem_singleton.1 hnew
        exact .inr rfl
  · exact .inl h

lemma mem_listeners_of_listener? {d : Document} {id number : Nat} {event : String}
    (h : d.listener? id event = some number) : (event, number) ∈ d.listeners id := by
  obtain ⟨n, hn, hlookup⟩ := Option.bind_eq_some_iff.1 h
  rw [listeners, hn]
  obtain ⟨before, after, heq, -⟩ := lookup_eq_some_iff.1 hlookup
  simp [heq]

end Listeners

structure Redrawn (d e : Document) : Prop where
  size_le : d.nodes.size ≤ e.nodes.size
  linked : d.Linked → e.Linked
  listeners_eq : ∀ x, e.listeners x = d.listeners x
  timers : e.timers ⊆ d.timers

namespace Redrawn

variable {d e f : Document}

lemma refl (d : Document) : Redrawn d d := ⟨Nat.le_refl _, id, fun _ => rfl, fun _ => id⟩

lemma trans (h : Redrawn d e) (h' : Redrawn e f) : Redrawn d f where
  size_le := Nat.le_trans h.size_le h'.size_le
  linked := fun hd => h'.linked (h.linked hd)
  listeners_eq := fun x => (h'.listeners_eq x).trans (h.listeners_eq x)
  timers := fun _ ht => h.timers (h'.timers ht)

lemma create (d : Document) (kind : Kind) : Redrawn d (d.create kind).2 where
  size_le := by simp [Document.create]
  linked := fun hd => hd.congr (parent?_create d kind) (children_create d kind)
  listeners_eq := listeners_create d kind
  timers := fun _ => id

lemma setAttribute (d : Document) (node : Nat) (name value : String) : Redrawn d (d.setAttribute node name value) where
  size_le := Nat.le_of_eq (size_modifyNode d node _).symm
  linked := fun hd => hd.perform (.setAttribute node name value)
  listeners_eq := fun x => listeners_modifyNode d node x fun _ => rfl
  timers := fun _ => id

lemma removeAttribute (d : Document) (node : Nat) (name : String) : Redrawn d (d.removeAttribute node name) where
  size_le := Nat.le_of_eq (size_modifyNode d node _).symm
  linked := fun hd => hd.congr (fun x => parent?_modifyNode d node x fun _ => rfl) fun x =>
    children_modifyNode d node x fun _ => rfl
  listeners_eq := fun x => listeners_modifyNode d node x fun _ => rfl
  timers := fun _ => id

lemma detach (d : Document) (child : Nat) : Redrawn d (d.detach child) := by
  refine ⟨Nat.le_of_eq (size_detach d child).symm, fun hd => hd.detach child, fun x => ?_, ?_⟩
  · unfold Document.detach
    split
    · rfl
    · rw [listeners_modifyNode, listeners_modifyNode] <;> exact fun _ => rfl
  · unfold Document.detach
    split <;> exact fun _ => id

lemma insert (d : Document) (parent child : Nat) (place : Option Nat) : Redrawn d (d.insert parent child place) := by
  have hdetach := detach d child
  refine ⟨?_, fun hd => hd.insert parent child place, fun x => ?_, ?_⟩
  · unfold Document.insert
    split
    · exact Nat.le_refl _
    · simp only [size_modifyNode]
      exact hdetach.size_le
  · unfold Document.insert
    split
    · rfl
    · dsimp only
      rw [listeners_modifyNode, listeners_modifyNode]
      · exact hdetach.listeners_eq x
      · exact fun _ => rfl
      · exact fun _ => rfl
  · unfold Document.insert
    split
    · exact fun _ => id
    · exact hdetach.timers

lemma replace (d : Document) (old new : Nat) : Redrawn d (d.replace old new) := by
  unfold Document.replace
  split
  · exact refl d
  · exact (detach d new).trans ((detach _ old).trans (insert _ _ _ _))

lemma clear (d : Document) (id : Nat) : Redrawn d (d.clear id) := by
  have horphaned : ∀ (cs : List Nat) (e : Document),
      let e' := cs.foldl (fun d c => d.modifyNode c fun n => { n with parent := none }) e
      e'.nodes.size = e.nodes.size ∧ (∀ x, e'.listeners x = e.listeners x) ∧ e'.timers = e.timers := by
    intro cs
    induction cs with
    | nil => exact fun e => ⟨rfl, fun _ => rfl, rfl⟩
    | cons c cs ih =>
      intro e
      obtain ⟨hsize, hlisteners, htimers⟩ := ih (e.modifyNode c fun n => { n with parent := none })
      refine ⟨hsize.trans (size_modifyNode e c _), fun x => (hlisteners x).trans ?_, htimers⟩
      exact listeners_modifyNode e c x fun _ => rfl
  obtain ⟨hsize, hlisteners, htimers⟩ := horphaned (d.children id) (d.modifyNode id fun n => { n with children := #[] })
  refine ⟨?_, fun hd => hd.clear id, fun x => (hlisteners x).trans ?_, fun t ht => ?_⟩
  · exact Nat.le_of_eq (hsize.trans (size_modifyNode d id _)).symm
  · exact listeners_modifyNode d id x fun _ => rfl
  · rw [Document.clear, htimers] at ht
    exact ht

lemma advance (d : Document) (time : Nat) : Redrawn d (d.advance time).2 where
  size_le := Nat.le_refl _
  linked := fun hd => hd.congr (fun _ => rfl) fun _ => rfl
  listeners_eq := fun _ => rfl
  timers := fun t ht => by
    simp only [Document.advance, partition_eq_filter_filter] at ht
    exact (mem_filter.1 ht).1

end Redrawn

lemma mem_timers_of_due {d : Document} {time number : Nat} (h : number ∈ (d.advance time).1) :
    ∃ t ∈ d.timers, t.callback = number := by
  simp only [advance, partition_eq_filter_filter, mem_map, mem_mergeSort, mem_filter] at h
  obtain ⟨t, ⟨ht, -⟩, hnumber⟩ := h
  exact ⟨t, ht, hnumber⟩

lemma isAttached_clear_root {d : Document} (hd : d.Linked) {x : Nat} (hx : x ≠ root) :
    (d.clear root).isAttached x = false := by
  have hno : ∀ y, (d.clear root).parent? y ≠ some root := by
    intro y
    rw [parent?_clear]
    split
    · exact nofun
    · rename_i hy
      exact fun hp => hy (hd.mem_children hp)
  have hreach : ∀ steps y, y ≠ root → (d.clear root).reachesRoot steps y = false := by
    intro steps
    induction steps with
    | zero => exact fun y hy => beq_eq_false_iff_ne.2 hy
    | succ steps ih =>
      intro y hy
      rw [reachesRoot, beq_eq_false_iff_ne.2 hy, Bool.false_or]
      cases hp : (d.clear root).parent? y with
      | none => rfl
      | some p => exact ih p fun heq => hno y (heq ▸ hp)
  exact hreach _ x hx

end StoryMarkup.Document
