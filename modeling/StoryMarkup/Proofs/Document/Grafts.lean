import StoryMarkup.Proofs.Document.Trees

/-! Growing a document. Trees added below a node stay there, and nothing else looks different. -/
namespace StoryMarkup.Document

open List Option

open Relation (ReflTransGen)
variable {x id : Nat} {tag : String} {ts : List Tree} {ids : List Nat} {f : Node → Node} {l : Look} {e : Document}
  {s : String} {t : Tree} (i : Nat) (event : String) (callback : Nat)

structure Look where
  kind : Kind
  children : List Nat := []
  attributes : Bindings String := .empty

def Node.look (n : Node) : Look := ⟨n.kind, n.children.toList, n.attributes⟩

def look? (d : Document) (x : Nat) : Option Look := (d.node? x).map Node.look

section Looks

variable (d : Document)

lemma look?_create (kind : Kind) (x : Nat) :
    (d.create kind).2.look? x = if x = d.nodes.size then some { kind } else d.look? x := by
  simp only [look?, node?_create]
  split <;> rfl

lemma look?_modifyNode (x : Nat) {g : Look → Look} (hf : ∀ n, (f n).look = g n.look) :
    (d.modifyNode i f).look? x = if i = x then (d.look? x).map g else d.look? x := by
  simp only [look?, node?_modifyNode]
  split
  · cases d.node? x <;> simp [hf]
  · rfl

lemma look?_modifyNode_of_look_eq (x : Nat) (hf : ∀ n, (f n).look = n.look) :
    (d.modifyNode i f).look? x = d.look? x := by
  rw [d.look?_modifyNode i x (g := id) hf]
  split <;> simp

lemma look?_setAttribute (x : Nat) (name value : String) :
    (d.setAttribute i name value).look? x =
      if i = x then (d.look? x).map fun l => { l with attributes := l.attributes.insert name value } else d.look? x :=
  d.look?_modifyNode i x fun _ => rfl

lemma look?_subscribe (x : Nat) (event : String) (callback : Nat) :
    (d.subscribe i event callback).look? x = d.look? x := d.look?_modifyNode_of_look_eq i x fun _ => rfl

lemma look?_append {parent child : Nat} (hparent : parent < d.nodes.size) (hchild : child < d.nodes.size)
    (hne : parent ≠ child) (hfree : d.parent? child = none) (x : Nat) :
    (d.append parent child).look? x =
      if parent = x then (d.look? x).map fun l => { l with children := l.children ++ [child] } else d.look? x := by
  have hdetach : d.detach child = d := by rw [detach, hfree]
  rw [append, insert_eq ⟨hparent, hchild, hne⟩, hdetach, look?_modifyNode_of_look_eq]
  · exact d.look?_modifyNode parent x fun n => by simp [Node.look, placed]
  · exact fun _ => rfl

lemma parent?_setAttribute (x : Nat) (name value : String) :
    (d.setAttribute i name value).parent? x = d.parent? x := d.parent?_modifyNode i x fun _ => rfl

lemma parent?_subscribe (x : Nat) (event : String) (callback : Nat) :
    (d.subscribe i event callback).parent? x = d.parent? x := d.parent?_modifyNode i x fun _ => rfl

lemma size_setAttribute (name value : String) : (d.setAttribute i name value).nodes.size = d.nodes.size :=
  d.size_modifyNode i _

lemma size_subscribe : (d.subscribe i event callback).nodes.size = d.nodes.size := d.size_modifyNode i _

lemma size_create (kind : Kind) : (d.create kind).2.nodes.size = d.nodes.size + 1 := Array.size_push _

lemma size_append (parent child : Nat) : (d.append parent child).nodes.size = d.nodes.size := by
  by_cases h : parent < d.nodes.size ∧ child < d.nodes.size ∧ parent ≠ child
  · rw [append, insert_eq h, size_modifyNode, size_modifyNode, size_detach]
  · rw [append, insert_eq_self h]

variable {d}

lemma children_of_look? (h : d.look? x = some l) : d.children x = l.children := by
  obtain ⟨n, hn, rfl⟩ := map_eq_some_iff.1 h
  exact children_of_node? hn

lemma children_eq_of_look? (h : e.look? x = d.look? x) : e.children x = d.children x := by
  have hchildren : ∀ d : Document, d.children x = (d.look? x).elim [] Look.children := by
    intro d
    rw [children_eq_elim, look?]
    cases d.node? x <;> rfl
  rw [hchildren, hchildren, h]

lemma lt_size_of_look? (h : d.look? x = some l) : x < d.nodes.size := by
  obtain ⟨n, hn, -⟩ := map_eq_some_iff.1 h
  exact (isSome_node?_iff d x).1 (isSome_of_mem hn)

end Looks

/-! A tree stands where every node of it looks as it should. -/

def Reaches (d : Document) : Nat → Nat → Prop := ReflTransGen fun p c => c ∈ d.children p

section Frame

variable {d e : Document}

lemma holds_text_of_look? (h : d.look? id = some l) (hkind : l.kind = .text s)
    (hleaf : l.children = []) : d.Holds id (.text s) := by
  obtain ⟨n, hn, rfl⟩ := map_eq_some_iff.1 h
  exact .text hn hkind hleaf

lemma holds_element_of_look? (h : d.look? id = some l) (hkind : l.kind = .element tag)
    (hchildren : d.HoldsAll l.children ts) : d.Holds id (.element tag l.attributes.entries ts) := by
  obtain ⟨n, hn, rfl⟩ := map_eq_some_iff.1 h
  exact .element hn hkind rfl hchildren

lemma look?_of_node? {n : Node} (hn : d.node? id = some n) : d.look? id = some n.look := by
  rw [look?, hn, map_some]

lemma Holds.exists_look {attributes : List (String × String)} (h : d.Holds id (.element tag attributes ts)) :
    ∃ l, d.look? id = some l ∧ l.kind = .element tag ∧ l.attributes.entries = attributes ∧
      d.HoldsAll l.children ts := by
  cases h with
  | element hn hkind hattributes hchildren => exact ⟨_, look?_of_node? hn, hkind, hattributes, hchildren⟩

lemma Holds.exists_of_reaches (h : d.Holds id t) (hx : d.Reaches id x) : ∃ u, d.Holds x u := by
  induction hx with
  | refl => exact ⟨t, h⟩
  | tail _ hstep ih =>
    obtain ⟨u, hu⟩ := ih
    exact hu.exists_child hstep

lemma Holds.lt_size (h : d.Holds id t) : id < d.nodes.size := by
  obtain ⟨n, hn⟩ := h.node
  exact lt_size_of_look? (look?_of_node? hn)

mutual

theorem Holds.frame {id : Nat} {t : Tree} (hsame : ∀ x, d.Reaches id x → e.look? x = d.look? x) :
    d.Holds id t → e.Holds id t
  | .text hn hkind hleaf => holds_text_of_look? ((hsame id .refl).trans (look?_of_node? hn)) hkind hleaf
  | .element hn hkind hattributes hchildren => by
    have hlook := (hsame id .refl).trans (look?_of_node? hn)
    subst hattributes
    refine holds_element_of_look? hlook hkind (hchildren.frame fun c hc x hx => hsame x (.head ?_ hx))
    rwa [children_of_node? hn]

theorem HoldsAll.frame {ids : List Nat} {ts : List Tree}
    (hsame : ∀ id ∈ ids, ∀ x, d.Reaches id x → e.look? x = d.look? x) : d.HoldsAll ids ts → e.HoldsAll ids ts
  | .nil => .nil
  | .cons h hrest => by
    rw [forall_mem_cons] at hsame
    exact .cons (h.frame hsame.1) (hrest.frame hsame.2)

end

lemma Reaches.of_look (hsame : ∀ y, d.Reaches id y → e.look? y = d.look? y) (h : e.Reaches id x) :
    d.Reaches id x := by
  induction h with
  | refl => exact .refl
  | tail _ hstep ih => exact .tail ih (by rwa [children_eq_of_look? (hsame _ ih)] at hstep)

lemma HoldsAll.append {ids' : List Nat} {us : List Tree} (h : d.HoldsAll ids ts)
    (h' : d.HoldsAll ids' us) : d.HoldsAll (ids ++ ids') (ts ++ us) := by
  induction ids generalizing ts with
  | nil =>
    cases h
    exact h'
  | cons id ids ih =>
    cases h with
    | cons h hrest => exact .cons h (ih hrest)

end Frame

/-! The text of a tree. -/

mutual

def Tree.literal : Tree → List Char
  | .text s => s.toList
  | .element _ _ children => literalAll children

def Tree.literalAll : List Tree → List Char
  | [] => []
  | t :: rest => t.literal ++ literalAll rest

end

mutual

theorem Holds.toList_textWithin {d : Document} {height : Nat → Nat} (hlower : d.Lowers height) {id : Nat} {t : Tree}
    (h : d.Holds id t) {levels : Nat} (hlevels : height id < levels) : (d.textWithin levels id).toList = t.literal := by
  obtain _ | levels := levels
  · omega
  match h with
  | .text hn hkind hleaf => simp only [textWithin, hn, hkind, Tree.literal]
  | @Holds.element _ _ n tag _ children hn hkind rfl hchildren =>
    have hbelow : ∀ c ∈ n.children.toList, height c < levels := by
      intro c hc
      have := hlower id c _ h (children_of_node? hn ▸ hc)
      omega
    simp [textWithin, hn, hkind, Tree.literal, ← hchildren.flatMap_textWithin hlower hbelow, flatMap_map]

theorem HoldsAll.flatMap_textWithin {d : Document} {height : Nat → Nat} (hlower : d.Lowers height) {ids : List Nat}
    {ts : List Tree} (h : d.HoldsAll ids ts) {levels : Nat} (hlevels : ∀ c ∈ ids, height c < levels) :
    ids.flatMap (fun c => (d.textWithin levels c).toList) = Tree.literalAll ts := by
  match h with
  | .nil => rfl
  | .cons h hrest =>
    rw [flatMap_cons, h.toList_textWithin hlower (hlevels _ mem_cons_self),
      hrest.flatMap_textWithin hlower fun c hc => hlevels c (mem_cons_of_mem _ hc), Tree.literalAll]

end

lemma Holds.toList_textContent {d : Document} {id : Nat} {t : Tree} (h : d.Holds id t) :
    (d.textContent id).toList = t.literal := by
  obtain ⟨height, hlower, hle⟩ := exists_lowers d
  exact h.toList_textWithin hlower (Nat.lt_succ_of_le (hle id))

/-! Trees of new nodes. -/

structure Newly (d : Document) (old : Nat) (ids : List Nat) (ts : List Tree) : Prop where
  holds : d.HoldsAll ids ts
  new : ∀ id ∈ ids, ∀ x, d.Reaches id x → old ≤ x

namespace Newly

variable {d e : Document} {old : Nat} {ids' : List Nat} {us : List Tree}

lemma nil (d : Document) (old : Nat) : d.Newly old [] [] := ⟨.nil, by simp⟩

lemma append (h : d.Newly old ids ts) (h' : d.Newly old ids' us) : d.Newly old (ids ++ ids') (ts ++ us) :=
  ⟨h.holds.append h'.holds, fun id hid => (mem_append.1 hid).elim (h.new id) (h'.new id)⟩

lemma mono {less : Nat} (h : d.Newly old ids ts) (hless : less ≤ old) : d.Newly less ids ts :=
  ⟨h.holds, fun id hid x hx => hless.trans (h.new id hid x hx)⟩

lemma lt_size (h : d.Newly old ids ts) (hid : id ∈ ids) (hx : d.Reaches id x) : x < d.nodes.size := by
  obtain ⟨t, ht⟩ := h.holds.exists_of_mem hid
  obtain ⟨u, hu⟩ := ht.exists_of_reaches hx
  exact hu.lt_size

lemma frame (h : d.Newly old ids ts)
    (hsame : ∀ x, old ≤ x → x < d.nodes.size → e.look? x = d.look? x) : e.Newly old ids ts := by
  have hsame' : ∀ id ∈ ids, ∀ x, d.Reaches id x → e.look? x = d.look? x := fun id hid x hx =>
    hsame x (h.new id hid x hx) (h.lt_size hid hx)
  exact ⟨h.holds.frame hsame', fun id hid x hx => h.new id hid x (hx.of_look (hsame' id hid))⟩

lemma element (hold : old ≤ id) (hlook : d.look? id = some l) (hkind : l.kind = .element tag)
    (h : d.Newly old l.children ts) : d.Newly old [id] [.element tag l.attributes.entries ts] := by
  refine ⟨.cons (holds_element_of_look? hlook hkind h.holds) .nil, fun i hi x hx => ?_⟩
  obtain rfl := mem_singleton.1 hi
  obtain rfl | ⟨c, hc, hx⟩ := ReflTransGen.cases_head hx
  · exact hold
  · exact h.new c (children_of_look? hlook ▸ hc) x hx

lemma text (hold : old ≤ id) (hlook : d.look? id = some { kind := .text s }) : d.Newly old [id] [.text s] := by
  refine ⟨.cons (holds_text_of_look? hlook rfl rfl) .nil, fun i hi x hx => ?_⟩
  obtain rfl := mem_singleton.1 hi
  obtain rfl | ⟨c, hc, -⟩ := ReflTransGen.cases_head hx
  · exact hold
  · rw [children_of_look? hlook] at hc
    cases hc

end Newly

structure Kept (d e : Document) : Prop where
  size_le : d.nodes.size ≤ e.nodes.size
  look_eq : ∀ x, x < d.nodes.size → e.look? x = d.look? x
  parent_eq : ∀ x, x < d.nodes.size → e.parent? x = d.parent? x

structure Grafted (d e : Document) (c : Nat) (ids : List Nat) (ts : List Tree) : Prop where
  size_le : d.nodes.size ≤ e.nodes.size
  parent_eq : ∀ x, x < d.nodes.size → e.parent? x = d.parent? x
  kept : ∀ x, x < d.nodes.size → x ≠ c → e.look? x = d.look? x
  grown : e.look? c = (d.look? c).map fun l => { l with children := l.children ++ ids }
  newly : e.Newly d.nodes.size ids ts

namespace Grafted

variable {d e f : Document} {c p : Nat} {ids' : List Nat} {us : List Tree}

lemma refl (d : Document) (c : Nat) : Grafted d d c [] [] where
  size_le := le_rfl
  parent_eq _ _ := rfl
  kept _ _ _ := rfl
  grown := by simp
  newly := .nil d _

lemma trans (hc : c < d.nodes.size) (h : Grafted d e c ids ts) (h' : Grafted e f c ids' us) :
    Grafted d f c (ids ++ ids') (ts ++ us) where
  size_le := h.size_le.trans h'.size_le
  parent_eq x hx := (h'.parent_eq x (Nat.lt_of_lt_of_le hx h.size_le)).trans (h.parent_eq x hx)
  kept x hx hne := (h'.kept x (Nat.lt_of_lt_of_le hx h.size_le) hne).trans (h.kept x hx hne)
  grown := by
    rw [h'.grown, h.grown, Option.map_map]
    simp [Function.comp_def]
  newly := (h.newly.frame fun x hold hx => h'.kept x hx (by omega)).append (h'.newly.mono h.size_le)

lemma into {tag : String} {attributes : List (String × String)} (hc : c < d.nodes.size)
    (h : Grafted d e c [p] [.element tag attributes ts]) (h' : Grafted e f p ids us) :
    Grafted d f c [p] [.element tag attributes (ts ++ us)] := by
  have hp : d.nodes.size ≤ p := h.newly.new p (mem_singleton_self p) p .refl
  have hplt : p < e.nodes.size := h.newly.lt_size (mem_singleton_self p) .refl
  refine ⟨h.size_le.trans h'.size_le, fun x hx => ?_, fun x hx hne => ?_, ?_, ?_⟩
  · rw [h'.parent_eq x (Nat.lt_of_lt_of_le hx h.size_le), h.parent_eq x hx]
  · rw [h'.kept x (Nat.lt_of_lt_of_le hx h.size_le) (by omega), h.kept x hx hne]
  · rw [h'.kept c (Nat.lt_of_lt_of_le hc h.size_le) (by omega), h.grown]
  · cases h.newly.holds with
    | cons hholds _ =>
      -- The element is not below itself, so what it held before is not touched.
      have hacc := hholds.acc
      obtain ⟨l, hlook, hkind, rfl, hchildren⟩ := hholds.exists_look
      have hbefore : f.Newly d.nodes.size l.children ts := by
        have hstep : ∀ id ∈ l.children, id ∈ e.children p := fun id hid => by rwa [children_of_look? hlook]
        have hnew : ∀ id ∈ l.children, ∀ x, e.Reaches id x → d.nodes.size ≤ x := fun id hid x hx =>
          h.newly.new p (mem_singleton_self p) x (.head (hstep id hid) hx)
        have hsame : ∀ id ∈ l.children, ∀ x, e.Reaches id x → f.look? x = e.look? x := by
          intro id hid x hx
          have hlt := h.newly.lt_size (mem_singleton_self p) (.head (hstep id hid) hx)
          refine h'.kept x hlt ?_
          rintro rfl
          exact loopFree_of_acc hacc x .refl (.head' (hstep id hid) hx)
        exact ⟨hchildren.frame hsame, fun id hid x hx => hnew id hid x (hx.of_look (hsame id hid))⟩
      have hlook' : f.look? p = some { l with children := l.children ++ ids } := by
        rw [h'.grown, hlook, map_some]
      have hall := Newly.element hp hlook' hkind (hbefore.append (h'.newly.mono h.size_le))
      exact hall

end Grafted

namespace Kept

variable {d e f : Document}

lemma create (d : Document) (kind : Kind) : Kept d (d.create kind).2 where
  size_le := by rw [size_create]; omega
  look_eq x hx := by rw [look?_create, if_neg (Nat.ne_of_lt hx)]
  parent_eq x _ := parent?_create d kind x

variable (h : Kept d e) {p : Nat} (hp : d.nodes.size ≤ p)
include h hp

lemma setAttribute (name value : String) : Kept d (e.setAttribute p name value) where
  size_le := by rw [size_setAttribute]; exact h.size_le
  look_eq x hx := by rw [look?_setAttribute, if_neg (by omega), h.look_eq x hx]
  parent_eq x hx := (e.parent?_setAttribute p x name value).trans (h.parent_eq x hx)

omit hp in
lemma subscribe : Kept d (e.subscribe p event callback) where
  size_le := by rw [size_subscribe]; exact h.size_le
  look_eq x hx := by rw [look?_subscribe, h.look_eq x hx]
  parent_eq x hx := (e.parent?_subscribe p x event callback).trans (h.parent_eq x hx)

lemma grafted (h' : Grafted e f p ids ts) : Kept d f where
  size_le := h.size_le.trans h'.size_le
  look_eq x hx := by rw [h'.kept x (Nat.lt_of_lt_of_le hx h.size_le) (by omega), h.look_eq x hx]
  parent_eq x hx := by rw [h'.parent_eq x (Nat.lt_of_lt_of_le hx h.size_le), h.parent_eq x hx]

end Kept

lemma Kept.grafted_append {d : Document} (h : Kept d e) {c p : Nat} (hc : c < d.nodes.size)
    (hnew : e.Newly d.nodes.size [p] [t]) (hfree : e.parent? p = none) : Grafted d (e.append c p) c [p] [t] := by
  have hp : d.nodes.size ≤ p := hnew.new p (mem_singleton_self p) p .refl
  have hplt : p < e.nodes.size := hnew.lt_size (mem_singleton_self p) .refl
  have hclt : c < e.nodes.size := Nat.lt_of_lt_of_le hc h.size_le
  have hlook := look?_append e hclt hplt (by omega) hfree
  refine ⟨by rw [size_append]; exact h.size_le, fun x hx => ?_, fun x hx hne => ?_, ?_, hnew.frame fun x hold _ => ?_⟩
  · rw [append, parent?_insert ⟨hclt, hplt, by omega⟩, if_neg (by omega), h.parent_eq x hx]
  · rw [hlook, if_neg (Ne.symm hne), h.look_eq x hx]
  · rw [hlook, if_pos rfl, h.look_eq c hc]
  · rw [hlook, if_neg (by omega)]

/-! Elements that are made before they are added. -/

structure Blank (d e : Document) (p : Nat) (kind : Kind) (attributes : Bindings String) : Prop where
  kept : Kept d e
  new : d.nodes.size ≤ p
  look_eq : e.look? p = some { kind, attributes }
  free : e.parent? p = none

namespace Blank

variable {d e f : Document} {p c : Nat} {kind : Kind} {attributes : Bindings String}

lemma create (d : Document) (kind : Kind) : Blank d (d.create kind).2 d.nodes.size kind .empty where
  kept := .create d kind
  new := le_rfl
  look_eq := by rw [look?_create, if_pos rfl]
  free := by rw [parent?_create, parent?, node?_size]; rfl

lemma setAttribute (h : Blank d e p kind attributes) (name value : String) :
    Blank d (e.setAttribute p name value) p kind (attributes.insert name value) where
  kept := h.kept.setAttribute h.new name value
  new := h.new
  look_eq := by rw [look?_setAttribute, if_pos rfl, h.look_eq, map_some]
  free := (e.parent?_setAttribute p p name value).trans h.free

lemma setAttributes (h : Blank d e p kind attributes) (es : List (String × String)) :
    Blank d (es.foldl (fun e a => e.setAttribute p a.1 a.2) e) p kind (attributes.insertAll es) := by
  induction es generalizing e attributes with
  | nil => exact h
  | cons a es ih => exact ih (h.setAttribute a.1 a.2)

lemma grafted_text (h : Blank d e p (.text s) .empty) (hc : c < d.nodes.size) :
    Grafted d (e.append c p) c [p] [.text s] :=
  h.kept.grafted_append hc (.text h.new h.look_eq) h.free

lemma grafted_element (h : Blank d e p (.element tag) attributes) (hc : c < d.nodes.size) :
    Grafted d (e.append c p) c [p] [.element tag attributes.entries []] :=
  h.kept.grafted_append hc (.element h.new h.look_eq rfl (.nil e _)) h.free

lemma newly_element (h : Blank d e p (.element tag) attributes) (h' : Grafted e f p ids ts) :
    f.Newly d.nodes.size [p] [.element tag attributes.entries ts] := by
  have hlook : f.look? p = some { kind := .element tag, children := ids, attributes } := by
    rw [h'.grown, h.look_eq, map_some]
    rfl
  have hall := Newly.element h.new hlook rfl (h'.newly.mono h.kept.size_le)
  exact hall

end Blank

end StoryMarkup.Document
