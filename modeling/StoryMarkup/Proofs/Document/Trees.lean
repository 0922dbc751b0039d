import StoryMarkup.Proofs.Document.Walks
import StoryMarkup.Proofs.Text.Cursor

/-! Documents as trees. The HTML of a tree can be taken apart again. -/
namespace StoryMarkup.Document

open Relation (TransGen)
open List (append_assoc cons_append flatMap_cons)
open Text (isBlank isAsciiDigit)
variable {t s f : List Char} {c : Char} {as bs : List (String × String)} {g : List Char}

/-- A node with all that is below it, apart from the numbers of the nodes. -/
inductive Tree where
  | text (s : String)
  | element (tag : String) (attributes : List (String × String)) (children : List Tree)

namespace Tree

def isText : Tree → Bool
  | .text _ => true
  | .element .. => false

def isLowerLetter (c : Char) : Bool := 'a' ≤ c && c ≤ 'z'

def isTagChar (c : Char) : Bool := isLowerLetter c || isAsciiDigit c || c == '-'

def isTag (tag : String) : Bool := tag.toList.head?.any isLowerLetter && tag.toList.all isTagChar

def isAttributeName (name : String) : Bool :=
  !name.isEmpty && name.toList.all fun c => !isBlank c && c != '=' && c != '>' && c != '"'

mutual

def wellFormed : Tree → Bool
  | .text s => !s.isEmpty
  | .element tag attributes children =>
    isTag tag && attributes.all (fun a => isAttributeName a.1) &&
      (!Markup.voidTags.contains tag || children.isEmpty) && allWellFormed children

def allWellFormed : List Tree → Bool
  | [] => true
  | t :: rest => t.wellFormed && !(t.isText && rest.head?.any isText) && allWellFormed rest

end

/-! The HTML of a tree. -/

def attributeChars (a : String × String) : List Char :=
  ' ' :: (a.1.toList ++ '=' :: '"' :: (a.2.toList.flatMap escapeValueChar ++ ['"']))

def closingChars (tag : String) : List Char := '<' :: '/' :: (tag.toList ++ ['>'])

mutual

def chars : Tree → List Char
  | .text s => s.toList.flatMap escapeTextChar
  | .element tag attributes children =>
    '<' :: (tag.toList ++ (attributes.flatMap attributeChars ++ '>' ::
      (if Markup.voidTags.contains tag then [] else charsAll children ++ closingChars tag)))

def charsAll : List Tree → List Char
  | [] => []
  | t :: rest => t.chars ++ charsAll rest

end

end Tree

mutual

/-- The tree stands in the document, with its root at the node. -/
inductive Holds (d : Document) : Nat → Tree → Prop
  | text {id : Nat} {n : Node} {s : String} (hn : d.node? id = some n) (hkind : n.kind = .text s)
    (hleaf : n.children.toList = []) : Holds d id (.text s)
  | element {id : Nat} {n : Node} {tag : String} {attributes : List (String × String)} {children : List Tree}
    (hn : d.node? id = some n) (hkind : n.kind = .element tag) (hattributes : n.attributes.entries = attributes)
    (hchildren : HoldsAll d n.children.toList children) : Holds d id (.element tag attributes children)

inductive HoldsAll (d : Document) : List Nat → List Tree → Prop
  | nil : HoldsAll d [] []
  | cons {id : Nat} {ids : List Nat} {t : Tree} {ts : List Tree} (h : Holds d id t) (hrest : HoldsAll d ids ts) :
    HoldsAll d (id :: ids) (t :: ts)

end

/-! A walk down a tree of a document is no longer than the document has nodes. -/

section Finite

variable {d : Document}

lemma Holds.node {id : Nat} {t : Tree} (h : d.Holds id t) : ∃ n, d.node? id = some n := by
  cases h with
  | text hn | element hn => exact ⟨_, hn⟩

lemma HoldsAll.exists_of_mem {ids : List Nat} {ts : List Tree} (h : d.HoldsAll ids ts) {id : Nat}
    (hid : id ∈ ids) : ∃ t, d.Holds id t := by
  induction ids generalizing ts with
  | nil => cases hid
  | cons i ids ih =>
    cases h with
    | cons h hrest =>
      obtain rfl | hid := List.mem_cons.1 hid
      · exact ⟨_, h⟩
      · exact ih hrest hid

lemma Holds.exists_child {p c : Nat} {t : Tree} (h : d.Holds p t) (hc : c ∈ d.children p) : ∃ u, d.Holds c u := by
  cases h with
  | text hn _ hleaf =>
    rw [children_of_node? hn, hleaf] at hc
    cases hc
  | element hn _ _ hchildren =>
    rw [children_of_node? hn] at hc
    exact hchildren.exists_of_mem hc

mutual

theorem Holds.acc {id : Nat} {t : Tree} : d.Holds id t → Acc (fun c p => c ∈ d.children p) id
  | .text hn _ hleaf => .intro _ fun c hc => by
    rw [children_of_node? hn, hleaf] at hc
    cases hc
  | .element hn _ _ hchildren => .intro _ fun c hc => by
    rw [children_of_node? hn] at hc
    exact hchildren.acc c hc

theorem HoldsAll.acc {ids : List Nat} {ts : List Tree} : d.HoldsAll ids ts →
    ∀ c ∈ ids, Acc (fun c p => c ∈ d.children p) c
  | .nil, _, hc => by cases hc
  | .cons h hrest, c, hc => by
    obtain rfl | hc := List.mem_cons.1 hc
    · exact h.acc
    · exact hrest.acc c hc

end

def Lowers (d : Document) (height : Nat → Nat) : Prop :=
  ∀ p c t, d.Holds p t → c ∈ d.children p → height c < height p

lemma exists_lowers (d : Document) : ∃ height, d.Lowers height ∧ ∀ p, height p ≤ d.nodes.size := by
  have hplaces : ∀ p c, (∃ t, d.Holds p t) ∧ c ∈ d.children p → p ∈ Finset.range d.nodes.size := by
    rintro p c ⟨⟨t, ht⟩, _⟩
    obtain ⟨n, hn⟩ := ht.node
    exact Finset.mem_range.2 ((isSome_node?_iff d p).1 (Option.isSome_of_mem hn))
  obtain ⟨height, hlower, hle⟩ := exists_rank hplaces
  refine ⟨height, fun p c t ht hc => hlower p c ⟨⟨t, ht⟩, hc⟩ fun hloop => ?_,
    fun p => (hle p).trans_eq (Finset.card_range _)⟩
  exact loopFree_of_acc ht.acc p .refl (TransGen.mono (fun _ _ hstep => hstep.2) _ _ hloop)

end Finite

/-! The HTML of a node is that of its tree. -/

lemma toList_openTag (tag : String) (attributes : Bindings String) :
    (openTag tag attributes).toList =
      '<' :: (tag.toList ++ (attributes.entries.flatMap Tree.attributeChars ++ ['>'])) := by
  have hwritten : (fun a => ' ' :: (a.1.toList ++ '=' :: '"' :: (a.2.toList.flatMap escapeValueChar ++ ['"']))) =
      Tree.attributeChars := rfl
  simp [openTag, List.flatMap_map, escapeValue, hwritten]

mutual

theorem Holds.toList_htmlWithin {d : Document} {height : Nat → Nat} (hlower : d.Lowers height) {id : Nat} {t : Tree}
    (h : d.Holds id t) {levels : Nat} (hlevels : height id < levels) : (d.htmlWithin levels id).toList = t.chars := by
  obtain _ | levels := levels
  · omega
  match h with
  | .text hn hkind hleaf => simp only [htmlWithin, hn, hkind, escapeText, String.toList_ofList, Tree.chars]
  | @Holds.element _ _ n tag _ children hn hkind rfl hchildren =>
    have hbelow : ∀ c ∈ n.children.toList, height c < levels := by
      intro c hc
      have := hlower id c _ h (children_of_node? hn ▸ hc)
      omega
    have hinside := hchildren.flatMap_htmlWithin hlower hbelow
    simp only [htmlWithin, hn, hkind, Tree.chars]
    split
    · simp [toList_openTag]
    · simp [toList_openTag, List.flatMap_map, hinside, Tree.closingChars]

theorem HoldsAll.flatMap_htmlWithin {d : Document} {height : Nat → Nat} (hlower : d.Lowers height) {ids : List Nat}
    {ts : List Tree} (h : d.HoldsAll ids ts) {levels : Nat} (hlevels : ∀ c ∈ ids, height c < levels) :
    ids.flatMap (fun c => (d.htmlWithin levels c).toList) = Tree.charsAll ts := by
  match h with
  | .nil => rfl
  | .cons h hrest =>
    rw [flatMap_cons, h.toList_htmlWithin hlower (hlevels _ List.mem_cons_self),
      hrest.flatMap_htmlWithin hlower fun c hc => hlevels c (List.mem_cons_of_mem _ hc), Tree.charsAll]

end

lemma Holds.toList_html {d : Document} {id : Nat} {t : Tree} (h : d.Holds id t) : (d.html id).toList = t.chars := by
  obtain ⟨height, hlower, hle⟩ := exists_lowers d
  exact h.toList_htmlWithin hlower (Nat.lt_succ_of_le (hle id))

/-! What is written can be taken apart. -/

lemma append_inj_of_run {p : Char → Bool} {s' t' : List Char} (hs : ∀ c ∈ s, p c = true)
    (ht : ∀ c ∈ t.head?, p c = false) (hs' : ∀ c ∈ s', p c = true) (ht' : ∀ c ∈ t'.head?, p c =
    false) (h : s ++ t = s' ++ t') : s = s' ∧ t = t' := by
  constructor
  · rw [← Text.takeWhile_append_of_head hs ht, h, Text.takeWhile_append_of_head hs' ht']
  · rw [← Text.dropWhile_append_of_head hs ht, h, Text.dropWhile_append_of_head hs' ht']

lemma flatMap_inj_of_head {f : Char → List Char} (hnil : ∀ c, f c ≠ [])
    (hhead : ∀ c d s t, f c ++ s = f d ++ t → c = d) (h : s.flatMap f = t.flatMap f) : s = t := by
  induction s generalizing t with
  | nil =>
    cases t with
    | nil => rfl
    | cons d t =>
      rw [List.flatMap_nil, flatMap_cons] at h
      exact absurd (List.append_eq_nil_iff.1 h.symm).1 (hnil d)
  | cons c s ih =>
    cases t with
    | nil =>
      rw [List.flatMap_nil, flatMap_cons] at h
      exact absurd (List.append_eq_nil_iff.1 h).1 (hnil c)
    | cons d t =>
      rw [flatMap_cons, flatMap_cons] at h
      obtain rfl := hhead c d _ _ h
      rw [ih (List.append_cancel_left h)]

/-! Escapes start with an ampersand, and each goes on with a letter of its own. -/

lemma escapeTextChar_ne_nil (c : Char) : escapeTextChar c ≠ [] := by
  unfold escapeTextChar
  split <;> simp

lemma eq_of_escapeTextChar {d : Char} (h : escapeTextChar c ++ s = escapeTextChar d ++ t) : c = d := by
  unfold escapeTextChar at h
  split at h <;> split at h <;> grind

lemma not_mem_escapeTextChar (c : Char) : '<' ∉ escapeTextChar c := by
  unfold escapeTextChar
  split <;> simp_all [eq_comm]

lemma escapeValueChar_of_ne (h : c ≠ '"') : escapeValueChar c = escapeTextChar c := by
  unfold escapeValueChar
  split
  · exact absurd rfl h
  · rfl

lemma escapeValueChar_ne_nil (c : Char) : escapeValueChar c ≠ [] := by
  unfold escapeValueChar
  split
  · simp
  · exact escapeTextChar_ne_nil c

lemma quot_append_ne_escapeTextChar : "&quot;".toList ++ s ≠ escapeTextChar c ++ t := by
  unfold escapeTextChar
  split <;> grind

lemma eq_of_escapeValueChar {d : Char} (h : escapeValueChar c ++ s = escapeValueChar d ++ t) : c = d := by
  by_cases hc : c = '"' <;> by_cases hd : d = '"'
  · rw [hc, hd]
  · rw [hc, escapeValueChar_of_ne hd] at h
    exact absurd h quot_append_ne_escapeTextChar
  · rw [hd, escapeValueChar_of_ne hc] at h
    exact absurd h.symm quot_append_ne_escapeTextChar
  · rw [escapeValueChar_of_ne hc, escapeValueChar_of_ne hd] at h
    exact eq_of_escapeTextChar h

lemma not_mem_escapeValueChar (c : Char) : '"' ∉ escapeValueChar c := by
  by_cases hc : c = '"'
  · subst hc
    decide
  · rw [escapeValueChar_of_ne hc]
    unfold escapeTextChar
    split <;> simp_all [eq_comm]

namespace Tree

/-! The parts of the HTML of a tree, each before whatever follows it. -/

lemma attributeChars_inj {a b : String × String} (ha : isAttributeName a.1 = true) (hb : isAttributeName b.1 = true)
    (h : attributeChars a ++ s = attributeChars b ++ t) : a = b ∧ s = t := by
  have hname : ∀ {name : String}, isAttributeName name = true → ∀ c ∈ name.toList, (c != '=') = true := by
    intro name hname c hc
    simp only [isAttributeName, Bool.and_eq_true, List.all_eq_true] at hname
    exact (hname.2 c hc).1.1.2
  have hvalue : ∀ (v : String), ∀ c ∈ v.toList.flatMap escapeValueChar, (c != '"') = true := by
    intro v c hc
    obtain ⟨d, -, hd⟩ := List.mem_flatMap.1 hc
    rw [bne_iff_ne]
    rintro rfl
    exact not_mem_escapeValueChar d hd
  simp only [attributeChars, cons_append, append_assoc, List.cons.injEq, true_and] at h
  obtain ⟨hkey, h⟩ := append_inj_of_run (hname ha) (by simp) (hname hb) (by simp) h
  simp only [List.cons.injEq, true_and] at h
  obtain ⟨hwritten, h⟩ := append_inj_of_run (hvalue a.2) (by simp) (hvalue b.2) (by simp) h
  have hval := flatMap_inj_of_head escapeValueChar_ne_nil (fun _ _ _ _ => eq_of_escapeValueChar) hwritten
  exact ⟨Prod.ext (String.toList_inj.1 hkey) (String.toList_inj.1 hval), by simpa using h⟩

lemma attributes_inj (has : as.all (fun a => isAttributeName a.1) = true)
    (hbs : bs.all (fun a => isAttributeName a.1) = true)
    (h : as.flatMap attributeChars ++ '>' :: s = bs.flatMap attributeChars ++ '>' :: t) : as = bs ∧ s = t := by
  induction as generalizing bs with
  | nil =>
    cases bs with
    | nil => simpa using h
    | cons b bs => simp [attributeChars] at h
  | cons a as ih =>
    cases bs with
    | nil => simp [attributeChars] at h
    | cons b bs =>
      rw [List.all_cons, Bool.and_eq_true] at has hbs
      rw [flatMap_cons, flatMap_cons, append_assoc, append_assoc] at h
      obtain ⟨rfl, hrest⟩ := attributeChars_inj has.1 hbs.1 h
      obtain ⟨rfl, hend⟩ := ih has.2 hbs.2 hrest
      exact ⟨rfl, hend⟩

lemma tag_inj {tag tag' : String} (htag : isTag tag = true) (htag' : isTag tag' = true)
    (h : tag.toList ++ (as.flatMap attributeChars ++ '>' :: s) = tag'.toList ++
    (bs.flatMap attributeChars ++ '>' :: t)) :
    tag = tag' ∧ as.flatMap attributeChars ++ '>' :: s = bs.flatMap attributeChars ++ '>' :: t := by
  have hchars : ∀ {tag : String}, isTag tag = true → ∀ c ∈ tag.toList, isTagChar c = true := by
    intro tag htag
    exact List.all_eq_true.1 (Bool.and_eq_true_iff.1 htag).2
  have hend : ∀ (as : List (String × String)) (s : List Char),
      ∀ c ∈ (as.flatMap attributeChars ++ '>' :: s).head?, isTagChar c = false := by
    intro as s c hc
    cases as with
    | nil | cons a as =>
      cases hc
      decide
  obtain ⟨hsame, hrest⟩ := append_inj_of_run (hchars htag) (hend as s) (hchars htag') (hend bs t) h
  exact ⟨String.toList_inj.1 hsame, hrest⟩

def endsText (f : List Char) : Bool := f.head?.all (· == '<')

def endsChildren : List Char → Bool
  | [] => true
  | '<' :: '/' :: _ => true
  | _ => false

lemma endsText_of_endsChildren (h : endsChildren f = true) : endsText f = true := by
  unfold endsChildren at h
  split at h <;> simp_all [endsText]

lemma text_inj {a b : String} (hf : endsText f = true) (hg : endsText g = true)
    (h : (Tree.text a).chars ++ f = (Tree.text b).chars ++ g) : a = b ∧ f = g := by
  have hwritten : ∀ (v : String), ∀ c ∈ (Tree.text v).chars, (c != '<') = true := by
    intro v c hc
    rw [chars] at hc
    obtain ⟨d, -, hd⟩ := List.mem_flatMap.1 hc
    rw [bne_iff_ne]
    rintro rfl
    exact not_mem_escapeTextChar _ hd
  have hend : ∀ {f : List Char}, endsText f = true → ∀ c ∈ f.head?, (c != '<') = false := by
    intro f hf c hc
    rw [endsText, hc] at hf
    simpa using hf
  obtain ⟨hsame, hrest⟩ := append_inj_of_run (hwritten a) (hend hf) (hwritten b) (hend hg) h
  rw [chars, chars] at hsame
  have hchars := flatMap_inj_of_head escapeTextChar_ne_nil (fun _ _ _ _ => eq_of_escapeTextChar) hsame
  exact ⟨String.toList_inj.1 hchars, hrest⟩

lemma chars_eq_cons {t : Tree} (ht : t.wellFormed = true) : ∃ c cs, t.chars = c :: cs ∧
    (t.isText = true → c ≠ '<') ∧ (t.isText = false → c = '<' ∧ ∃ d ds, cs = d :: ds ∧ d ≠ '/') := by
  cases t with
  | text s =>
    rw [wellFormed] at ht
    cases hs : s.toList with
    | nil => simp_all
    | cons c cs =>
      rw [chars, hs, flatMap_cons]
      cases hc : escapeTextChar c with
      | nil => exact absurd hc (escapeTextChar_ne_nil c)
      | cons d ds =>
        refine ⟨d, _, rfl, fun _ => ?_, nofun⟩
        rintro rfl
        exact not_mem_escapeTextChar c (hc ▸ List.mem_cons_self)
  | element tag attributes children =>
    simp only [wellFormed, isTag, Bool.and_eq_true] at ht
    refine ⟨'<', _, by rw [chars], nofun, fun _ => ⟨rfl, ?_⟩⟩
    cases htag : tag.toList with
    | nil => simp [htag] at ht
    | cons d ds =>
      refine ⟨d, _, rfl, ?_⟩
      rintro rfl
      simp [htag, isLowerLetter] at ht

lemma isText_eq_of_chars {t u : Tree} (ht : t.wellFormed = true) (hu : u.wellFormed = true)
    (h : t.chars ++ f = u.chars ++ g) : t.isText = u.isText := by
  obtain ⟨c, cs, hchars, htext, helement⟩ := chars_eq_cons ht
  obtain ⟨d, ds, hchars', htext', helement'⟩ := chars_eq_cons hu
  rw [hchars, hchars', cons_append, cons_append, List.cons.injEq] at h
  obtain ⟨rfl, -⟩ := h
  cases hisText : t.isText <;> cases hisText' : u.isText
  · rfl
  · exact absurd (helement hisText).1 (htext' hisText')
  · exact absurd (helement' hisText').1 (htext hisText)
  · rfl

lemma endsChildren_chars_append {t : Tree} (ht : t.wellFormed = true) (f : List Char) :
    endsChildren (t.chars ++ f) = false := by
  obtain ⟨c, cs, hchars, htext, helement⟩ := chars_eq_cons ht
  rw [hchars]
  cases hisText : t.isText with
  | true =>
    have := htext hisText
    unfold endsChildren
    split <;> simp_all
  | false =>
    obtain ⟨rfl, d, ds, rfl, hd⟩ := helement hisText
    unfold endsChildren
    split <;> simp_all

lemma endsText_charsAll_append {rest : List Tree} (hrest : allWellFormed rest = true)
    (hhead : rest.head?.any isText = false) (hf : endsChildren f = true) : endsText (charsAll rest ++ f) = true := by
  cases rest with
  | nil => exact endsText_of_endsChildren hf
  | cons u us =>
    rw [allWellFormed, Bool.and_eq_true, Bool.and_eq_true] at hrest
    obtain ⟨c, cs, hchars, -, helement⟩ := chars_eq_cons hrest.1.1
    obtain ⟨rfl, -⟩ := helement hhead
    rw [charsAll, hchars]
    rfl

mutual

theorem chars_inj : (t : Tree) → ∀ {u : Tree} {f g : List Char}, t.wellFormed = true → u.wellFormed = true →
    (t.isText = true → endsText f = true) → (u.isText = true → endsText g = true) → t.chars ++ f =
    u.chars ++ g → t = u ∧ f = g
  | .text a, u, f, g, ht, hu, hf, hg, h => by
    cases u with
    | element => cases isText_eq_of_chars ht hu h
    | text b =>
      obtain ⟨rfl, hrest⟩ := text_inj (hf rfl) (hg rfl) h
      exact ⟨rfl, hrest⟩
  | .element tag attributes children, u, f, g, ht, hu, _, _, h => by
    cases u with
    | text => cases isText_eq_of_chars ht hu h
    | element tag' attributes' children' =>
      simp only [wellFormed, Bool.and_eq_true] at ht hu
      obtain ⟨⟨⟨htag, hattributes⟩, hvoid⟩, hchildren⟩ := ht
      obtain ⟨⟨⟨htag', hattributes'⟩, hvoid'⟩, hchildren'⟩ := hu
      simp only [chars, cons_append, append_assoc, List.cons.injEq, true_and] at h
      obtain ⟨rfl, hopened⟩ := tag_inj htag htag' h
      obtain ⟨rfl, hinside⟩ := attributes_inj hattributes hattributes' hopened
      cases hkind : Markup.voidTags.contains tag with
      | true =>
        simp only [hkind, Bool.not_true, Bool.false_or, List.isEmpty_iff, if_true,
          List.nil_append] at hvoid hvoid' hinside
        exact ⟨by rw [hvoid, hvoid'], hinside⟩
      | false =>
        simp only [hkind, Bool.false_eq_true, if_false, append_assoc] at hinside
        obtain ⟨rfl, hclosing⟩ := charsAll_inj children hchildren hchildren' rfl rfl hinside
        exact ⟨rfl, List.append_cancel_left hclosing⟩

theorem charsAll_inj : (ts : List Tree) → ∀ {us : List Tree} {f g : List Char}, allWellFormed ts = true →
    allWellFormed us = true → endsChildren f = true → endsChildren g = true → charsAll ts ++ f =
    charsAll us ++ g → ts = us ∧ f = g
  | [], [], f, g, _, _, _, _, h => ⟨rfl, h⟩
  | [], u :: us, f, g, _, hus, hf, _, h => by
    rw [allWellFormed, Bool.and_eq_true, Bool.and_eq_true] at hus
    rw [charsAll, charsAll, List.nil_append, append_assoc] at h
    rw [h, endsChildren_chars_append hus.1.1] at hf
    cases hf
  | t :: ts, [], f, g, hts, _, _, hg, h => by
    rw [allWellFormed, Bool.and_eq_true, Bool.and_eq_true] at hts
    rw [charsAll, charsAll, List.nil_append, append_assoc] at h
    rw [← h, endsChildren_chars_append hts.1.1] at hg
    cases hg
  | t :: ts, u :: us, f, g, hts, hus, hf, hg, h => by
    simp only [allWellFormed, Bool.and_eq_true, Bool.not_eq_true', Bool.and_eq_false_iff] at hts hus
    obtain ⟨⟨ht, hapart⟩, hts⟩ := hts
    obtain ⟨⟨hu, hapart'⟩, hus⟩ := hus
    rw [charsAll, charsAll, append_assoc, append_assoc] at h
    obtain ⟨rfl, hrest⟩ := chars_inj t ht hu
      (fun htext => endsText_charsAll_append hts (hapart.resolve_left (by simp [htext])) hf)
      (fun htext => endsText_charsAll_append hus (hapart'.resolve_left (by simp [htext])) hg) h
    obtain ⟨rfl, hend⟩ := charsAll_inj ts hts hus hf hg hrest
    exact ⟨rfl, hend⟩

end

end Tree

/-- The HTML of a node tells the whole tree below it. -/
theorem html_determines_tree {d e : Document} {i j : Nat} {t u : Tree} (ht : d.Holds i t) (hu : e.Holds j u)
    (hwell : t.wellFormed = true) (hwell' : u.wellFormed = true) (hhtml : d.html i = e.html j) : t = u := by
  have hchars : t.chars ++ [] = u.chars ++ [] := by
    rw [List.append_nil, List.append_nil, ← ht.toList_html, ← hu.toList_html, hhtml]
  exact (Tree.chars_inj t hwell hwell' (fun _ => rfl) (fun _ => rfl) hchars).1

def paragraph : Document :=
  built [.createElement "P", .setAttribute 1 "class" "x\"y", .createText "a < b", .append 1 2,
    .createElement "br", .append 1 3]

@[inherit_doc paragraph]
def paragraphAgain : Document :=
  built [.createText "a < b", .createElement "br", .createElement "p", .append 3 1, .append 3 2,
    .setAttribute 3 "class" "x\"y"]

theorem paragraph_html_determines_tree :
    paragraph.html 1 = "<p class=\"x&quot;y\">a &lt; b<br></p>" ∧ paragraph.html 1 = paragraphAgain.html 3 ∧
      Tree.element "p" [("class", "x\"y")] [.text "a < b", .element "br" [] []] =
        Tree.element "p" [("class", "x\"y")] [.text "a < b", .element "br" [] []] := by
  have hbreak : paragraph.Holds 3 (.element "br" [] []) := .element rfl (by decide +kernel) rfl .nil
  have hfirst : paragraph.Holds 1 (.element "p" [("class", "x\"y")] [.text "a < b", .element "br" [] []]) :=
    .element rfl (by decide +kernel) rfl (.cons (.text rfl rfl rfl) (.cons hbreak .nil))
  have hbreak' : paragraphAgain.Holds 2 (.element "br" [] []) := .element rfl (by decide +kernel) rfl .nil
  have hsecond : paragraphAgain.Holds 3 (.element "p" [("class", "x\"y")] [.text "a < b", .element "br" [] []]) :=
    .element rfl (by decide +kernel) rfl (.cons (.text rfl rfl rfl) (.cons hbreak' .nil))
  have hhtml : paragraph.html 1 = paragraphAgain.html 3 :=
    String.toList_inj.1 (hfirst.toList_html.trans hsecond.toList_html.symm)
  have hwritten : paragraph.html 1 = "<p class=\"x&quot;y\">a &lt; b<br></p>" :=
    String.toList_inj.1 (hfirst.toList_html.trans (by decide +kernel))
  exact ⟨hwritten, hhtml, html_determines_tree hfirst hsecond (by decide +kernel) (by decide +kernel) hhtml⟩

end StoryMarkup.Document
