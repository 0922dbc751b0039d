import StoryMarkup.Proofs.Document.Grafts
import StoryMarkup.Proofs.Markup.WellFormed
import StoryMarkup.Proofs.Render.Sequences

/-! What is drawn for templates that hold no scripts: the trees that rendering adds below its
container. -/
namespace StoryMarkup.Render

open Document

open Markup (Location Template)
variable {height : Nat} {t : Template} {rest : List Template}

/-! Templates without scripts. -/

mutual

/-- Texts, links, and elements with neither scripts in their attributes nor anything else in their
content; content that is taken as it is has to be text. -/
def isStatic : Template → Bool
  | .text .. | .link .. => true
  | .element name _ dyn content _ =>
    dyn.isEmpty && if Markup.rawTags.contains name then content.all Template.isText else allStatic content
  | _ => false

def allStatic : List Template → Bool
  | [] => true
  | t :: rest => isStatic t && allStatic rest

end

mutual

def isPlain : Template → Bool
  | .text .. | .link .. => true
  | .element _ _ dyn content _ => dyn.isEmpty && allPlain content
  | _ => false

def allPlain : List Template → Bool
  | [] => true
  | t :: rest => isPlain t && allPlain rest

end

lemma allPlain_of_all_isText (h : rest.all Template.isText = true) : allPlain rest = true := by
  induction rest with
  | nil => rfl
  | cons t rest ih =>
    rw [List.all_cons, Bool.and_eq_true] at h
    rw [allPlain, ih h.2, Bool.and_true]
    cases t <;> simp_all [Template.isText, isPlain]

mutual

theorem isPlain_of_isStatic (t : Template) (h : isStatic t = true) : isPlain t = true := by
  match t with
  | .text .. | .link .. => rfl
  | .element name _ dyn content _ =>
    rw [isStatic, Bool.and_eq_true] at h
    rw [isPlain, h.1, Bool.true_and]
    split at h
    · exact allPlain_of_all_isText h.2
    · exact allPlain_of_allStatic h.2
  | .reference .. | .chain .. | .error .. => simp [isStatic] at h

theorem allPlain_of_allStatic {ts : List Template} (h : allStatic ts = true) : allPlain ts = true := by
  match ts with
  | [] => rfl
  | t :: rest =>
    rw [allStatic, Bool.and_eq_true] at h
    rw [allPlain, isPlain_of_isStatic t h.1, allPlain_of_allStatic h.2, Bool.and_true]

end

/-- How deep rendering of the templates nests: content that is taken as it is is not rendered. -/
def nestingOf : List Template → Nat := Template.nestingAll fun name _ => Markup.rawTags.contains name

/-! The trees. -/

def textTrees (s : String) : List Tree := if s.isEmpty then [] else [.text s]

def breakTree : Tree := .element "br" [] []

def pieceTrees (breaks : Nat) : List String → List Tree
  | [] => []
  | [s] => textTrees s
  | s :: rest => textTrees s ++ List.replicate breaks breakTree ++ pieceTrees breaks rest

def emitTrees (mode : NewlineMode) (s : String) : List Tree :=
  match mode with
  | .block | .noBreaks => textTrees s
  | .inline => pieceTrees 2 (paragraphs s)
  | .allBreaks => pieceTrees 1 (lines s)

def linkTree (known : String → Bool) (target label : String) : Tree :=
  .element "a" [("class", if known target then "link" else "link broken"), ("data-passage", target)] (textTrees label)

def rawTrees : List Template → List Tree
  | [] => []
  | .text s _ :: rest => textTrees s ++ rawTrees rest
  | _ :: rest => rawTrees rest

mutual

def nodeTrees (known : String → Bool) : NewlineMode → Template → List Tree
  | mode, .text s _ => emitTrees mode s
  | mode, .element name attrs _ content _ =>
    [.element (Text.lowerAsciiText name) attrs.entries
      (if Markup.rawTags.contains name then rawTrees content else eachTrees known mode.nested content)]
  | _, .link target label _ => [linkTree known target label]
  | _, _ => []

def eachTrees (known : String → Bool) : NewlineMode → List Template → List Tree
  | _, [] => []
  | mode, t :: rest => nodeTrees known mode t ++ eachTrees known mode rest

end

def closing : Option (List Tree) → List Tree
  | none => []
  | some trees => [.element "p" [] trees]

def blockPieceTrees (para : Option (List Tree)) (s : String) : Option (List Tree) :=
  if s.isEmpty || (Text.isBlankText s && para.isNone) then para else some (para.getD [] ++ textTrees s)

def blockTextTrees (para : Option (List Tree)) : List String → List Tree × Option (List Tree)
  | [] => ([], para)
  | [s] => ([], blockPieceTrees para s)
  | s :: rest =>
    let (trees, last) := blockTextTrees none rest
    (closing (blockPieceTrees para s) ++ trees, last)

def blockTrees (known : String → Bool) (para : Option (List Tree)) : List Template → List Tree
  | [] => closing para
  | .text s _ :: rest =>
    let (trees, last) := blockTextTrees para (paragraphs s)
    trees ++ blockTrees known last rest
  | t :: rest =>
    match t with
    | .element name .. =>
      if Markup.blockTags.contains name then closing para ++ nodeTrees known .block t ++ blockTrees known none rest
      else blockTrees known (some (para.getD [] ++ nodeTrees known .inline t)) rest
    | _ => blockTrees known (some (para.getD [] ++ nodeTrees known .inline t)) rest

def sequenceTrees (known : String → Bool) (mode : NewlineMode) (ts : List Template) : List Tree :=
  match mode with
  | .block => blockTrees known none ts
  | _ => eachTrees known mode ts

/-! Drawing. -/

structure Drawn (c : Nat) (ids : List Nat) (ts : List Tree) (w w' : World) : Prop where
  grafted : w.host.document.Grafted w'.host.document c ids ts
  nesting : w.host.SameNesting w'.host

structure CanDraw (depth c : Nat) (w : World) : Prop where
  depth_eq : w.host.depth = depth
  recovering_eq : w.host.recovering = false
  lt_size : c < w.host.document.nodes.size

def Draws {α : Type} (depth c : Nat) (x : RenderM α) (a : α) (ts : List Tree) : Prop :=
  ∀ w : World, CanDraw depth c w → ∃ ids w', x w = .ok a w' ∧ Drawn c ids ts w w'

variable {c : Nat} {ids ids' : List Nat} {ts us : List Tree} {w w' w'' : World} {depth levels : Nat} {tag : String}
  {α : Type} {a : α} {spot : Spot} (setting : Setting) (defs : Array Definition)

lemma Drawn.refl (c : Nat) (w : World) : Drawn c [] [] w w := ⟨.refl _ _, {}⟩

lemma CanDraw.drawn (hw : CanDraw depth c w) (h : Drawn c ids ts w w') : CanDraw depth c w' where
  depth_eq := h.nesting.depth_eq.trans hw.depth_eq
  recovering_eq := h.nesting.recovering_eq.trans hw.recovering_eq
  lt_size := Nat.lt_of_lt_of_le hw.lt_size h.grafted.size_le

lemma Drawn.trans (hc : c < w.host.document.nodes.size) (h : Drawn c ids ts w w')
    (h' : Drawn c ids' us w' w'') : Drawn c (ids ++ ids') (ts ++ us) w w'' where
  grafted := h.grafted.trans hc h'.grafted
  nesting := h.nesting.trans h'.nesting

lemma Drawn.into {p : Nat} {attrs : List (String × String)} (hc : c < w.host.document.nodes.size)
    (h : Drawn c [p] [.element tag attrs ts] w w') (h' : Drawn p ids us w' w'') :
    Drawn c [p] [.element tag attrs (ts ++ us)] w w'' where
  grafted := h.grafted.into hc h'.grafted
  nesting := h.nesting.trans h'.nesting

lemma Drawn.holds (h : Drawn c ids ts w w') {n : Node} (hnode : w.host.document.node? c = some n)
    (hkind : n.kind = .element tag) (hempty : n.children = #[]) :
    w'.host.document.Holds c (.element tag n.attributes.entries ts) := by
  have hlook : w'.host.document.look? c = some { n.look with children := ids } := by
    rw [h.grafted.grown, look?_of_node? hnode]
    simp [Node.look, hempty]
  exact holds_element_of_look? hlook hkind h.grafted.newly.holds

lemma bind_of_ok {ε σ β : Type} {x : EStateM ε σ α} {f : α → EStateM ε σ β} {s s' : σ}
    (h : x s = .ok a s') : (x >>= f) s = f a s' := by
  simp [bind, EStateM.bind, h]

namespace Draws

variable {α β : Type} {depth : Nat}

lemma pure (a : α) : Draws depth c (pure a) a [] := fun w _ => ⟨[], w, rfl, .refl c w⟩

lemma bind {x : RenderM α} {f : α → RenderM β} {a : α} {b : β} (hx : Draws depth c x a ts)
    (hf : Draws depth c (f a) b us) : Draws depth c (x >>= f) b (ts ++ us) := by
  intro w hcan
  obtain ⟨ids, w', hw, hdrawn⟩ := hx w hcan
  obtain ⟨ids', w'', hw', hdrawn'⟩ := hf w' (hcan.drawn hdrawn)
  exact ⟨ids ++ ids', w'', (bind_of_ok hw).trans hw', hdrawn.trans hcan.lt_size hdrawn'⟩

end Draws

section Texts

variable {depth : Nat}

lemma draws_appendText (c : Nat) (s : String) : Draws depth c (appendText c s) () (textTrees s) := by
  intro w hcan
  unfold appendText textTrees
  by_cases hs : s.isEmpty = true
  · exact ⟨[], w, by simp only [hs, if_true]; rfl, by simpa only [hs, if_true] using .refl c w⟩
  · refine ⟨[w.host.document.nodes.size], _, by simp only [hs]; rfl, ?_, {}⟩
    simp only [hs]
    exact (Blank.create w.host.document (.text s)).grafted_text hcan.lt_size

lemma drawn_appendElement (tag : String) (hc : c < w.host.document.nodes.size) :
    ∃ w', appendElement c tag w = .ok w.host.document.nodes.size w' ∧
      Drawn c [w.host.document.nodes.size] [.element (Text.lowerAsciiText tag) [] []] w w' := by
  exact ⟨_, rfl, (Blank.create w.host.document (.element (Text.lowerAsciiText tag))).grafted_element hc, {}⟩

lemma draws_appendBreaks (c n : Nat) : Draws depth c (appendBreaks c n) () (List.replicate n breakTree) := by
  induction n with
  | zero => exact .pure ()
  | succ n ih =>
    intro w hcan
    obtain ⟨w', hw, hdrawn⟩ := drawn_appendElement "br" hcan.lt_size
    obtain ⟨ids, w'', hw', hdrawn'⟩ := ih w' (hcan.drawn hdrawn)
    have hbreak : Text.lowerAsciiText "br" = "br" := by decide +kernel
    rw [hbreak] at hdrawn
    exact ⟨_, w'', (bind_of_ok hw).trans hw', hdrawn.trans hcan.lt_size hdrawn'⟩

lemma draws_appendPieces (c n : Nat) (pieces : List String) :
    Draws depth c (appendPieces c n pieces) () (pieceTrees n pieces) := by
  induction pieces with
  | nil => exact .pure ()
  | cons s rest ih =>
    cases rest with
    | nil => exact draws_appendText c s
    | cons s' rest =>
      rw [pieceTrees, List.append_assoc]
      · exact (draws_appendText c s).bind ((draws_appendBreaks c n).bind ih)
      · simp

lemma draws_emitText (c : Nat) (s : String) (mode : NewlineMode) :
    Draws depth c (emitText c s mode) () (emitTrees mode s) := by
  cases mode with
  | block => exact draws_appendText c s
  | inline => exact draws_appendPieces c 2 _
  | allBreaks => exact draws_appendPieces c 1 _
  | noBreaks => exact draws_appendText c s

lemma draws_renderText (spot : Spot) (s : String) :
    Draws depth spot.container (renderText spot s) .normal (emitTrees spot.mode s) := by
  have h : Draws depth spot.container (renderText spot s) .normal (emitTrees spot.mode s ++ []) :=
    (draws_emitText spot.container s spot.mode).bind (.pure Signal.normal)
  rwa [List.append_nil] at h

end Texts

section Nodes

variable {depth : Nat} {defs : Array Definition} {r : Renderer} {spot : Spot}

def onDocument (w : World) (d : Document) : World := { w with host := { w.host with document := d } }

lemma draws_renderLink (target label : String) (loc : Location) :
    Draws depth spot.container (renderLink r spot target label loc) .normal
      [linkTree r.setting.passages.contains target label] := by
  intro w hcan
  -- The link gets its attributes and its label before it is put into the container.
  let p := w.host.document.nodes.size
  let kind := if r.setting.passages.contains target then "link" else "link broken"
  let made := (((w.host.document.createElement "a").2.setAttribute p "class" kind).setAttribute p "data-passage" target)
  have hblank : w.host.document.Blank made p _ _ :=
    ((Blank.create w.host.document _).setAttribute "class" kind).setAttribute "data-passage" target
  obtain ⟨ids, w', hw, hlabel⟩ := draws_appendText p label (onDocument w made)
    ⟨hcan.depth_eq, hcan.recovering_eq, lt_size_of_look? hblank.look_eq⟩
  have hkept := hblank.kept.grafted hblank.new hlabel.grafted
  have hnew := hblank.newly_element hlabel.grafted
  have hfree := (hlabel.grafted.parent_eq _ (lt_size_of_look? hblank.look_eq)).trans hblank.free
  have ha : Text.lowerAsciiText "a" = "a" := by decide +kernel
  rw [ha] at hnew
  refine ⟨[p], _, bind_of_ok hw, ?_,
    ⟨hlabel.nesting.depth_eq, hlabel.nesting.loops_eq, hlabel.nesting.recovering_eq⟩⟩
  refine (hkept.subscribe "click" (w'.host.created + 1)).grafted_append hcan.lt_size ?_ ?_
  · exact hnew.frame fun x _ _ => look?_subscribe _ _ _ _ _
  · exact (parent?_subscribe _ _ _ _ _).trans hfree

lemma forM_setAttribute (p : Nat) (es : List (String × String)) (w : World) :
    (es.forM fun (k, v) => setAttribute p k v) w =
      .ok () (onDocument w (es.foldl (fun d a => d.setAttribute p a.1 a.2) w.host.document)) := by
  induction es generalizing w with
  | nil => rfl
  | cons a es ih => exact ih _

lemma draws_rawContent (p : Nat) (content : List Template) :
    Draws depth p (content.forM fun
      | .text s _ => appendText p s
      | _ => pure ()) () (rawTrees content) := by
  induction content with
  | nil => exact .pure ()
  | cons t rest ih =>
    cases t with
    | text s loc => exact (draws_appendText p s).bind ih
    | _ => exact (Draws.pure ()).bind ih

variable (spot) in
lemma draws_renderElement {name : String} {attrs : Bindings String} {dyn : Bindings Markup.ExprSource}
    {content : List Template} {loc : Location} (hdynamic : dyn.isEmpty = true)
    (hcontent : Markup.rawTags.contains name = false →
      ∀ p, Draws depth p (r.nodes { spot with container := p } content) .normal us) :
    Draws depth spot.container (renderElement r spot name attrs dyn content loc) .normal
      [.element (Text.lowerAsciiText name) attrs.entries
        (if Markup.rawTags.contains name then rawTrees content else us)] := by
  intro w hcan
  let p := w.host.document.nodes.size
  let made := attrs.entries.foldl (fun d a => d.setAttribute p a.1 a.2) (w.host.document.createElement name).2
  have hblank : w.host.document.Blank made p _ _ := (Blank.create w.host.document _).setAttributes _
  have hadded : Drawn spot.container [p] [.element (Text.lowerAsciiText name) attrs.entries []] w
      (onDocument w (made.append spot.container p)) := by
    refine ⟨?_, {}⟩
    have hentries : (Bindings.empty.insertAll attrs.entries).entries = attrs.entries :=
      Bindings.entries_insertAll .empty attrs.distinct
    exact hentries ▸ hblank.grafted_element hcan.lt_size
  have hstart : renderElement r spot name attrs dyn content loc w =
      (if Markup.rawTags.contains name then do
        content.forM fun
          | .text s _ => appendText p s
          | _ => pure ()
        return .normal
      else r.nodes { spot with container := p } content) (onDocument w (made.append spot.container p)) := by
    have hnone : dyn.entries = [] := by simpa [Bindings.isEmpty] using hdynamic
    unfold renderElement
    rw [hnone]
    exact bind_of_ok (forM_setAttribute p attrs.entries (onDocument w (w.host.document.createElement name).2))
  have hinto : CanDraw depth p (onDocument w (made.append spot.container p)) := by
    refine ⟨hcan.depth_eq, hcan.recovering_eq, ?_⟩
    change p < (made.append spot.container p).nodes.size
    rw [size_append]
    exact lt_size_of_look? hblank.look_eq
  rw [hstart]
  cases hraw : Markup.rawTags.contains name with
  | true =>
    obtain ⟨ids, w', hw, hinside⟩ := draws_rawContent p content _ hinto
    exact ⟨[p], w', bind_of_ok hw, hadded.into hcan.lt_size hinside⟩
  | false =>
    obtain ⟨ids, w', hw, hinside⟩ := hcontent hraw p _ hinto
    exact ⟨[p], w', hw, hadded.into hcan.lt_size hinside⟩

def DrawsBelow (r : Renderer) (depth height : Nat) : Prop :=
  ∀ (spot : Spot) (content : List Template), allPlain content = true → nestingOf content + 1 ≤
    height → Draws depth spot.container (r.nodes spot content) .normal
      (sequenceTrees r.setting.passages.contains spot.mode content)

lemma sequenceTrees_nested (known : String → Bool) (mode : NewlineMode) (ts : List Template) :
    sequenceTrees known mode.nested ts = eachTrees known mode.nested ts := by
  cases mode <;> rfl

variable (defs spot) in
lemma draws_renderNode (hr : DrawsBelow r depth height) (hplain : isPlain t = true)
    (hheight : nestingOf [t] ≤ height) :
    Draws depth spot.container (renderNode defs r spot t) .normal
      (nodeTrees r.setting.passages.contains spot.mode t) := by
  cases t with
  | text s loc =>
    rw [nodeTrees]
    exact draws_renderText spot s
  | link target label loc =>
    rw [nodeTrees]
    exact draws_renderLink target label loc
  | element name attrs dyn content loc =>
    rw [isPlain, Bool.and_eq_true] at hplain
    rw [nodeTrees]
    refine draws_renderElement { spot with mode := spot.mode.nested } hplain.1 fun hraw p => ?_
    rw [← sequenceTrees_nested]
    refine hr { spot with mode := spot.mode.nested, container := p } content hplain.2 ?_
    simp only [nestingOf, Template.nestingAll, Template.nesting, hraw, Bool.false_eq_true, if_false] at hheight ⊢
    omega
  | reference | chain | error => simp [isPlain] at hplain

lemma nestingOf_pos (ts : List Template) : 1 ≤ nestingOf ts := by
  cases ts with
  | nil => exact le_rfl
  | cons t rest =>
    simp only [nestingOf, Template.nestingAll]
    omega

lemma nestingOf_cons_le (h : nestingOf (t :: rest) ≤ height) : nestingOf [t] ≤ height ∧ nestingOf rest ≤ height := by
  simp only [nestingOf, Template.nestingAll] at h ⊢
  omega

lemma draws_renderEach (hr : DrawsBelow r depth height) {ts : List Template}
    (hplain : allPlain ts = true) (hheight : nestingOf ts ≤ height) :
    Draws depth spot.container (renderEach defs r spot ts) .normal
      (eachTrees r.setting.passages.contains spot.mode ts) := by
  induction ts with
  | nil =>
    rw [eachTrees]
    exact .pure _
  | cons t rest ih =>
    rw [allPlain, Bool.and_eq_true] at hplain
    obtain ⟨hfirst, hrest⟩ := nestingOf_cons_le hheight
    rw [eachTrees]
    exact (draws_renderNode defs spot hr hplain.1 hfirst).bind (ih hplain.2 hrest)

end Nodes

/-! Paragraphs. The paragraph that is open is the last child of the container. -/

section Paragraphs

variable {depth : Nat} {defs : Array Definition} {r : Renderer} {spot : Spot} {para : Option Nat}
  {content : Option (List Tree)}

lemma isNone_eq_of_drawn (h : Drawn c para.toList (closing content) w w') : para.isNone = content.isNone := by
  cases para <;> cases content <;> first | rfl | nomatch h.grafted.newly.holds

lemma drawn_inParagraph {x : Nat → RenderM α} (hcan : CanDraw depth c w)
    (hx : ∀ p, Draws depth p (x p) a us) (hopen : Drawn c para.toList (closing content) w w') :
    ∃ p w₁ w₂, openParagraph c para w' = .ok p w₁ ∧ x p w₁ = .ok a w₂ ∧
      Drawn c [p] (closing (some (content.getD [] ++ us))) w w₂ := by
  have hnone := isNone_eq_of_drawn hopen
  obtain ⟨p, w₁, hw₁, hopened⟩ : ∃ p w₁, openParagraph c para w' = .ok p w₁ ∧
      Drawn c [p] [.element "p" [] (content.getD [])] w w₁ := by
    cases para with
    | none =>
      obtain rfl : content = none := Option.isNone_iff_eq_none.1 hnone.symm
      obtain ⟨w₁, hw₁, hdrawn⟩ := drawn_appendElement "p" (hcan.drawn hopen).lt_size
      have hp : Text.lowerAsciiText "p" = "p" := by decide +kernel
      exact ⟨_, w₁, hw₁, hp ▸ hopen.trans hcan.lt_size hdrawn⟩
    | some p =>
      obtain ⟨trees, rfl⟩ : ∃ trees, content = some trees := Option.isSome_iff_exists.1 (by simpa using hnone)
      exact ⟨p, w', rfl, hopen⟩
  have hdrawn := hcan.drawn hopened
  have hp : p < w₁.host.document.nodes.size := hopened.grafted.newly.lt_size (List.mem_singleton_self p) .refl
  obtain ⟨ids, w₂, hw₂, hinside⟩ := hx p w₁ ⟨hdrawn.depth_eq, hdrawn.recovering_eq, hp⟩
  exact ⟨p, w₁, w₂, hw₁, hw₂, hopened.into hcan.lt_size hinside⟩

lemma drawn_blockPiece (s : String) (hcan : CanDraw depth c w)
    (hopen : Drawn c para.toList (closing content) w w') :
    ∃ paragraph' w'', blockPiece c para s w' = .ok paragraph' w'' ∧
      Drawn c paragraph'.toList (closing (blockPieceTrees content s)) w w'' := by
  have hnone := isNone_eq_of_drawn hopen
  unfold blockPiece blockPieceTrees
  rw [hnone]
  by_cases hskip : (s.isEmpty || (Text.isBlankText s && content.isNone)) = true
  · rw [if_pos hskip, if_pos hskip]
    exact ⟨para, w', rfl, hopen⟩
  · rw [if_neg hskip, if_neg hskip]
    obtain ⟨p, w₁, w₂, hw₁, hw₂, hdrawn⟩ := drawn_inParagraph hcan (fun p => draws_appendText p s) hopen
    exact ⟨some p, w₂, (bind_of_ok hw₁).trans (bind_of_ok hw₂), hdrawn⟩

lemma drawn_blockText (pieces : List String) (hcan : CanDraw depth c w)
    (hopen : Drawn c para.toList (closing content) w w') :
    ∃ ids w₁ paragraph' w₂, blockText c para pieces w' = .ok paragraph' w₂ ∧
      Drawn c ids (blockTextTrees content pieces).1 w w₁ ∧
      Drawn c paragraph'.toList (closing (blockTextTrees content pieces).2) w₁ w₂ := by
  induction pieces generalizing para content w w' with
  | nil => exact ⟨[], w, para, w', rfl, .refl c w, hopen⟩
  | cons s rest ih =>
    obtain ⟨paragraph₁, w₁, hw₁, hpiece⟩ := drawn_blockPiece s hcan hopen
    cases rest with
    | nil => exact ⟨[], w, paragraph₁, w₁, hw₁, .refl c w, hpiece⟩
    | cons s' rest =>
      have hnew : Drawn c (none : Option Nat).toList (closing none) w₁ w₁ := .refl c w₁
      obtain ⟨ids, w₂, paragraph₂, w₃, hw₃, hclosed, hlast⟩ := ih (hcan.drawn hpiece) hnew
      exact ⟨paragraph₁.toList ++ ids, w₂, paragraph₂, w₃, (bind_of_ok hw₁).trans hw₃,
        hpiece.trans hcan.lt_size hclosed, hlast⟩

lemma renderBlock_of_item {paragraph' : Option Nat}
    (h : renderBlockItem defs r spot para t rest w = .ok (.normal, paragraph') w') :
    renderBlock defs r spot para (t :: rest) w = renderBlock defs r spot paragraph' rest w' :=
  bind_of_ok h

lemma drawn_itemInParagraph (hr : DrawsBelow r depth height) (hplain : isPlain t = true)
    (hheight : nestingOf [t] ≤ height)
    (hitem : renderBlockItem defs r spot para t rest =
      do
        let p ← openParagraph spot.container para
        return (← renderNode defs r { spot with container := p, mode := .inline } t, some p))
    (hcan : CanDraw depth spot.container w) (hopen : Drawn spot.container para.toList (closing content) w w') :
    ∃ p w₂, renderBlockItem defs r spot para t rest w' = .ok (.normal, some p) w₂ ∧
      Drawn spot.container [p]
        (closing (some (content.getD [] ++ nodeTrees r.setting.passages.contains .inline t))) w w₂ := by
  have hx : ∀ p, Draws depth p (renderNode defs r { spot with container := p, mode := .inline } t)
      .normal (nodeTrees r.setting.passages.contains .inline t) := fun p =>
    draws_renderNode defs { spot with container := p, mode := .inline } hr hplain hheight
  obtain ⟨p, w₁, w₂, hw₁, hw₂, hdrawn⟩ := drawn_inParagraph hcan hx hopen
  rw [hitem]
  exact ⟨p, w₂, (bind_of_ok hw₁).trans (bind_of_ok hw₂), hdrawn⟩

lemma drawn_renderBlock (hr : DrawsBelow r depth height) (hmode : spot.mode = .block) {ts : List Template}
    (hplain : allPlain ts = true) (hheight : nestingOf ts ≤ height) (hcan : CanDraw depth spot.container w)
    (hopen : Drawn spot.container para.toList (closing content) w w') :
    ∃ ids w'', renderBlock defs r spot para ts w' = .ok .normal w'' ∧
      Drawn spot.container ids (blockTrees r.setting.passages.contains content ts) w w'' := by
  induction ts generalizing para content w w' with
  | nil => exact ⟨_, w', rfl, hopen⟩
  | cons t rest ih =>
    rw [allPlain, Bool.and_eq_true] at hplain
    obtain ⟨hfirst, hrest⟩ := nestingOf_cons_le hheight
    have ih := fun para content w w' => @ih w w' para content hplain.2 hrest
    cases t with
    | text s loc =>
      obtain ⟨ids, w₁, paragraph', w₂, hw₂, hclosed, hlast⟩ := drawn_blockText (paragraphs s) hcan hopen
      obtain ⟨ids', w₃, hw₃, hdrawn⟩ := ih _ _ _ _ (hcan.drawn hclosed) hlast
      exact ⟨ids ++ ids', w₃, (renderBlock_of_item (bind_of_ok hw₂)).trans hw₃, hclosed.trans hcan.lt_size hdrawn⟩
    | link target label loc =>
      obtain ⟨p, w₁, hw₁, hitem⟩ := drawn_itemInParagraph hr hplain.1 hfirst rfl hcan hopen
      obtain ⟨ids, w₂, hw₂, hdrawn⟩ := ih (some p) _ _ _ hcan hitem
      exact ⟨ids, w₂, (renderBlock_of_item hw₁).trans hw₂, hdrawn⟩
    | element name attrs dyn inside loc =>
      by_cases hblock : Markup.blockTags.contains name = true
      · -- An element that never stands in a paragraph ends the one that is open.
        obtain ⟨ids, w₁, hw₁, helement⟩ := draws_renderNode defs spot hr hplain.1 hfirst w' (hcan.drawn hopen)
        have hdone := hopen.trans hcan.lt_size helement
        have hitem : renderBlockItem defs r spot para (.element name attrs dyn inside loc) rest w' =
            .ok (.normal, none) w₁ := by
          simp only [renderBlockItem, hblock, if_true]
          exact bind_of_ok hw₁
        obtain ⟨ids', w₂, hw₂, hdrawn⟩ := ih none none w₁ w₁ (hcan.drawn hdone) (.refl _ w₁)
        refine ⟨para.toList ++ ids ++ ids', w₂, (renderBlock_of_item hitem).trans hw₂, ?_⟩
        rw [blockTrees]
        simp only [hblock, if_true, ← hmode]
        exact hdone.trans hcan.lt_size hdrawn
      · have hinline : renderBlockItem defs r spot para (.element name attrs dyn inside loc) rest = do
            let p ← openParagraph spot.container para
            return (← renderNode defs r { spot with container := p, mode := .inline }
              (.element name attrs dyn inside loc), some p) := by
          simp only [renderBlockItem, hblock]
          rfl
        obtain ⟨p, w₁, hw₁, hitem⟩ := drawn_itemInParagraph hr hplain.1 hfirst hinline hcan hopen
        obtain ⟨ids, w₂, hw₂, hdrawn⟩ := ih (some p) _ _ _ hcan hitem
        refine ⟨ids, w₂, (renderBlock_of_item hw₁).trans hw₂, ?_⟩
        rw [blockTrees]
        simp only [hblock]
        exact hdrawn
    | reference | chain | error => simp [isPlain] at hplain

lemma draws_renderSequence (hr : DrawsBelow r depth height) {ts : List Template}
    (hplain : allPlain ts = true) (hheight : nestingOf ts ≤ height) :
    Draws depth spot.container (renderSequence defs r spot ts) .normal
      (sequenceTrees r.setting.passages.contains spot.mode ts) := by
  have heach : Draws depth spot.container (renderEach defs r spot ts) .normal _ :=
    draws_renderEach hr hplain hheight
  unfold renderSequence sequenceTrees
  cases hmode : spot.mode with
  | block => exact fun w hcan => drawn_renderBlock hr hmode hplain hheight hcan (.refl _ w)
  | inline | allBreaks | noBreaks => rwa [hmode] at heach

end Paragraphs

/-! All levels. -/

lemma draws_nested (recoveryDepth : Nat) {x : RenderM α} (hx : Draws (depth + 1) c x a ts) :
    Draws depth c (nested recoveryDepth x) a ts := by
  intro w hcan
  obtain ⟨ids, w', hw, hdrawn⟩ := hx { w with host := { w.host with depth := w.host.depth + 1 } }
    ⟨congrArg (· + 1) hcan.depth_eq, hcan.recovering_eq, hcan.lt_size⟩
  have hdepth := hdrawn.nesting.depth_eq
  have hrecovering := hdrawn.nesting.recovering_eq
  simp only [hcan.recovering_eq] at hdepth hrecovering
  refine ⟨ids, { w' with host := { w'.host with
    depth := w'.host.depth - 1, recovering := w'.host.recovering && decide (w'.host.depth - 1 > recoveryDepth) } },
    by simp [nested, hw], hdrawn.grafted, ?_, hdrawn.nesting.loops_eq, ?_⟩
  · change w'.host.depth - 1 = w.host.depth
    omega
  · change (w'.host.recovering && _) = w.host.recovering
    rw [hrecovering, hcan.recovering_eq, Bool.false_and]

lemma draws_plain {ts : List Template} (hplain : allPlain ts = true) (hlevels : nestingOf ts ≤ levels)
    (hdepth : depth + nestingOf ts ≤ setting.config.recursionLimit) :
    Draws depth spot.container ((renderer setting defs levels).nodes spot ts) .normal
      (sequenceTrees setting.passages.contains spot.mode ts) := by
  induction levels generalizing depth spot ts with
  | zero =>
    have hpos := nestingOf_pos ts
    omega
  | succ levels ih =>
    have hpos := nestingOf_pos ts
    have hbelow : DrawsBelow (renderer setting defs levels) (depth + 1) (nestingOf ts) := by
      intro spot content hcontent hheight
      rw [renderer_setting]
      exact ih hcontent (by omega) (by omega)
    have hsequence : Draws (depth + 1) spot.container
        (renderSequence defs (renderer setting defs levels) spot ts) .normal _ :=
      draws_renderSequence hbelow hplain le_rfl
    rw [renderer_setting] at hsequence
    intro w hcan
    obtain ⟨ids, w', hw, hdrawn⟩ := draws_nested setting.config.recoveryDepth hsequence w hcan
    refine ⟨ids, w', ?_, hdrawn⟩
    have hfree : ¬ w.host.depth ≥ setting.config.recursionLimit := by
      rw [hcan.depth_eq]
      omega
    change renderNodes defs (renderer setting defs levels) spot ts w = _
    simp only [renderNodes, renderer_setting, bind_stage, hcan.recovering_eq, hfree]
    exact hw

lemma draws_nodes {ts : List Template} (hstatic : allStatic ts = true) (hlevels : nestingOf ts ≤ levels)
    (hdepth : depth + nestingOf ts ≤ setting.config.recursionLimit) :
    Draws depth spot.container ((renderer setting defs levels).nodes spot ts) .normal
      (sequenceTrees setting.passages.contains spot.mode ts) :=
  draws_plain setting defs (allPlain_of_allStatic hstatic) hlevels hdepth

end StoryMarkup.Render
