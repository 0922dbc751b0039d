import StoryMarkup.Proofs.Render.Drawing
import StoryMarkup.Session

/-! Literal text is kept, but for blanks where line breaks do not stay text. -/
namespace StoryMarkup.Render

open List

open Document (Tree)
open Markup (Template)
variable {ts : List Template} (known : String → Bool) (para : Option (List Tree)) (mode : NewlineMode) (s : String)
  (cs : List Char) {p : Char → Bool}

/-- A character that is seen. -/
def isInk (c : Char) : Bool := !Text.isBlank c

def literal : Template → List Char
  | .text s _ => s.toList
  | .link _ label _ => label.toList
  | _ => []

def literalText (ts : List Template) : List Char := (Template.walkAll ts).flatMap literal

/-! Paragraphs and lines. -/

lemma isInk_of_isGap {c : Char} (h : isGap c = true) : isInk c = false := by
  simp only [isGap, Bool.or_eq_true, beq_iff_eq] at h
  obtain (rfl | rfl) | rfl := h <;> decide

lemma filter_isInk_drop_gap : (cs.drop (cs.takeWhile isGap).length).filter isInk = cs.filter isInk := by
  induction cs with
  | nil => rfl
  | cons c cs ih =>
    by_cases hc : isGap c = true
    · rw [takeWhile_cons_of_pos hc, length_cons, drop_succ_cons, ih,
        filter_cons_of_neg (by simp [isInk_of_isGap hc])]
    · rw [takeWhile_cons_of_neg hc, length_nil, drop_zero]

lemma filter_isInk_lineBreak : ('\n' :: cs).filter isInk = cs.filter isInk :=
  filter_cons_of_neg (by decide)

lemma filter_isInk_paragraphsFrom (skip : Nat) (piece cs : List Char) :
    (paragraphsFrom skip piece cs).flatten.filter isInk = (piece.reverse ++ cs.drop skip).filter isInk := by
  fun_induction paragraphsFrom skip piece cs with
  | case1 => simp
  | case2 skip piece c cs ih => simpa only [drop_succ_cons] using ih
  | case3 piece c cs hc gap hgap ih =>
    obtain rfl : c = '\n' := by simpa using hc
    rw [flatten_cons, filter_append, ih, reverse_nil, nil_append, filter_isInk_drop_gap,
      drop_zero, filter_append, filter_isInk_lineBreak]
  | case4 piece c cs hc gap hgap ih =>
    rwa [reverse_cons, append_assoc, drop_zero, singleton_append] at ih
  | case5 piece c cs hc ih => rwa [reverse_cons, append_assoc, drop_zero, singleton_append] at ih

lemma filter_isInk_splitFrom (piece cs : List Char) :
    (Text.splitFrom ['\n'] 0 piece cs).flatten.filter isInk = (piece.reverse ++ cs).filter isInk := by
  induction cs generalizing piece with
  | nil => simp [Text.splitFrom]
  | cons c cs ih =>
    by_cases hc : c = '\n'
    · subst hc
      have hstep : Text.splitFrom ['\n'] 0 piece ('\n' :: cs) = piece.reverse :: Text.splitFrom ['\n'] 0 [] cs := rfl
      rw [hstep, flatten_cons, filter_append, ih, reverse_nil, nil_append, filter_append,
        filter_isInk_lineBreak]
    · have hstep : Text.splitFrom ['\n'] 0 piece (c :: cs) = Text.splitFrom ['\n'] 0 (c :: piece) cs := by
        simp [Text.splitFrom, isPrefixOf, Ne.symm hc]
      rw [hstep, ih, reverse_cons, append_assoc, singleton_append]

/-! Trees. -/

lemma literalAll_append (ts us : List Tree) :
    Tree.literalAll (ts ++ us) = Tree.literalAll ts ++ Tree.literalAll us := by
  induction ts with
  | nil => rfl
  | cons t ts ih => rw [cons_append, Tree.literalAll, ih, Tree.literalAll, append_assoc]

lemma literalAll_textTrees : Tree.literalAll (textTrees s) = s.toList := by
  unfold textTrees
  split
  · next hs => simp [String.isEmpty_iff.1 hs, Tree.literalAll]
  · simp [Tree.literalAll, Tree.literal]

lemma literalAll_breaks (n : Nat) : Tree.literalAll (replicate n breakTree) = [] := by
  induction n with
  | zero => rfl
  | succ n ih => rw [replicate_succ, Tree.literalAll, ih]; rfl

lemma literalAll_pieceTrees (n : Nat) (pieces : List String) :
    Tree.literalAll (pieceTrees n pieces) = pieces.flatMap String.toList := by
  fun_induction pieceTrees n pieces with
  | case1 => rfl
  | case2 s => simp [literalAll_textTrees]
  | case3 s rest hrest ih =>
    rw [literalAll_append, literalAll_append, literalAll_textTrees, literalAll_breaks, ih, append_nil,
      flatMap_cons]

lemma literalText_cons (t : Template) (rest : List Template) :
    literalText (t :: rest) = literalText [t] ++ literalText rest := by
  simp [literalText, Template.walkAll]

lemma literalText_text (loc : Markup.Location) : literalText [.text s loc] = s.toList := by
  simp [literalText, Template.walkAll, Template.walk, literal]

lemma literalText_link (target label : String) (loc : Markup.Location) :
    literalText [.link target label loc] = label.toList := by
  simp [literalText, Template.walkAll, Template.walk, literal]

lemma literalText_element (name : String) (attrs : Bindings String) (dyn : Bindings Markup.ExprSource)
    (content : List Template) (loc : Markup.Location) :
    literalText [.element name attrs dyn content loc] = literalText content := by
  simp [literalText, Template.walkAll, Template.walk, literal]

lemma literalAll_rawTrees {content : List Template} (h : content.all Template.isText = true) :
    Tree.literalAll (rawTrees content) = literalText content := by
  induction content with
  | nil => rfl
  | cons t rest ih =>
    rw [all_cons, Bool.and_eq_true] at h
    cases t with
    | text s loc => rw [rawTrees, literalAll_append, literalAll_textTrees, ih h.2, literalText_cons, literalText_text]
    | _ => simp [Template.isText] at h

lemma flatMap_toList_ofList (pieces : List (List Char)) :
    (pieces.map String.ofList).flatMap String.toList = pieces.flatten := by
  simp [flatMap_map]

lemma filter_isInk_paragraphs : ((paragraphs s).flatMap String.toList).filter isInk = s.toList.filter isInk := by
  rw [paragraphs, flatMap_toList_ofList, filter_isInk_paragraphsFrom]
  rfl

lemma filter_isInk_emitTrees : (Tree.literalAll (emitTrees mode s)).filter isInk = s.toList.filter isInk := by
  cases mode with
  | block | noBreaks => rw [emitTrees, literalAll_textTrees]
  | inline => rw [emitTrees, literalAll_pieceTrees, filter_isInk_paragraphs]
  | allBreaks =>
    rw [emitTrees, literalAll_pieceTrees, lines, flatMap_toList_ofList, Text.splitAt, filter_isInk_splitFrom]
    rfl

/-- A treatment of line breaks drops no characters of some kind, neither here nor inside
elements. -/
structure Spares (p : Char → Bool) (mode : NewlineMode) : Prop where
  here : ∀ s, (Tree.literalAll (emitTrees mode s)).filter p = s.toList.filter p
  inside : ∀ s, (Tree.literalAll (emitTrees mode.nested s)).filter p = s.toList.filter p

lemma Spares.nested {mode : NewlineMode} (h : Spares p mode) : Spares p mode.nested where
  here := h.inside
  inside := by
    have hnested : mode.nested.nested = mode.nested := by cases mode <;> rfl
    exact hnested.symm ▸ h.inside

lemma spares_isInk : Spares isInk mode :=
  ⟨filter_isInk_emitTrees mode, filter_isInk_emitTrees mode.nested⟩

lemma spares_noBreaks (p : Char → Bool) : Spares p .noBreaks := by
  have h (s : String) : (Tree.literalAll (emitTrees .noBreaks s)).filter p = s.toList.filter p := by
    rw [emitTrees, literalAll_textTrees]
  exact ⟨h, h⟩

mutual

theorem filter_nodeTrees (known : String → Bool) {mode : NewlineMode} (hmode : Spares p mode) (t : Template)
    (hstatic : isStatic t = true) :
    (Tree.literalAll (nodeTrees known mode t)).filter p = (literalText [t]).filter p := by
  match t with
  | .text s loc => rw [nodeTrees, hmode.here, literalText_text]
  | .link target label loc =>
    rw [nodeTrees, linkTree, Tree.literalAll, Tree.literal, literalAll_textTrees, literalText_link, Tree.literalAll,
      append_nil]
  | .element name attrs dyn content loc =>
    rw [isStatic, Bool.and_eq_true] at hstatic
    rw [nodeTrees, Tree.literalAll, Tree.literal, Tree.literalAll, append_nil, literalText_element]
    cases hraw : Markup.rawTags.contains name with
    | true =>
      simp only [hraw, if_true] at hstatic ⊢
      rw [literalAll_rawTrees hstatic.2]
    | false =>
      simp only [hraw, Bool.false_eq_true, if_false] at hstatic ⊢
      exact filter_eachTrees known hmode.nested content hstatic.2
  | .reference .. | .chain .. | .error .. => simp [isStatic] at hstatic

theorem filter_eachTrees (known : String → Bool) {mode : NewlineMode} (hmode : Spares p mode) (ts : List Template)
    (hstatic : allStatic ts = true) :
    (Tree.literalAll (eachTrees known mode ts)).filter p = (literalText ts).filter p := by
  match ts with
  | [] => rw [eachTrees]; rfl
  | t :: rest =>
    rw [allStatic, Bool.and_eq_true] at hstatic
    rw [eachTrees, literalAll_append, filter_append, filter_nodeTrees known hmode t hstatic.1,
      filter_eachTrees known hmode rest hstatic.2, ← filter_append, ← literalText_cons]

end

/-! Paragraphs that are open. -/

lemma literalAll_closing : Tree.literalAll (closing para) = Tree.literalAll (para.getD []) := by
  cases para with
  | none => rfl
  | some trees => simp [closing, Tree.literalAll, Tree.literal]

lemma filter_isInk_of_isBlankText {s : String} (h : Text.isBlankText s = true) : s.toList.filter isInk = [] := by
  rw [filter_eq_nil_iff]
  intro c hc
  simp [isInk, all_eq_true.1 h c hc]

lemma filter_isInk_blockPieceTrees :
    (Tree.literalAll (closing (blockPieceTrees para s))).filter isInk =
      (Tree.literalAll (closing para)).filter isInk ++ s.toList.filter isInk := by
  unfold blockPieceTrees
  split
  · next hskip =>
    rw [Bool.or_eq_true, Bool.and_eq_true] at hskip
    have hblank : s.toList.filter isInk = [] := by
      obtain hempty | ⟨hblank, -⟩ := hskip
      · simp [String.isEmpty_iff.1 hempty]
      · exact filter_isInk_of_isBlankText hblank
    rw [hblank, append_nil]
  · rw [literalAll_closing, literalAll_closing, Option.getD_some, literalAll_append, literalAll_textTrees,
      filter_append]

def blockTextClosed (para : Option (List Tree)) (pieces : List String) : List Tree :=
  (blockTextTrees para pieces).1 ++ closing (blockTextTrees para pieces).2

lemma filter_isInk_blockTextClosed (pieces : List String) :
    (Tree.literalAll (blockTextClosed para pieces)).filter isInk =
      (Tree.literalAll (closing para)).filter isInk ++ (pieces.flatMap String.toList).filter isInk := by
  induction pieces generalizing para with
  | nil => simp [blockTextClosed, blockTextTrees]
  | cons s rest ih =>
    cases rest with
    | nil => simp [blockTextClosed, blockTextTrees, filter_isInk_blockPieceTrees]
    | cons s' rest =>
      have hstep : blockTextClosed para (s :: s' :: rest) =
          closing (blockPieceTrees para s) ++ blockTextClosed none (s' :: rest) := by
        simp [blockTextClosed, blockTextTrees]
      rw [hstep, literalAll_append, filter_append, ih, filter_isInk_blockPieceTrees]
      simp [closing, Tree.literalAll]

lemma filter_isInk_blockTrees (hstatic : allStatic ts = true) :
    (Tree.literalAll (blockTrees known para ts)).filter isInk =
      (Tree.literalAll (closing para)).filter isInk ++ (literalText ts).filter isInk := by
  induction ts generalizing para with
  | nil => simp [blockTrees, literalText, Template.walkAll]
  | cons t rest ih =>
    rw [allStatic, Bool.and_eq_true] at hstatic
    have ih := fun para => ih para hstatic.2
    have hnode := fun mode => filter_nodeTrees known (spares_isInk mode) t hstatic.1
    -- A template in the paragraph that is open.
    let inParagraph := some (para.getD [] ++ nodeTrees known .inline t)
    have hinline : (Tree.literalAll (blockTrees known inParagraph rest)).filter isInk =
        (Tree.literalAll (closing para)).filter isInk ++ (literalText (t :: rest)).filter isInk := by
      rw [ih, literalAll_closing, literalAll_closing, Option.getD_some, literalAll_append, filter_append, hnode,
        literalText_cons t rest, filter_append, append_assoc]
    cases t with
    | text s loc =>
      have htext := filter_isInk_blockTextClosed para (paragraphs s)
      rw [blockTextClosed, literalAll_append, filter_append, filter_isInk_paragraphs] at htext
      rw [blockTrees, literalAll_append, filter_append, ih, ← append_assoc, htext, literalText_cons,
        literalText_text, filter_append, append_assoc]
    | link target label loc => exact hinline
    | element name attrs dyn content loc =>
      rw [blockTrees]
      by_cases hblock : Markup.blockTags.contains name = true
      · simp only [hblock, if_true]
        rw [literalAll_append, literalAll_append, filter_append, filter_append, hnode, ih,
          literalText_cons _ rest, filter_append, append_assoc]
        rfl
      · simp only [hblock]
        exact hinline
    | reference | chain | error => simp [isStatic] at hstatic

/-! What is drawn. -/

lemma filter_isInk_sequenceTrees (hstatic : allStatic ts = true) :
    (Tree.literalAll (sequenceTrees known mode ts)).filter isInk = (literalText ts).filter isInk := by
  cases mode with
  | block => exact filter_isInk_blockTrees known none hstatic
  | _ => exact filter_eachTrees known (spares_isInk _) ts hstatic

lemma literalAll_sequenceTrees_noBreaks (hstatic : allStatic ts = true) :
    Tree.literalAll (sequenceTrees known .noBreaks ts) = literalText ts := by
  have h := filter_eachTrees known (spares_noBreaks fun _ => true) ts hstatic
  rwa [filter_true, filter_true] at h

/-- Texts, links and elements of them are rendered to the end, outside a recursion that went too
deep and with depth enough left for them. An empty container then reads as they do, blanks apart,
and where line breaks stay text it reads as they do to the letter. -/
theorem literal_text_kept (session : Session) (spot : Spot) (ts : List Template) (w : World)
    {n : Document.Node} {tag : String} (hstatic : allStatic ts = true) (hrecovering : w.host.recovering = false)
    (hdepth : w.host.depth + nestingOf ts ≤ session.setting.config.recursionLimit)
    (hnode : w.host.document.node? spot.container = some n) (hkind : n.kind = .element tag)
    (hempty : n.children = #[]) :
    ∃ w', session.renderer.nodes spot ts w = .ok .normal w' ∧
      let text := (w'.host.document.textContent spot.container).toList
      text.filter isInk = (literalText ts).filter isInk ∧ (spot.mode = .noBreaks → text = literalText ts) := by
  have hlevels : nestingOf ts ≤ Session.levels session.setting.config := by
    rw [Session.levels]
    omega
  have hcan : CanDraw w.host.depth spot.container w :=
    ⟨rfl, hrecovering, Document.lt_size_of_look? (Document.look?_of_node? hnode)⟩
  obtain ⟨ids, w', hw, hdrawn⟩ := draws_nodes session.setting session.definitions hstatic hlevels hdepth w hcan
  refine ⟨w', hw, ?_⟩
  simp only [(hdrawn.holds hnode hkind hempty).toList_textContent]
  refine ⟨filter_isInk_sequenceTrees _ _ hstatic, fun hmode => ?_⟩
  rw [hmode]
  exact literalAll_sequenceTrees_noBreaks _ hstatic

/-- Paragraphs, a link, and an element whose text breaks inside it. -/
theorem tide_letter_kept : let session := Session.start (.ofList []) { recursionLimit := 2 } ⟨.empty, #[], true⟩ {} 1
    let loc : Markup.Location := ⟨"main", 1⟩
    let ts : List Template := [.text "The tide\n \n" loc, .link "Quay" "is in" loc,
      .element "em" .empty .empty [.text " at\n\nlast " loc] loc, .text "\n\n \n\nnow" loc]
    let spot : Spot := { temp := 0, container := Document.root, mode := .block }
    ∃ w', session.renderer.nodes spot ts session.world = .ok .normal w' ∧
      (w'.host.document.textContent Document.root).toList.filter isInk = "Thetideisinatlastnow".toList := by
  intro session loc ts spot
  obtain ⟨w', hw, htext, -⟩ := literal_text_kept session spot ts session.world (by decide) rfl (by decide) rfl rfl rfl
  exact ⟨w', hw, htext.trans (by decide)⟩

end StoryMarkup.Render
