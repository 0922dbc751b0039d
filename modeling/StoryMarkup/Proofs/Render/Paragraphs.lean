import StoryMarkup.Proofs.Render.Drawing
import StoryMarkup.Session

/-! Paragraphs of block mode: everything between two divisions stands in one paragraph. -/
namespace StoryMarkup.Render

open List

open Document (Tree)
open Markup (Template)

/-- What block mode goes through in the order of the templates: a piece of a text, a break between
two pieces, an element or a link that stands in a paragraph, or an element that does not. -/
inductive Flow where
  | piece (s : String)
  | pause
  | node (t : Template)
  | block (t : Template)

def isBlock : Template → Bool
  | .element name .. => Markup.blockTags.contains name
  | _ => false

def flowOf : Template → List Flow
  | .text s _ => ((paragraphs s).map .piece).intersperse .pause
  | t => [if isBlock t then .block t else .node t]

def flow (ts : List Template) : List Flow := ts.flatMap flowOf

namespace Flow

def joins : Flow → Bool
  | .piece _ | .node _ => true
  | .pause | .block _ => false

def isBlank : Flow → Bool
  | .piece s => Text.isBlankText s
  | _ => false

def block? : Flow → Option Template
  | .block t => some t
  | _ => none

def trees (known : String → Bool) : Flow → List Tree
  | .piece s => textTrees s
  | .pause => []
  | .node t => nodeTrees known .inline t
  | .block t => nodeTrees known .block t

end Flow

variable {known : String → Bool} {x : Flow} (trees : List Tree) (para : Option (List Tree)) (run : List Flow)
  (ts : List Template)

def paragraphTrees (known : String → Bool) (run : List Flow) : List Tree :=
  let shown := run.dropWhile Flow.isBlank
  if shown.isEmpty then [] else [.element "p" [] (shown.flatMap (Flow.trees known))]

/-! One paragraph. -/

lemma isEmpty_of_not_isBlankText {s : String} (h : Text.isBlankText s = false) : s.isEmpty = false := by
  cases hs : s.isEmpty with
  | false => rfl
  | true => simp [Text.isBlankText, String.isEmpty_iff.1 hs] at h

def joined (known : String → Bool) (para : Option (List Tree)) : Flow → Option (List Tree)
  | .piece s => blockPieceTrees para s
  | x => some (para.getD [] ++ x.trees known)

lemma joined_some (x : Flow) : joined known (some trees) x = some (trees ++ x.trees known) := by
  cases x with
  | piece s =>
    by_cases hs : s.isEmpty = true
    · simp [joined, blockPieceTrees, Flow.trees, textTrees, hs]
    · simp [joined, blockPieceTrees, Flow.trees, hs]
  | _ => rfl

lemma foldl_joined_some : run.foldl (joined known) (some trees) = some (trees ++ run.flatMap (Flow.trees known)) := by
  induction run generalizing trees with
  | nil => simp
  | cons x run ih => rw [foldl_cons, joined_some, ih, flatMap_cons, append_assoc]

lemma joined_none_of_isBlank (h : x.isBlank = true) : joined known none x = none := by
  cases x with
  | piece s =>
    have hblank : Text.isBlankText s = true := h
    simp [joined, blockPieceTrees, hblank]
  | _ => cases h

lemma joined_none_of_not_isBlank (h : x.isBlank = false) : joined known none x = some (x.trees known) := by
  cases x with
  | piece s =>
    have hblank : Text.isBlankText s = false := h
    simp [joined, blockPieceTrees, Flow.trees, hblank, isEmpty_of_not_isBlankText hblank]
  | _ => rfl

lemma closing_foldl_joined : closing (run.foldl (joined known) none) = paragraphTrees known run := by
  induction run with
  | nil => rfl
  | cons x run ih =>
    cases hx : x.isBlank with
    | true => rw [foldl_cons, joined_none_of_isBlank hx, ih, paragraphTrees, paragraphTrees, dropWhile_cons_of_pos hx]
    | false =>
      rw [foldl_cons, joined_none_of_not_isBlank hx, foldl_joined_some, paragraphTrees,
        dropWhile_cons_of_neg (by simp [hx])]
      rfl

/-! All paragraphs. -/

def flowTrees (known : String → Bool) (para : Option (List Tree)) : List Flow → List Tree
  | [] => closing para
  | x :: rest =>
    if x.joins then flowTrees known (joined known para x) rest
    else closing para ++ x.trees known ++ flowTrees known none rest

lemma flowTrees_pieces (pieces : List String) (rest : List Flow) :
    flowTrees known para ((pieces.map .piece).intersperse .pause ++ rest) =
      (blockTextTrees para pieces).1 ++ flowTrees known (blockTextTrees para pieces).2 rest := by
  induction pieces generalizing para with
  | nil => rfl
  | cons s pieces ih =>
    cases pieces with
    | nil => rfl
    | cons s' pieces =>
      have hstep : flowTrees known para (((s :: s' :: pieces).map .piece).intersperse .pause ++
          rest) = closing (blockPieceTrees para s) ++
            flowTrees known none (((s' :: pieces).map .piece).intersperse .pause ++ rest) := by
        simp [flowTrees, joined, Flow.joins, Flow.trees]
      have hpieces : blockTextTrees para (s :: s' :: pieces) =
          (closing (blockPieceTrees para s) ++ (blockTextTrees none (s' :: pieces)).1,
            (blockTextTrees none (s' :: pieces)).2) := rfl
      rw [hstep, ih, hpieces, append_assoc]

lemma blockTrees_eq : blockTrees known para ts = flowTrees known para (flow ts) := by
  induction ts generalizing para with
  | nil => rfl
  | cons t ts ih =>
    have hcons : flow (t :: ts) = flowOf t ++ flow ts := flatMap_cons
    cases t with
    | text s loc =>
      rw [blockTrees, hcons, flowOf, flowTrees_pieces]
      simp [ih]
    | element name attrs dyn content loc =>
      rw [blockTrees, hcons]
      by_cases hblock : Markup.blockTags.contains name = true
      · simp only [flowOf, isBlock, hblock, if_true, ih]
        rfl
      · simp only [flowOf, isBlock, hblock, ih]
        rfl
    | _ =>
      rw [hcons]
      exact ih _

variable (known) in
lemma exists_runs (xs : List Flow) (hrun : ∀ x ∈ run, x.joins = true) :
    ∃ (first : List Flow) (rest : List (Flow × List Flow)),
      run ++ xs = first ++ rest.flatMap (fun p => p.1 :: p.2) ∧
      (∀ x ∈ first ++ rest.flatMap (·.2), x.joins = true) ∧ (∀ x ∈ rest.map (·.1), x.joins = false) ∧
      flowTrees known (run.foldl (joined known) none) xs = paragraphTrees known first ++
        rest.flatMap fun p => p.1.trees known ++ paragraphTrees known p.2 := by
  induction xs generalizing run with
  | nil => exact ⟨run, [], by simp, by simpa using hrun, by simp, by simp [flowTrees, closing_foldl_joined]⟩
  | cons x xs ih =>
    cases hx : x.joins with
    | true =>
      obtain ⟨first, rest, hflow, hjoins, hparts, htrees⟩ := ih (run ++ [x])
        (by simpa [or_imp, forall_and, hx] using hrun)
      refine ⟨first, rest, by simpa using hflow, hjoins, hparts, ?_⟩
      rw [flowTrees, if_pos hx, ← htrees, foldl_append]
      rfl
    | false =>
      obtain ⟨first, rest, hflow, hjoins, hparts, htrees⟩ := ih [] (by simp)
      refine ⟨run, (x, first) :: rest, by simpa using hflow, ?_, by simpa [hx] using hparts, ?_⟩
      · rw [flatMap_cons, forall_mem_append]
        exact ⟨hrun, hjoins⟩
      · rw [foldl_nil] at htrees
        rw [flowTrees, if_neg (by simp [hx]), closing_foldl_joined, htrees]
        simp

/-! What is drawn. -/

def leads : Tree → Bool
  | .text s => !Text.isBlankText s
  | .element .. => true

lemma piece_or_pause {pieces : List String} (h : x ∈ (pieces.map Flow.piece).intersperse .pause) :
    x = .pause ∨ ∃ s, x = .piece s := by
  induction pieces with
  | nil => cases h
  | cons s pieces ih =>
    cases pieces with
    | nil => exact .inr ⟨s, mem_singleton.1 h⟩
    | cons s' pieces =>
      rw [map_cons, map_cons, intersperse_cons_cons] at h
      obtain rfl | h := mem_cons.1 h
      · exact .inr ⟨s, rfl⟩
      · obtain rfl | h := mem_cons.1 h
        · exact .inl rfl
        · exact ih h

lemma plain_of_mem_flow {ts : List Template} {t : Template} (hplain : allPlain ts = true)
    (h : .node t ∈ flow ts) : isPlain t = true ∧ t.isText = false := by
  induction ts with
  | nil => cases h
  | cons u ts ih =>
    rw [allPlain, Bool.and_eq_true] at hplain
    obtain h | h := mem_append.1 (flatMap_cons ▸ h : Flow.node t ∈ flowOf u ++ flow ts)
    · cases u with
      | text s loc => simpa using piece_or_pause h
      | link target label loc =>
        obtain rfl : t = _ := Flow.node.inj (mem_singleton.1 h)
        exact ⟨rfl, rfl⟩
      | element name attrs dyn content loc =>
        have h := mem_singleton.1 h
        split at h
        · cases h
        · cases h
          exact ⟨hplain.1, rfl⟩
      | _ => cases hplain.1
    · exact ih hplain.2 h

lemma filterMap_block?_flow : (flow ts).filterMap Flow.block? = ts.filter isBlock := by
  induction ts with
  | nil => rfl
  | cons t ts ih =>
    rw [flow, flatMap_cons, filterMap_append]
    change _ ++ (flow ts).filterMap Flow.block? = _
    rw [ih]
    cases t with
    | text s loc =>
      have hnone : (flowOf (.text s loc)).filterMap Flow.block? = [] := by
        refine filterMap_eq_nil_iff.2 fun x hx => ?_
        obtain rfl | ⟨s, rfl⟩ := piece_or_pause hx <;> rfl
      rw [hnone]
      rfl
    | element name attrs dyn content loc =>
      have helement : flowOf (.element name attrs dyn content loc) =
          [if isBlock (.element name attrs dyn content loc) then .block _ else .node _] := rfl
      rw [helement, filter_cons]
      cases isBlock (.element name attrs dyn content loc) <;> rfl
    | _ => rfl

lemma filterMap_block?_of_joins {run : List Flow} (h : ∀ x ∈ run, x.joins = true) : run.filterMap Flow.block? = [] := by
  refine filterMap_eq_nil_iff.2 fun x hx => ?_
  cases x with
  | block => cases h _ hx
  | _ => rfl

lemma filterMap_block?_runs {rest : List (Flow × List Flow)} (h : ∀ x ∈ rest.flatMap (·.2), x.joins = true) :
    (rest.flatMap fun p => p.1 :: p.2).filterMap Flow.block? = rest.filterMap (·.1.block?) := by
  induction rest with
  | nil => rfl
  | cons p rest ih =>
    rw [flatMap_cons, forall_mem_append] at h
    rw [flatMap_cons, cons_append, filterMap_cons, filterMap_append, filterMap_block?_of_joins h.1,
      ih h.2, filterMap_cons]
    rfl

lemma exists_leading {run : List Flow} {tree : Tree} (hjoins : ∀ x ∈ run, x.joins = true)
    (hnode : ∀ t, .node t ∈ run → isPlain t = true ∧ t.isText = false) (h : tree ∈ paragraphTrees known run) :
    ∃ first more, tree = .element "p" [] (first :: more) ∧ leads first = true := by
  unfold paragraphTrees at h
  cases hshown : run.dropWhile Flow.isBlank with
  | nil => simp [hshown] at h
  | cons x shown =>
    have hx : x.isBlank = false := by
      have := head?_dropWhile_not Flow.isBlank run
      simpa [hshown] using this
    have hmem : x ∈ run := (dropWhile_sublist _).subset (by rw [hshown]; exact mem_cons_self ..)
    simp only [hshown, isEmpty_cons, Bool.false_eq_true, if_false, mem_singleton, flatMap_cons] at h
    cases x with
    | piece s =>
      have hs : Text.isBlankText s = false := hx
      refine ⟨.text s, shown.flatMap (Flow.trees known), ?_, by simp [leads, hs]⟩
      simpa [Flow.trees, textTrees, isEmpty_of_not_isBlankText hs] using h
    | node t =>
      obtain ⟨hplain, htext⟩ := hnode t hmem
      cases t with
      | text => cases htext
      | link | element => exact ⟨_, _, by rw [h, Flow.trees, nodeTrees]; rfl, rfl⟩
      | _ => cases hplain
    | _ => cases hjoins _ hmem

/-- In block mode texts, links and elements of them are rendered to the end, outside a recursion
that went too deep and with depth enough left for them. The flow of the templates is divided by its
breaks and by the elements that stand outside of paragraphs. An empty container then holds, in this
order, these elements, and for each run between two divisions the one paragraph that everything in
the run stands in, as far as it is shown at all. A paragraph is not empty, and it starts with no
blank text. -/
theorem block_mode_paragraphs (session : Session) (spot : Spot) (ts : List Template) (w : World) {n : Document.Node}
    {tag : String} (hplain : allPlain ts = true) (hmode : spot.mode = .block) (hrecovering : w.host.recovering = false)
    (hdepth : w.host.depth + nestingOf ts ≤ session.setting.config.recursionLimit)
    (hnode : w.host.document.node? spot.container = some n) (hkind : n.kind = .element tag)
    (hempty : n.children = #[]) :
    let known := session.setting.passages.contains
    ∃ (w' : World) (first : List Flow) (rest : List (Flow × List Flow)),
      session.renderer.nodes spot ts w = .ok .normal w' ∧
      w'.host.document.Holds spot.container (.element tag n.attributes.entries
        (paragraphTrees known first ++ rest.flatMap fun p => p.1.trees known ++ paragraphTrees known p.2)) ∧
      flow ts = first ++ rest.flatMap (fun p => p.1 :: p.2) ∧
      (∀ x ∈ first ++ rest.flatMap (·.2), x.joins = true) ∧ (∀ x ∈ rest.map (·.1), x.joins = false) ∧
      rest.filterMap (·.1.block?) = ts.filter isBlock ∧
      ∀ run ∈ first :: rest.map (·.2), ∀ p ∈ paragraphTrees known run,
        ∃ tree trees, p = .element "p" [] (tree :: trees) ∧ leads tree = true := by
  intro known
  have hlevels : nestingOf ts ≤ Session.levels session.setting.config := by
    rw [Session.levels]
    omega
  have hcan : CanDraw w.host.depth spot.container w :=
    ⟨rfl, hrecovering, Document.lt_size_of_look? (Document.look?_of_node? hnode)⟩
  obtain ⟨ids, w', hw, hdrawn⟩ := draws_plain session.setting session.definitions hplain hlevels hdepth w hcan
  obtain ⟨first, rest, hflow, hjoins, hparts, htrees⟩ := exists_runs known [] (flow ts) (by simp)
  have hholds := hdrawn.holds hnode hkind hempty
  rw [hmode, show sequenceTrees known .block ts = flowTrees known none (flow ts) from blockTrees_eq none ts] at hholds
  rw [nil_append] at hflow
  refine ⟨w', first, rest, hw, htrees ▸ hholds, hflow, hjoins, hparts, ?_, fun run hrun p hp => ?_⟩
  · rw [forall_mem_append] at hjoins
    rw [← filterMap_block?_flow, hflow, filterMap_append, filterMap_block?_of_joins hjoins.1,
      filterMap_block?_runs hjoins.2, nil_append]
  · have hsub : ∀ x ∈ run, x ∈ first ++ rest.flatMap (·.2) := by
      intro x hx
      obtain rfl | hrun := mem_cons.1 hrun
      · exact mem_append_left _ hx
      · obtain ⟨q, hq, rfl⟩ := mem_map.1 hrun
        exact mem_append_right _ (mem_flatMap.2 ⟨q, hq, hx⟩)
    refine exists_leading (fun x hx => hjoins x (hsub x hx)) (fun t ht => plain_of_mem_flow hplain ?_) hp
    rw [hflow]
    obtain ht | ht := mem_append.1 (hsub _ ht)
    · exact mem_append_left _ ht
    · obtain ⟨q, hq, ht⟩ := mem_flatMap.1 ht
      exact mem_append_right _ (mem_flatMap.2 ⟨q, hq, mem_cons_of_mem _ ht⟩)

/-- A box between two paragraphs, of which the second has a link, an element and blanks between
them. -/
theorem harbour_box_between_paragraphs :
    let session := Session.start (.ofList []) { recursionLimit := 2 } ⟨.empty, #[], true⟩ {} 1
    let loc : Markup.Location := ⟨"main", 1⟩
    let box : Template := .element "div" .empty .empty [.text "mole\n\nand quay" loc] loc
    let ts : List Template := [.text "\n\nThe harbour\n \n " loc, box, .text "  " loc, .link "Quay" "is in" loc,
      .text " " loc, .element "em" .empty .empty [] loc, .text " sight\n\n" loc]
    let spot : Spot := { temp := 0, container := Document.root, mode := .block }
    ∃ (w' : World) (first : List Flow) (rest : List (Flow × List Flow)),
      session.renderer.nodes spot ts session.world = .ok .normal w' ∧
      flow ts = first ++ rest.flatMap (fun p => p.1 :: p.2) ∧ rest.filterMap (·.1.block?) = [box] ∧
      ∀ run ∈ first :: rest.map (·.2), ∀ p ∈ paragraphTrees (fun _ => false) run,
        ∃ tree trees, p = .element "p" [] (tree :: trees) ∧ leads tree = true := by
  intro session loc box ts spot
  obtain ⟨w', first, rest, hw, -, hflow, -, -, hblocks, hproper⟩ := block_mode_paragraphs session
    spot ts session.world (by decide) rfl rfl (by decide) rfl rfl rfl
  exact ⟨w', first, rest, hw, hflow, hblocks, hproper⟩

end StoryMarkup.Render
