import StoryMarkup.Proofs.Markup.Layout

/-! Every parsed passage is well formed, and its lists of templates nest at most as deep as the
parser allows. -/
namespace StoryMarkup.Markup

open List

open Script (maxNesting)

variable (skips : String → List Template → Bool) (xs ys : List Segment)

namespace Template

def isRawContent : List Template → Bool
  | [] => true
  | [t] => t.isText
  | _ => false

mutual

def wellFormed : Template → Bool
  | .text s _ => !s.isEmpty
  | .element name attrs dyn content _ =>
    !bannedTags.contains name && name.toList.all isTagChar && attrs.keys.all (!dyn.contains ·) &&
      (!voidTags.contains name || content.isEmpty) &&
      (if rawTags.contains name then isRawContent content else wellFormedAll content)
  | .reference _ _ _ body _ => wellFormedBody body
  | .chain segs _ => !segs.isEmpty && wellFormedSegments segs
  | .link target label _ => isTrimmed target && isTrimmed label
  | .error .. => false

def wellFormedAll : List Template → Bool
  | [] => true
  | t :: rest => !(t.isText && rest.head?.any isText) && t.wellFormed && wellFormedAll rest

def wellFormedBody : Option (List Template) → Bool
  | none => true
  | some body => wellFormedAll body

def wellFormedSegments : List Segment → Bool
  | [] => true
  | .mk _ _ body _ :: rest => wellFormedBody body && wellFormedSegments rest

end

mutual

def nesting (skips : String → List Template → Bool) : Template → Nat
  | .element name _ _ content _ => if skips name content then 0 else nestingAll skips content
  | .reference _ _ _ body _ => nestingBody skips body
  | .chain segs _ => nestingSegments skips segs
  | .text .. | .link .. | .error .. => 0

def nestingAll (skips : String → List Template → Bool) : List Template → Nat
  | [] => 1
  | t :: rest => max (t.nesting skips + 1) (nestingAll skips rest)

def nestingBody (skips : String → List Template → Bool) : Option (List Template) → Nat
  | none => 0
  | some body => nestingAll skips body

def nestingSegments (skips : String → List Template → Bool) : List Segment → Nat
  | [] => 0
  | .mk _ _ body _ :: rest => max (nestingBody skips body) (nestingSegments skips rest)

end

/-- The content of an element that has none, or whose content is taken as it is. -/
def isUnread (name : String) (content : List Template) : Bool := content.isEmpty || rawTags.contains name

def skipsNone (_ : String) (_ : List Template) : Bool := false

lemma wellFormedAll_append_singleton {ts : List Template} {t : Template} (hts : wellFormedAll ts = true)
    (ht : t.wellFormed = true) (hapart : ∀ u ∈ ts.getLast?, u.isText = true → t.isText = false) :
    wellFormedAll (ts ++ [t]) = true := by
  induction ts with
  | nil => simp [wellFormedAll, ht]
  | cons u ts ih =>
    rw [wellFormedAll, Bool.and_eq_true, Bool.and_eq_true] at hts
    obtain ⟨⟨hneighbours, hu⟩, hts⟩ := hts
    rw [cons_append, wellFormedAll, Bool.and_eq_true, Bool.and_eq_true]
    cases ts with
    | nil =>
      refine ⟨⟨?_, hu⟩, ih hts (by simp)⟩
      have := hapart u
      cases h : u.isText <;> simp_all
    | cons v ts => exact ⟨⟨hneighbours, hu⟩, ih hts fun w hw => hapart w (by simpa using hw)⟩

lemma wellFormedSegments_append :
    wellFormedSegments (xs ++ ys) = (wellFormedSegments xs && wellFormedSegments ys) := by
  induction xs with
  | nil => rw [nil_append, wellFormedSegments, Bool.true_and]
  | cons x xs ih =>
    cases x
    rw [cons_append, wellFormedSegments, wellFormedSegments, ih, Bool.and_assoc]

lemma nestingAll_append_singleton (ts : List Template) (t : Template) :
    nestingAll skips (ts ++ [t]) = max (nestingAll skips ts) (t.nesting skips + 1) := by
  induction ts with
  | nil =>
    rw [nil_append, nestingAll, nestingAll]
    exact Nat.max_comm _ _
  | cons u ts ih => rw [cons_append, nestingAll, ih, nestingAll, Nat.max_assoc]

lemma nestingSegments_append :
    nestingSegments skips (xs ++ ys) = max (nestingSegments skips xs) (nestingSegments skips ys) := by
  induction xs with
  | nil => rw [nil_append, nestingSegments, Nat.zero_max]
  | cons x xs ih =>
    cases x
    rw [cons_append, nestingSegments, nestingSegments, ih, Nat.max_assoc]

end Template

open Template

lemma Opened.checks {name : String} {attrs : Bindings String} {dyn : Bindings ExprSource}
    (h : Opened name attrs dyn) :
    (!bannedTags.contains name && name.toList.all isTagChar && attrs.keys.all (!dyn.contains ·)) = true := by
  have hapart : attrs.keys.all (!dyn.contains ·) = true := by
    refine all_eq_true.2 fun key hkey => ?_
    rw [h.apart key ((Bindings.contains_iff _ _).2 hkey), Bool.not_false]
  rw [h.allowed, h.lower, hapart]
  rfl

mutual

theorem Row.wellFormed {src : Source} {levels lo hi : Nat} {done : List Template}
    (h : Row src levels lo hi done) : wellFormedAll done.reverse = true := by
  match h with
  | .nil _ => rw [reverse_nil, wellFormedAll]
  | .text hdone hapart hs _ =>
    rw [reverse_cons]
    refine wellFormedAll_append_singleton hdone.wellFormed ?_ fun u hu htext => ?_
    · rw [Template.wellFormed, hs, Bool.not_false]
    · rw [getLast?_reverse] at hu
      rw [hapart u hu] at htext
      cases htext
  | .node hdone h _ =>
    rw [reverse_cons]
    exact wellFormedAll_append_singleton hdone.wellFormed h.wellFormed fun _ _ _ => h.isText

theorem Placed.wellFormed {src : Source} {levels lo hi : Nat} {t : Template}
    (h : Placed src levels lo hi t) : t.wellFormed = true := by
  match h with
  | .bare hopened _ =>
    simp only [Template.wellFormed, hopened.checks, isEmpty_nil, Bool.or_true, Bool.true_and]
    split
    · rfl
    · rw [wellFormedAll]
  | .raw hopened hvoid hraw _ _ =>
    simp only [Template.wellFormed, hopened.checks, hvoid, hraw, Bool.not_false, Bool.true_or, Bool.true_and, if_true]
    rfl
  | .element hopened hvoid hraw _ hcontent =>
    have hinside := hcontent.wellFormed
    rw [reverse_reverse] at hinside
    simp only [Template.wellFormed, hopened.checks, hvoid, hraw, hinside, Bool.not_false,
      Bool.true_or, Bool.true_and, Bool.false_eq_true, if_false]
  | .reference hbody =>
    rw [Template.wellFormed]
    exact hbody.wellFormed
  | .chain hsome hsegs =>
    have hinside := hsegs.wellFormed
    rw [reverse_reverse] at hinside
    simp [Template.wellFormed, hsome, hinside]
  | .link htarget hlabel _ => rw [Template.wellFormed, htarget, hlabel, Bool.true_and]

theorem Held.wellFormed {src : Source} {levels lo hi : Nat} {body : Option (List Template)}
    (h : Held src levels lo hi body) : wellFormedBody body = true := by
  match h with
  | .none _ => rw [wellFormedBody]
  | .some _ hbody =>
    have hinside := hbody.wellFormed
    rwa [reverse_reverse] at hinside

theorem Chained.wellFormed {src : Source} {levels lo hi : Nat} {done : List Segment}
    (h : Chained src levels lo hi done) : wellFormedSegments done.reverse = true := by
  match h with
  | .nil _ => rw [reverse_nil, wellFormedSegments]
  | .cons hdone _ hbody =>
    rw [reverse_cons, wellFormedSegments_append, hdone.wellFormed, wellFormedSegments,
      wellFormedSegments, hbody.wellFormed]
    rfl

end

section Nesting

/-! Every list that counts takes a level, and so does what is not read if there is a level more. -/

variable {skips : String → List Template → Bool} {extra : Nat} {src : Source}
  (hskips : ∀ name content, isUnread name content = true → skips name content = true ∨ 0 < extra)
include hskips

mutual

theorem Row.nesting_le {levels lo hi : Nat} {done : List Template} (h : Row src levels lo hi done) :
    nestingAll skips done.reverse ≤ levels + extra := by
  match h with
  | .nil _ =>
    rw [reverse_nil, nestingAll]
    omega
  | .text hdone _ _ _ =>
    have := hdone.nesting_le
    rw [reverse_cons, nestingAll_append_singleton, nesting]
    omega
  | .node hdone h _ =>
    have := hdone.nesting_le
    have := h.nesting_le
    rw [reverse_cons, nestingAll_append_singleton]
    omega

theorem Placed.nesting_le {levels lo hi : Nat} {t : Template} (h : Placed src levels lo hi t) :
    t.nesting skips ≤ levels + extra := by
  match h with
  | @Placed.bare _ _ _ _ name _ _ _ _ =>
    rw [nesting, nestingAll]
    obtain hskip | hextra := hskips name [] rfl
    · simp [hskip]
    · split <;> omega
  | @Placed.raw _ _ _ start _ name s _ _ _ _ hraw _ _ =>
    have hunread : isUnread name [.text s (src.loc start)] = true := Bool.or_eq_true_iff.2 (.inr hraw)
    rw [nesting, nestingAll, nestingAll, nesting]
    obtain hskip | hextra := hskips name _ hunread
    · simp [hskip]
    · split <;> omega
  | .element _ _ _ _ hcontent =>
    have hinside := hcontent.nesting_le
    rw [reverse_reverse] at hinside
    rw [nesting]
    split <;> omega
  | .reference hbody =>
    rw [nesting]
    exact hbody.nesting_le
  | .chain _ hsegs =>
    have hinside := hsegs.nesting_le
    rw [reverse_reverse] at hinside
    rwa [nesting]
  | .link _ _ _ =>
    rw [nesting]
    omega

theorem Held.nesting_le {levels lo hi : Nat} {body : Option (List Template)}
    (h : Held src levels lo hi body) : nestingBody skips body ≤ levels + extra := by
  match h with
  | .none _ =>
    rw [nestingBody]
    omega
  | .some _ hbody =>
    have hinside := hbody.nesting_le
    rw [reverse_reverse] at hinside
    rwa [nestingBody]

theorem Chained.nesting_le {levels lo hi : Nat} {done : List Segment}
    (h : Chained src levels lo hi done) : nestingSegments skips done.reverse ≤ levels + extra := by
  match h with
  | .nil _ =>
    rw [reverse_nil, nestingSegments]
    omega
  | .cons hdone _ hbody =>
    have := hdone.nesting_le
    have := hbody.nesting_le
    rw [reverse_cons, nestingSegments_append, nestingSegments, nestingSegments]
    omega

end
end Nesting

/-- Every parsed passage is well formed. Its lists nest as deep as is allowed, or one deeper where
the content of elements counts that have none or is taken as it is. -/
theorem wellFormed_of_parse {src : Source} {parsed : Parsed} (hparse : src.parse = .ok parsed) :
    wellFormedAll parsed.templates = true ∧ nestingAll isUnread parsed.templates ≤ maxNesting ∧
      nestingAll skipsNone parsed.templates ≤ maxNesting + 1 := by
  obtain ⟨⟨hi, hrow⟩, -⟩ := isLaidOut_of_parse hparse
  have hformed := hrow.wellFormed
  have hread : nestingAll isUnread _ ≤ maxNesting + 0 := hrow.nesting_le fun _ _ h => .inl h
  have hall : nestingAll skipsNone _ ≤ maxNesting + 1 := hrow.nesting_le fun _ _ _ => .inr Nat.one_pos
  rw [reverse_reverse] at hformed hread hall
  exact ⟨hformed, hread, hall⟩

def mixedPassage : Source where
  passage := "Test"
  startLine := 1
  text := "<p.note>It's <b/>[[ a | b ]]</p>@c\x7b $d \x7d".toList
  shape? _ := none

theorem mixedPassage_wellFormed : ∃ parsed, mixedPassage.parse = .ok parsed ∧ wellFormedAll parsed.templates = true ∧
    nestingAll isUnread parsed.templates ≤ maxNesting ∧ nestingAll skipsNone parsed.templates ≤ maxNesting + 1 := by
  have hok : mixedPassage.parse.isOk = true := by decide +kernel
  cases hparse : mixedPassage.parse with
  | error e =>
    rw [hparse] at hok
    cases hok
  | ok parsed => exact ⟨parsed, rfl, wellFormed_of_parse hparse⟩

def deepStyle : Source where
  passage := "Test"
  startLine := 1
  text := (replicate 63 "<b>".toList).flatten ++ "<style>x</style>".toList ++ (replicate 63 "</b>".toList).flatten
  shape? _ := none

/-- The text of a style element may lie one list deeper than all lists that are read. -/
theorem deepStyle_nesting : ∃ parsed, deepStyle.parse = .ok parsed ∧
    maxNesting < nestingAll skipsNone parsed.templates := by
  have hdeep : deepStyle.parse.toOption.any (maxNesting < nestingAll skipsNone ·.templates) = true := by decide +kernel
  cases hparse : deepStyle.parse with
  | error e =>
    rw [hparse] at hdeep
    cases hdeep
  | ok parsed =>
    rw [hparse] at hdeep
    exact ⟨parsed, rfl, of_decide_eq_true hdeep⟩

end StoryMarkup.Markup
