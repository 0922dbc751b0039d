import StoryMarkup.Proofs.Markup.Layout

/-! The lines where templates and segments start never go back, and none lies outside the
passage. -/
namespace StoryMarkup.Markup

open List

/-! Lines of offsets. -/

variable {offset' : Nat} (src : Source) (count offset : Nat) (cs : List Char)

lemma le_newlinesBefore : count ≤ newlinesBefore count offset cs := by
  fun_induction newlinesBefore count offset cs with
  | case1 | case2 => exact le_rfl
  | case3 count offset c cs ih => grind

lemma newlinesBefore_mono {offset : Nat} (h : offset ≤ offset') (count : Nat) (cs : List Char) :
    newlinesBefore count offset cs ≤ newlinesBefore count offset' cs := by
  induction cs generalizing count offset offset' with
  | nil => cases offset <;> cases offset' <;> simp [newlinesBefore]
  | cons c cs ih =>
    cases offset with
    | zero => exact le_newlinesBefore count offset' (c :: cs)
    | succ offset =>
      obtain ⟨offset', rfl⟩ : ∃ k, offset' = k + 1 := ⟨offset' - 1, by omega⟩
      rw [newlinesBefore, newlinesBefore]
      exact ih (Nat.sub_le_sub_right h _) _

lemma newlinesBefore_le : newlinesBefore count offset cs ≤ count + cs.count '\n' := by
  fun_induction newlinesBefore count offset cs with
  | case1 | case2 => exact Nat.le_add_right _ _
  | case3 count offset c cs ih => grind

lemma Source.lineAt_mono {offset : Nat} (h : offset ≤ offset') : src.lineAt offset ≤ src.lineAt offset' :=
  Nat.add_le_add_left (newlinesBefore_mono h 0 src.text) _

def Source.HasLine (src : Source) (line : Nat) : Prop :=
  src.startLine ≤ line ∧ line ≤ src.startLine + src.text.count '\n'

lemma Source.hasLine_lineAt : src.HasLine (src.lineAt offset) := by
  refine ⟨Nat.le_add_right _ _, Nat.add_le_add_left ?_ _⟩
  have h := newlinesBefore_le 0 offset src.text
  rwa [Nat.zero_add] at h

/-! Places in the order they are written. -/

/-- Places of a passage between two offsets, none before an earlier one of them. -/
inductive Ascends (src : Source) : Nat → Nat → List Location → Prop
  | nil {lo hi : Nat} (h : lo ≤ hi) : Ascends src lo hi []
  | cons {lo offset hi : Nat} {locs : List Location} (h : lo ≤ offset) (hrest : Ascends src offset hi locs) :
    Ascends src lo hi (src.loc offset :: locs)

namespace Ascends

variable {src : Source} {lo mid hi : Nat} {locs more : List Location}

lemma mono {lo' : Nat} (h : Ascends src lo hi locs) (hle : lo' ≤ lo) : Ascends src lo' hi locs := by
  cases h with
  | nil h => exact .nil (Nat.le_trans hle h)
  | cons h hrest => exact .cons (Nat.le_trans hle h) hrest

lemma append (h : Ascends src lo mid locs) (hmore : Ascends src mid hi more) : Ascends src lo hi (locs ++ more) := by
  induction h with
  | nil h => exact hmore.mono h
  | cons h _ ih => exact .cons h (ih hmore)

lemma exists_of_mem (h : Ascends src lo hi locs) {loc : Location} (hmem : loc ∈ locs) :
    ∃ offset, lo ≤ offset ∧ loc = src.loc offset := by
  induction h with
  | nil => cases hmem
  | cons h _ ih =>
    obtain rfl | hmem := mem_cons.1 hmem
    · exact ⟨_, h, rfl⟩
    · obtain ⟨offset, hle, rfl⟩ := ih hmem
      exact ⟨offset, Nat.le_trans h hle, rfl⟩

lemma pairwise (h : Ascends src lo hi locs) : locs.Pairwise fun a b => a.line ≤ b.line := by
  induction h with
  | nil => exact .nil
  | cons _ hrest ih =>
    refine .cons (fun loc hloc => ?_) ih
    obtain ⟨offset, hle, rfl⟩ := hrest.exists_of_mem hloc
    exact src.lineAt_mono hle

end Ascends

namespace Template

mutual

def places : Template → List Location
  | .text _ loc => [loc]
  | .element _ _ _ content loc => loc :: placesAll content
  | .reference _ _ _ body loc => loc :: placesBody body
  | .chain segments loc => loc :: placesSegments segments
  | .link _ _ loc => [loc]
  | .error _ _ loc => [loc]

def placesAll : List Template → List Location
  | [] => []
  | t :: rest => t.places ++ placesAll rest

def placesBody : Option (List Template) → List Location
  | none => []
  | some body => placesAll body

def placesSegments : List Segment → List Location
  | [] => []
  | .mk _ _ body loc :: rest => loc :: (placesBody body ++ placesSegments rest)

end

mutual

def segments : Template → List Segment
  | .element _ _ _ content _ => segmentsAll content
  | .reference _ _ _ body _ => segmentsBody body
  | .chain segments _ => segmentsWithin segments
  | .text .. | .link .. | .error .. => []

def segmentsAll : List Template → List Segment
  | [] => []
  | t :: rest => t.segments ++ segmentsAll rest

def segmentsBody : Option (List Template) → List Segment
  | none => []
  | some body => segmentsAll body

def segmentsWithin : List Segment → List Segment
  | [] => []
  | .mk name args body loc :: rest => .mk name args body loc :: (segmentsBody body ++ segmentsWithin rest)

end

lemma placesAll_append (ts us : List Template) : placesAll (ts ++ us) = placesAll ts ++ placesAll us := by
  induction ts with
  | nil => rw [placesAll, nil_append, nil_append]
  | cons t ts ih => rw [cons_append, placesAll, placesAll, ih, append_assoc]

lemma placesSegments_append (xs ys : List Segment) :
    placesSegments (xs ++ ys) = placesSegments xs ++ placesSegments ys := by
  induction xs with
  | nil => rw [placesSegments, nil_append, nil_append]
  | cons x xs ih =>
    cases x
    rw [cons_append, placesSegments, placesSegments, ih, cons_append, append_assoc]

mutual

theorem map_loc_walk : ∀ t : Template, ((walk t).map loc).Sublist t.places
  | .text .. => by simp [walk, places, loc]
  | .element _ _ _ content _ => by
    rw [walk, places]
    exact (map_loc_walkAll content).cons_cons _
  | .reference _ _ _ body _ => by
    rw [walk, places]
    exact (map_loc_walkBody body).cons_cons _
  | .chain segments _ => by
    rw [walk, places]
    exact (map_loc_walkSegments segments).cons_cons _
  | .link .. => by simp [walk, places, loc]
  | .error .. => by simp [walk, places, loc]

theorem map_loc_walkAll : ∀ ts : List Template, ((walkAll ts).map loc).Sublist (placesAll ts)
  | [] => by simp [walkAll]
  | t :: rest => by
    rw [walkAll, placesAll, map_append]
    exact (map_loc_walk t).append (map_loc_walkAll rest)

theorem map_loc_walkBody : ∀ body : Option (List Template), ((walkBody body).map loc).Sublist (placesBody body)
  | none => by simp [walkBody]
  | some body => by
    rw [walkBody, placesBody]
    exact map_loc_walkAll body

theorem map_loc_walkSegments : ∀ segments : List Segment,
    ((walkSegments segments).map loc).Sublist (placesSegments segments)
  | [] => by simp [walkSegments]
  | .mk _ _ body _ :: rest => by
    rw [walkSegments, placesSegments, map_append]
    exact ((map_loc_walkBody body).append (map_loc_walkSegments rest)).cons _

end

mutual

theorem map_loc_segments : ∀ t : Template, (t.segments.map Segment.loc).Sublist t.places
  | .text .. => by simp [segments]
  | .element _ _ _ content _ => by
    rw [segments, places]
    exact (map_loc_segmentsAll content).cons _
  | .reference _ _ _ body _ => by
    rw [segments, places]
    exact (map_loc_segmentsBody body).cons _
  | .chain within _ => by
    rw [segments, places]
    exact (map_loc_segmentsWithin within).cons _
  | .link .. => by simp [segments]
  | .error .. => by simp [segments]

theorem map_loc_segmentsAll : ∀ ts : List Template, ((segmentsAll ts).map Segment.loc).Sublist (placesAll ts)
  | [] => by simp [segmentsAll]
  | t :: rest => by
    rw [segmentsAll, placesAll, map_append]
    exact (map_loc_segments t).append (map_loc_segmentsAll rest)

theorem map_loc_segmentsBody : ∀ body : Option (List Template),
    ((segmentsBody body).map Segment.loc).Sublist (placesBody body)
  | none => by simp [segmentsBody]
  | some body => by
    rw [segmentsBody, placesBody]
    exact map_loc_segmentsAll body

theorem map_loc_segmentsWithin : ∀ within : List Segment,
    ((segmentsWithin within).map Segment.loc).Sublist (placesSegments within)
  | [] => by simp [segmentsWithin]
  | .mk _ _ body _ :: rest => by
    rw [segmentsWithin, placesSegments, map_cons, map_append]
    exact ((map_loc_segmentsBody body).append (map_loc_segmentsWithin rest)).cons_cons _

end
end Template

open Template

mutual

theorem Row.ascends {src : Source} {levels lo hi : Nat} {done : List Template}
    (h : Row src levels lo hi done) : Ascends src lo hi (placesAll done.reverse) := by
  match h with
  | .nil h =>
    rw [reverse_nil, placesAll]
    exact .nil h
  | .text hdone _ _ hhi =>
    rw [reverse_cons, placesAll_append, placesAll, placesAll, places]
    exact hdone.ascends.append (.cons le_rfl (.nil hhi))
  | .node hdone h hhi =>
    rw [reverse_cons, placesAll_append, placesAll, placesAll, append_nil]
    have hend := h.ascends.append (.nil hhi)
    rw [append_nil] at hend
    exact hdone.ascends.append hend

theorem Placed.ascends {src : Source} {levels lo hi : Nat} {t : Template}
    (h : Placed src levels lo hi t) : Ascends src lo hi t.places := by
  match h with
  | .bare _ h =>
    rw [places, placesAll]
    exact .cons le_rfl (.nil h)
  | .raw _ _ _ hlo hhi =>
    rw [places, placesAll, placesAll, places]
    exact .cons le_rfl (.cons hlo (.nil hhi))
  | .element _ _ _ hlo hcontent =>
    rw [places]
    have hinside := hcontent.ascends
    rw [reverse_reverse] at hinside
    exact .cons le_rfl (hinside.mono hlo)
  | .reference hbody =>
    rw [places]
    exact .cons le_rfl hbody.ascends
  | .chain _ hsegments =>
    rw [places]
    have hinside := hsegments.ascends
    rw [reverse_reverse] at hinside
    exact .cons le_rfl hinside
  | .link _ _ h =>
    rw [places]
    exact .cons le_rfl (.nil h)

theorem Held.ascends {src : Source} {levels lo hi : Nat} {body : Option (List Template)}
    (h : Held src levels lo hi body) : Ascends src lo hi (placesBody body) := by
  match h with
  | .none h =>
    rw [placesBody]
    exact .nil h
  | .some hlo hbody =>
    rw [placesBody]
    have hinside := hbody.ascends
    rw [reverse_reverse] at hinside
    exact hinside.mono hlo

theorem Chained.ascends {src : Source} {levels lo hi : Nat} {done : List Segment}
    (h : Chained src levels lo hi done) : Ascends src lo hi (placesSegments done.reverse) := by
  match h with
  | .nil h =>
    rw [reverse_nil, placesSegments]
    exact .nil h
  | .cons hdone hlo hbody =>
    rw [reverse_cons, placesSegments_append, placesSegments, placesSegments, append_nil]
    exact hdone.ascends.append (.cons hlo hbody.ascends)

end

def Source.InOrder (src : Source) (lines : List Nat) : Prop := lines.Pairwise (· ≤ ·) ∧ ∀ line ∈ lines, src.HasLine line

lemma Ascends.inOrder {src : Source} {lo hi : Nat} {locs places : List Location} (h : Ascends src lo hi places)
    (hsub : locs.Sublist places) : src.InOrder (locs.map (·.line)) := by
  refine ⟨pairwise_map.2 (h.pairwise.sublist hsub), fun line hline => ?_⟩
  obtain ⟨loc, hloc, rfl⟩ := mem_map.1 hline
  obtain ⟨offset, -, rfl⟩ := h.exists_of_mem (hsub.subset hloc)
  exact src.hasLine_lineAt offset

/-- The lines of the templates of a parsed passage, and those of its segments, are in order, those
of warnings and errors are lines of the passage, and a passage that starts further down gives the
same with every line further down. -/
theorem parse_lines (src : Source) :
    (match src.parse with
      | .ok parsed =>
        src.InOrder ((walkAll parsed.templates).map (·.loc.line)) ∧
        src.InOrder ((segmentsAll parsed.templates).map (·.loc.line)) ∧
        ∀ w ∈ parsed.warnings, src.HasLine w.loc.line
      | .error e => src.HasLine e.loc.line) ∧
    ∀ d, (src.down d).parse = match src.parse with
      | .ok parsed => .ok (parsed.down d)
      | .error e => .error (e.down d) := by
  refine ⟨?_, parse_down src⟩
  cases hparse : src.parse with
  | error e =>
    obtain ⟨offset, hloc⟩ := exists_loc_of_parse hparse
    dsimp only
    rw [hloc]
    exact src.hasLine_lineAt offset
  | ok parsed =>
    obtain ⟨⟨hi, hrow⟩, hwarnings⟩ := isLaidOut_of_parse hparse
    have hplaces := hrow.ascends
    rw [reverse_reverse] at hplaces
    refine ⟨?_, ?_, fun w hw => ?_⟩
    · have h := hplaces.inOrder (map_loc_walkAll parsed.templates)
      rwa [map_map] at h
    · have h := hplaces.inOrder (map_loc_segmentsAll parsed.templates)
      rwa [map_map] at h
    · obtain ⟨offset, hloc⟩ := hwarnings w hw
      rw [hloc]
      exact src.hasLine_lineAt offset

end StoryMarkup.Markup
