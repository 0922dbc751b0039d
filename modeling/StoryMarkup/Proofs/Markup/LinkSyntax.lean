import StoryMarkup.Proofs.Markup.ArgumentLists
import StoryMarkup.Proofs.Markup.Escaping

/-! The syntax of links: at most one separator between the brackets, and text on both sides of
it. -/
namespace StoryMarkup.Markup

open List

open Text (find? findFrom? isBlank splitFrom trimChars)

variable {s before sep after cs : List Char}

/-! Separators. -/

def separators : List (List Char) := [['-', '>'], ['<', '-'], ['|']]

def places (starts : List Char → Bool) : List Char → Nat
  | [] => 0
  | c :: cs => places starts cs + if starts (c :: cs) then 1 else 0

def startsSeparator (cs : List Char) : Bool := separators.any (·.isPrefixOf cs)

/-- How many separators there are in a text. Those that overlap are counted each. -/
def separatorsIn (cs : List Char) : Nat := places startsSeparator cs

lemma length_splitFrom {a : Char} {more : List Char} (ha : a ∉ more) {skip : Nat}
    (hskip : a ∉ cs.take skip) (piece : List Char) :
    (splitFrom (a :: more) skip piece cs).length = places (a :: more).isPrefixOf cs + 1 := by
  induction cs generalizing skip piece with
  | nil => cases skip <;> rfl
  | cons c cs ih =>
    cases skip with
    | succ skip =>
      rw [take_succ_cons, mem_cons, not_or] at hskip
      simp [splitFrom, places, ih hskip.2, hskip.1]
    | zero =>
      rw [splitFrom, places]
      split
      · rename_i hstarts
        -- no separator starts inside of another one of the same kind
        obtain ⟨rest, hrest⟩ := (cons_prefix_cons.1 ( isPrefixOf_iff_prefix.1 hstarts)).2
        have hmore : a ∉ cs.take more.length := by rwa [← hrest, take_left]
        rw [length_cons, length_cons, Nat.add_sub_cancel, ih hmore]
      · rw [ih (by simp)]

lemma countText_eq {a : Char} {more : List Char} (ha : a ∉ more) (cs : List Char) :
    countText (a :: more) cs = places (a :: more).isPrefixOf cs := by
  rw [countText, Text.splitAt, length_splitFrom ha (by simp), Nat.add_sub_cancel]

lemma sum_countText (cs : List Char) :
    countText ['-', '>'] cs + countText ['<', '-'] cs + countText ['|'] cs = separatorsIn cs := by
  rw [countText_eq (by decide), countText_eq (by decide), countText_eq (by decide), separatorsIn]
  induction cs with
  | nil => rfl
  | cons c cs ih =>
    by_cases hdash : c = '-'
    · simp [places, startsSeparator, separators, hdash, ← ih]
      omega
    by_cases hangle : c = '<'
    · simp [places, startsSeparator, separators, hangle, ← ih]
      omega
    · simp [places, startsSeparator, separators, Ne.symm hdash, Ne.symm hangle, ← ih]
      omega

lemma separatorsIn_pos (hsep : sep ∈ separators) (before after : List Char) :
    0 < separatorsIn (before ++ (sep ++ after)) := by
  induction before with
  | nil =>
    simp only [separators, mem_cons, not_mem_nil, or_false] at hsep
    rcases hsep with rfl | rfl | rfl <;> simp [separatorsIn, places, startsSeparator, separators]
  | cons c before ih => exact Nat.lt_of_lt_of_le ih (Nat.le_add_right _ _)

lemma exists_separator (h : separatorsIn cs ≠ 0) :
    ∃ before, ∃ sep ∈ separators, ∃ after, cs = before ++ (sep ++ after) := by
  induction cs with
  | nil => exact absurd rfl h
  | cons c cs ih =>
    by_cases hstarts : startsSeparator (c :: cs) = true
    · obtain ⟨sep, hsep, hprefix⟩ := any_eq_true.1 hstarts
      obtain ⟨after, hafter⟩ := isPrefixOf_iff_prefix.1 hprefix
      exact ⟨[], sep, hsep, after, hafter.symm⟩
    · obtain ⟨before, sep, hsep, after, rfl⟩ := ih (by simpa [separatorsIn, places, hstarts] using h)
      exact ⟨c :: before, sep, hsep, after, rfl⟩

/-! The sides of a separator. -/

/-- What the sides of a separator are for, target last. -/
def sides (sep before after : List Char) : List Char × List Char :=
  if sep = ['<', '-'] then (after, before) else (before, after)

lemma splitLink_cons {c : Char} (h : startsSeparator (c :: cs) = false) (done : List Char) :
    splitLink done (c :: cs) = splitLink (c :: done) cs := by
  simp only [startsSeparator, separators, any_cons, any_nil, Bool.or_false, Bool.or_eq_false_iff] at h
  rw [splitLink]
  · rintro rest rfl rfl
    simp at h
  · rintro rest rfl rfl
    simp at h
  · rintro rfl
    simp at h

lemma splitLink_of_none (h : separatorsIn cs = 0) (done : List Char) :
    splitLink done cs = (done.reverse ++ cs, done.reverse ++ cs) := by
  induction cs generalizing done with
  | nil => simp [splitLink]
  | cons c cs ih =>
    obtain ⟨hrest, hstarts⟩ : separatorsIn cs = 0 ∧ startsSeparator (c :: cs) = false := by
      simpa [separatorsIn, places] using h
    rw [splitLink_cons hstarts, ih hrest, reverse_cons, append_assoc]
    rfl

lemma splitLink_append (hsep : sep ∈ separators)
    (hone : separatorsIn (before ++ (sep ++ after)) ≤ 1) (done : List Char) :
    splitLink done (before ++ (sep ++ after)) = sides sep (done.reverse ++ before) after := by
  induction before generalizing done with
  | nil =>
    simp only [separators, mem_cons, not_mem_nil, or_false] at hsep
    rcases hsep with rfl | rfl | rfl <;> simp [splitLink, sides]
  | cons c before ih =>
    have hrest := separatorsIn_pos hsep before after
    have hstarts : startsSeparator (c :: (before ++ (sep ++ after))) = false := by
      cases h : startsSeparator (c :: (before ++ (sep ++ after))) with
      | false => rfl
      | true =>
        simp only [separatorsIn, cons_append, places, h, if_true] at hone hrest
        omega
    rw [List.cons_append, splitLink_cons hstarts, ih (Nat.le_trans (Nat.le_add_right _ _) hone),
      List.reverse_cons, List.append_assoc]
    rfl

/-! Links. -/

lemma isEmpty_trimChars (cs : List Char) : (trimChars cs).isEmpty = cs.all isBlank := by
  rw [Bool.eq_iff_iff, List.isEmpty_iff, trimChars_eq_nil_iff, List.all_eq_true]

/-- A label and a target, neither of which may be blank. -/
def linkOf (parts : List Char × List Char) : Option (String × String) :=
  if parts.1.all isBlank || parts.2.all isBlank then none
  else some (String.ofList (trimChars parts.1), String.ofList (trimChars parts.2))

lemma isSome_linkOf (parts : List Char × List Char) :
    (linkOf parts).isSome = true ↔ parts.1.all isBlank = false ∧ parts.2.all isBlank = false := by
  unfold linkOf
  cases parts.1.all isBlank <;> cases parts.2.all isBlank <;> simp

lemma linkParts?_eq (hline : '\n' ∉ s) :
    linkParts? s = if separatorsIn s ≤ 1 then linkOf (splitLink [] s) else none := by
  have hcontains : s.contains '\n' = false := by simpa using hline
  simp only [linkParts?, sum_countText, hcontains, Bool.false_or, isEmpty_trimChars, decide_eq_true_eq, linkOf]
  by_cases h : separatorsIn s ≤ 1
  · rw [if_neg (by omega), if_pos h]
  · rw [if_pos (by omega), if_neg h]

lemma linkParts?_append (hsep : sep ∈ separators)
    (hone : separatorsIn (before ++ (sep ++ after)) ≤ 1) (hline : '\n' ∉ before ++ (sep ++ after)) :
    linkParts? (before ++ (sep ++ after)) = linkOf (sides sep before after) := by
  rw [linkParts?_eq hline, if_pos hone, splitLink_append hsep hone]
  rfl

lemma linkParts?_of_none (hnone : separatorsIn s = 0) (hline : '\n' ∉ s) : linkParts? s = linkOf (s, s) := by
  rw [linkParts?_eq hline, if_pos (by omega), splitLink_of_none hnone]
  rfl

/-- There is at most one separator, and nothing around it is blank. -/
structure IsLink (s : List Char) : Prop where
  single : separatorsIn s ≤ 1
  not_blank : s.all isBlank = false
  sides_not_blank : ∀ before, ∀ sep ∈ separators, ∀ after, s = before ++ (sep ++ after) →
    before.all isBlank = false ∧ after.all isBlank = false

lemma isSome_linkParts?_iff (hline : '\n' ∉ s) : (linkParts? s).isSome = true ↔ IsLink s := by
  have hsides : ∀ sep before after, (linkOf (sides sep before after)).isSome = true ↔
      before.all isBlank = false ∧ after.all isBlank = false := by
    intro sep before after
    rw [isSome_linkOf]
    unfold sides
    split
    · exact And.comm
    · exact .rfl
  constructor
  · intro h
    have hone : separatorsIn s ≤ 1 := by
      refine Nat.le_of_not_lt fun hmore => ?_
      rw [linkParts?_eq hline, if_neg (by omega)] at h
      cases h
    have hparts : ∀ before, ∀ sep ∈ separators, ∀ after, s = before ++ (sep ++ after) →
        before.all isBlank = false ∧ after.all isBlank = false := by
      rintro before sep hsep after rfl
      rwa [linkParts?_append hsep hone hline, hsides] at h
    refine ⟨hone, ?_, hparts⟩
    by_cases hnone : separatorsIn s = 0
    · rw [linkParts?_of_none hnone hline, isSome_linkOf] at h
      exact h.1
    · obtain ⟨before, sep, hsep, after, rfl⟩ := exists_separator hnone
      rw [all_append, (hparts before sep hsep after rfl).1, Bool.false_and]
  · rintro ⟨hone, hblank, hparts⟩
    by_cases hnone : separatorsIn s = 0
    · rw [linkParts?_of_none hnone hline, isSome_linkOf]
      exact ⟨hblank, hblank⟩
    · obtain ⟨before, sep, hsep, after, rfl⟩ := exists_separator hnone
      rw [linkParts?_append hsep hone hline, hsides]
      exact hparts before sep hsep after rfl

/-! Reading a link. -/

lemma findFrom?_close (hclose : ¬ [']', ']'] <:+: s) (hlast : s.getLast? ≠ some ']') (place : Nat) :
    findFrom? [']', ']'] place (s ++ [']', ']']) = some (place + s.length) := by
  induction s generalizing place with
  | nil => rfl
  | cons c s ih =>
    have hstarts : [']', ']'].isPrefixOf (c :: (s ++ [']', ']'])) = false := by
      cases s with
      | nil => simpa [isPrefixOf] using fun hc : ']' = c => hlast (by simp [← hc])
      | cons d s =>
        simpa [isPrefixOf] using fun (hc : ']' = c) (hd : ']' = d) => hclose ⟨[], s, by simp [← hc, ← hd]⟩
    have hrest : s.getLast? ≠ some ']' := by
      cases s with
      | nil => simp
      | cons d s => simpa using hlast
    rw [cons_append, findFrom?, if_neg (by simp [hstarts]),
      ih (fun h => hclose (h.trans (suffix_cons c s).isInfix)) hrest]
    simp [Nat.add_comm, Nat.add_left_comm]

namespace Reader

variable {src : Source}

lemma parse_link (htext : src.text = '[' :: '[' :: (s ++ [']', ']'])) (hclose : ¬ [']', ']'] <:+: s)
    (hlast : s.getLast? ≠ some ']') :
    src.parse = (linkParts? s).elim (.error ⟨.link, src.loc 0, Text.sampleOf src.text⟩)
      fun parts => .ok ⟨[.link parts.2 parts.1 (src.loc 0)], []⟩ := by
  let written : List Char := '[' :: '[' :: (s ++ [']', ']'])
  have hfind : find? [']', ']'] (written.drop 2) = some s.length :=
    (findFrom?_close hclose hlast 0).trans (by rw [Nat.zero_add])
  have htake : (written.drop 2).take s.length = s := take_left
  have hlink : link src ⟨⟨0, written⟩, none, #[]⟩ = (linkParts? s).elim (refuse src .link 0)
      (fun parts => drop (s.length + 4) >>= fun _ => pure (.link parts.2 parts.1 (src.loc 0)))
        ⟨⟨0, written⟩, none, #[]⟩ := by
    have hpos (f : Nat → Reader Template) (r : Reading) : (pos >>= f) r = f r.cursor.pos r := rfl
    have hrest (f : List Char → Reader Template) (r : Reading) : (rest >>= f) r = f r.cursor.rest r := rfl
    rw [link, hpos, hrest]
    simp only [hfind, htake]
    cases linkParts? s <;> rfl
  rw [parse_first (link src) htext fun _ => rfl]
  cases hparts : linkParts? s with
  | none =>
    have hsample : Text.sampleOf (Text.Cursor.ofOffset src.text 0).rest = Text.sampleOf src.text := by
      rw [htext]
      rfl
    change Except.bind (Except.bind (link src ⟨⟨0, written⟩, none, #[]⟩) _) _ = _
    rw [hlink, hparts, ← hsample]
    rfl
  | some parts =>
    obtain ⟨stopAt, after, h⟩ : ∃ stopAt after, link src ⟨⟨0, written⟩, none, #[]⟩ =
        .ok (.link parts.2 parts.1 (src.loc 0), ⟨⟨stopAt, written.drop (s.length + 4)⟩, after, #[]⟩) := by
      rw [hlink, hparts]
      exact ⟨_, _, rfl⟩
    rw [drop_of_length_le (by simp [written])] at h
    rw [bind_ok _ h]
    rfl

end Reader

/-- A text that can stand on either side of a separator as it is. -/
structure IsLinkPart (t : String) : Prop where
  ne_empty : t ≠ ""
  trim_eq : Text.trim t = t
  plain : ∀ c ∈ t.toList, c ∉ ['\n', ']', '|', '-', '<', '>']

lemma separatorsIn_append (hplain : ∀ c ∈ before, c ∉ ['\n', ']', '|', '-', '<', '>']) :
    separatorsIn (before ++ cs) = separatorsIn cs := by
  induction before with
  | nil => rfl
  | cons c before ih =>
    have hstarts : startsSeparator (c :: (before ++ cs)) = false := by
      obtain ⟨-, -, hbar, hdash, hless, -⟩ : _ ∧ _ ∧ _ ∧ _ ∧ _ ∧ _ := by simpa using hplain c (by simp)
      simp [startsSeparator, separators, isPrefixOf, Ne.symm hbar, Ne.symm hdash, Ne.symm hless]
    rw [cons_append, separatorsIn, places, if_neg (by simp [hstarts])]
    exact ih fun d hd => hplain d (by simp [hd])

lemma separatorsIn_separator (hsep : sep ∈ separators) (hafter : ¬ ['>'] <+: after) :
    separatorsIn (sep ++ after) = separatorsIn after + 1 := by
  simp only [separators, mem_cons, not_mem_nil, or_false] at hsep
  rcases hsep with rfl | rfl | rfl <;> simp [separatorsIn, places, startsSeparator, separators, hafter]

namespace IsLinkPart

variable {t d : String}

lemma trimChars_eq (ht : IsLinkPart t) : trimChars t.toList = t.toList := by
  simpa [Text.trim] using congrArg String.toList ht.trim_eq

lemma not_blank (ht : IsLinkPart t) : t.toList.all isBlank = false := by
  rw [← isEmpty_trimChars, ht.trimChars_eq]
  simpa using ht.ne_empty

lemma linkOf_eq (ht : IsLinkPart t) (hd : IsLinkPart d) : linkOf (t.toList, d.toList) = some (t, d) := by
  rw [linkOf, ht.not_blank, hd.not_blank]
  simp [ht.trimChars_eq, hd.trimChars_eq]

lemma not_mem (ht : IsLinkPart t) {c : Char} (hc : c ∈ ['\n', ']', '|', '-', '<', '>']) : c ∉ t.toList :=
  fun h => ht.plain c h hc

lemma separatorsIn_eq (ht : IsLinkPart t) : separatorsIn t.toList = 0 := by
  rw [← append_nil t.toList, separatorsIn_append ht.plain]
  rfl

lemma linkParts?_sides (ht : IsLinkPart t) (hd : IsLinkPart d) (hsep : sep ∈ separators) :
    linkParts? (t.toList ++ (sep ++ d.toList)) = linkOf (sides sep t.toList d.toList) := by
  have hline : '\n' ∉ t.toList ++ (sep ++ d.toList) := by
    have hsepline : '\n' ∉ sep := by revert sep; decide
    simp [ht.not_mem, hd.not_mem, hsepline]
  refine linkParts?_append hsep (Nat.le_of_eq ?_) hline
  have hgreater : ¬ ['>'] <+: d.toList := fun h => hd.not_mem (by decide) (h.subset (mem_singleton_self '>'))
  rw [separatorsIn_append ht.plain, separatorsIn_separator hsep hgreater, hd.separatorsIn_eq]

end IsLinkPart

/-- Links are written in four ways. A link is text that has at most one separator and is not blank
around it, and nothing else between its brackets is one. -/
theorem parse_link_iff (passage : String) (startLine : Nat) (shape? : String → Option Shape) :
    let parse (s : String) := Source.parse ⟨passage, startLine, s.toList, shape?⟩
    let here : Location := ⟨passage, startLine⟩
    (∀ t d, IsLinkPart t → IsLinkPart d →
      parse ("[[" ++ t ++ "->" ++ d ++ "]]") = .ok ⟨[.link d t here], []⟩ ∧
      parse ("[[" ++ d ++ "<-" ++ t ++ "]]") = .ok ⟨[.link d t here], []⟩ ∧
      parse ("[[" ++ t ++ "|" ++ d ++ "]]") = .ok ⟨[.link d t here], []⟩ ∧
      parse ("[[" ++ d ++ "]]") = .ok ⟨[.link d d here], []⟩) ∧
    ∀ s : String, '\n' ∉ s.toList → ¬ [']', ']'] <:+: s.toList → s.toList.getLast? ≠ some ']' →
      ((∃ target label, parse ("[[" ++ s ++ "]]") = .ok ⟨[.link target label here], []⟩) ↔ IsLink s.toList) ∧
      (¬ IsLink s.toList → parse ("[[" ++ s ++ "]]") = .error ⟨.link, here, Text.sample ("[[" ++ s ++ "]]")⟩) := by
  intro parse here
  have hparse : ∀ s : String, ¬ [']', ']'] <:+: s.toList → s.toList.getLast? ≠ some ']' →
      parse ("[[" ++ s ++ "]]") = (linkParts? s.toList).elim (.error ⟨.link, here, Text.sample ("[[" ++ s ++ "]]")⟩)
        fun parts => .ok ⟨[.link parts.2 parts.1 here], []⟩ := by
    intro s hclose hlast
    let src : Source := ⟨passage, startLine, ("[[" ++ s ++ "]]").toList, shape?⟩
    have hloc : src.loc 0 = here := Source.loc_append (by simp) (nil_append _).symm
    rw [← hloc]
    have htext : src.text = '[' :: '[' :: (s.toList ++ [']', ']']) := by simp [src]
    exact Reader.parse_link htext hclose hlast
  have hplain : ∀ s : String, ']' ∉ s.toList → ∀ label target, linkParts? s.toList =
      some (label, target) → parse ("[[" ++ s ++ "]]") = .ok ⟨[.link target label here], []⟩ := by
    intro s hs label target hparts
    rw [hparse s (fun h => hs (h.subset (by simp))) (fun h => hs (mem_of_getLast? h)), hparts]
    rfl
  have hsides : ∀ t d sep label target, IsLinkPart t → IsLinkPart d → sep.toList ∈ separators →
      linkOf (sides sep.toList t.toList d.toList) = some (label, target) →
      parse ("[[" ++ t ++ sep ++ d ++ "]]") = .ok ⟨[.link target label here], []⟩ := by
    intro t d sep label target ht hd hsep hparts
    have hclean : ']' ∉ sep.toList := by
      revert hsep
      generalize sep.toList = cs
      revert cs
      decide
    have := hplain (t ++ (sep ++ d)) (by simp [ht.not_mem, hd.not_mem, hclean]) label target
      (by rw [← hparts, ← ht.linkParts?_sides hd hsep]; simp)
    simpa only [String.append_assoc] using this
  refine ⟨fun t d ht hd => ⟨?_, ?_, ?_, ?_⟩, fun s hline hclose hlast => ?_⟩
  · exact hsides t d "->" t d ht hd (by decide) (by simpa [sides] using ht.linkOf_eq hd)
  · exact hsides d t "<-" t d hd ht (by decide) (by simpa [sides] using ht.linkOf_eq hd)
  · exact hsides t d "|" t d ht hd (by decide) (by simpa [sides] using ht.linkOf_eq hd)
  · refine hplain d (hd.not_mem (by decide)) d d ?_
    rw [linkParts?_of_none hd.separatorsIn_eq (hd.not_mem (by decide)), hd.linkOf_eq hd]
  · rw [hparse s hclose hlast, ← isSome_linkParts?_iff hline]
    cases linkParts? s.toList with
    | none | some parts => simp

theorem parse_link_iff_way_home :
    IsLinkPart "go home" ∧ IsLinkPart "home" ∧
      Source.parse ⟨"start", 1, ("[[" ++ "home" ++ "<-" ++ "go home" ++ "]]").toList, fun _ => none⟩
        = .ok ⟨[.link "home" "go home" ⟨"start", 1⟩], []⟩ ∧
      ¬ (∃ target label, Source.parse ⟨"start", 1, ("[[" ++ "home<->home" ++ "]]").toList, fun _ =>
        none⟩ = .ok ⟨[.link target label ⟨"start", 1⟩], []⟩) := by
  have hlabel : IsLinkPart "go home" := ⟨by decide, by decide, by simp⟩
  have htarget : IsLinkPart "home" := ⟨by decide, by decide, by simp⟩
  have h := parse_link_iff "start" 1 fun _ => none
  refine ⟨hlabel, htarget, (h.1 "go home" "home" hlabel htarget).2.1, ?_⟩
  have hclean : ']' ∉ "home<->home".toList := by decide
  have hrefused := h.2 "home<->home" (by decide) (fun h => hclean (h.subset (mem_cons_self ..))) (by decide)
  exact mt hrefused.1.1 fun hlink => absurd hlink.single (by decide)

end StoryMarkup.Markup
