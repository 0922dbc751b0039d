import StoryMarkup.Markup.Parser
import StoryMarkup.Proofs.Text.Cursor

/-! Texts written literally: with a backslash before every reserved character any text is read as
itself. -/
namespace StoryMarkup.Markup

open Script (maxNesting)
open Text (Cursor byteLength isAsciiLetter)

def escape (cs : List Char) : List Char :=
  cs.flatMap fun c => if Reader.reservedChars.contains c then ['\\', c] else [c]

def literal (s : String) (loc : Location) : List Template := if s.isEmpty then [] else [.text s loc]

def Pending.add (p : Pending) (offset : Nat) (cs : List Char) : Pending := if cs.isEmpty then p else p.push offset cs

lemma Pending.add_add (p : Pending) {start next : Nat} {s : List Char} (t : List Char) (h : s = [] → next = start) :
    (p.add start s).add next t = p.add start (s ++ t) := by
  cases s with
  | nil => rw [h rfl]; rfl
  | cons => cases t <;> cases p <;> simp [add, push]

lemma newlinesBefore_append {pre : List Char} (h : '\n' ∉ pre) (count : Nat) (rest : List Char) :
    newlinesBefore count (byteLength pre) (pre ++ rest) = count := by
  induction pre with
  | nil => simp [newlinesBefore]
  | cons c pre ih =>
    have hpos := c.utf8Size_pos
    obtain ⟨n, hn⟩ : ∃ n, byteLength (c :: pre) = n + 1 := ⟨byteLength (c :: pre) - 1, by simp; omega⟩
    simp only [List.mem_cons, not_or] at h
    have hrest : n + 1 - c.utf8Size = byteLength pre := by rw [← hn]; simp
    rw [hn, List.cons_append, newlinesBefore, hrest, if_neg (by simpa using Ne.symm h.1), ih h.2]

lemma Source.loc_append {src : Source} {pre rest : List Char} (hpre : '\n' ∉ pre) (htext : src.text = pre ++ rest) :
    src.loc (byteLength pre) = ⟨src.passage, src.startLine⟩ := by
  rw [Source.loc, Source.lineAt, htext, newlinesBefore_append hpre, Nat.add_zero]

namespace Reader

variable {src : Source} {nested : Until → Reader (List Template)} {stop : Until}

def TakenFor (src : Source) (nested : Until → Reader (List Template)) (stop : Until) (t raw tail : List Char) : Prop :=
  ∀ fuel done pending pos before warnings, raw.length < fuel → ∃ fuel' before', fuel ≤ fuel' + raw.length ∧
    sequence src nested stop fuel done pending ⟨⟨pos, raw ++ tail⟩, before, warnings⟩ =
      sequence src nested stop fuel' done (pending.add pos t) ⟨⟨pos + byteLength raw, tail⟩, before', warnings⟩

lemma TakenFor.append {s t raw raw' tail : List Char} (h : TakenFor src nested stop s raw (raw' ++ tail))
    (h' : TakenFor src nested stop t raw' tail) (hs : s = [] → raw = []) :
    TakenFor src nested stop (s ++ t) (raw ++ raw') tail := by
  intro fuel done pending pos before warnings hfuel
  rw [List.length_append] at hfuel
  obtain ⟨mid, between, hmid, hfirst⟩ := h fuel done pending pos before warnings (by omega)
  obtain ⟨last, before', hlast, hsecond⟩ :=
    h' mid done (pending.add pos s) (pos + byteLength raw) between warnings (by omega)
  refine ⟨last, before', by rw [List.length_append]; omega, ?_⟩
  rw [List.append_assoc, hfirst, hsecond, Pending.add_add _ _ fun hnil => by simp [hs hnil], Text.byteLength_append,
    Nat.add_assoc]

lemma takenFor_escaped {c : Char} (tail : List Char) (hc : c ∈ reservedChars) :
    TakenFor src nested stop [c] ['\\', c] tail := by
  intro fuel done pending pos before warnings hfuel
  obtain _ | fuel := fuel
  · omega
  refine ⟨fuel, some c, by simp, ?_⟩
  simp only [reservedChars, List.mem_cons, List.not_mem_nil, or_false] at hc
  rcases hc with rfl | rfl | rfl | rfl | rfl | rfl | rfl | rfl <;> cases stop <;> rfl

lemma takenFor_run {run tail : List Char} (hrun : ∀ d ∈ run, d ∉ reservedChars)
    (htail : ∀ d ∈ tail.head?, d ∈ reservedChars) : TakenFor src nested stop run run tail := by
  intro fuel done pending pos before warnings hfuel
  cases run with
  | nil => exact ⟨fuel, before, Nat.le_refl _, rfl⟩
  | cons c run =>
    obtain _ | fuel := fuel
    · omega
    have hc := hrun c (by simp)
    simp only [reservedChars, List.mem_cons, List.not_mem_nil, or_false, not_or] at hc
    have htake : (run ++ tail).takeWhile (fun c => !reservedChars.contains c) = run :=
      Text.takeWhile_append_of_head (fun d hd => by simpa using hrun d (by simp [hd])) fun d hd => by simpa using htail d hd
    have hreference : startsReference before c (run ++ tail).head? = false := by simp [startsReference, hc]
    have hclosing (name : String) : closingTag? name (c :: (run ++ tail)) = none := by
      unfold closingTag?
      split
      · exact absurd (List.cons.inj ‹_›).1 hc.2.1
      · rfl
    have hstep : sequence src nested stop (fuel + 1) done pending ⟨⟨pos, c :: run ++ tail⟩, before, warnings⟩ = (do
        drop (c :: run).length
        sequence src nested stop fuel done (pending.add pos (c :: run))) ⟨⟨pos, c :: run ++ tail⟩, before, warnings⟩ := by
      rw [sequence, List.cons_append]
      cases stop <;>
        simp only [bind, StateT.bind, Except.bind, get, getThe, MonadStateOf.get, StateT.get, pure, Except.pure, beq_iff_eq,
          hc, Bool.and_eq_true, false_and, if_false, hreference, Bool.false_eq_true, hclosing, htake] <;> rfl
    refine ⟨fuel, ((c :: run ++ tail).take (c :: run).length).getLast?.or before, by simp, ?_⟩
    rw [hstep, ← Cursor.skip_append]
    rfl

lemma takenFor_escape {t run tail : List Char} (hrun : ∀ d ∈ run, d ∉ reservedChars)
    (htail : ∀ d ∈ tail.head?, d ∈ reservedChars) : TakenFor src nested stop (run ++ t) (run ++ escape t) tail := by
  induction t generalizing run with
  | nil => simpa [escape] using takenFor_run hrun htail
  | cons c t ih =>
    by_cases hc : c ∈ reservedChars
    · have htext : escape (c :: t) = ['\\', c] ++ escape t := by simp [escape, hc]
      have hescaped := (takenFor_escaped (escape t ++ tail) hc).append (@ih [] (by simp)) (by simp)
      rw [htext]
      exact (takenFor_run hrun (by simp [Reader.reservedChars])).append hescaped id
    · have htext : run ++ escape (c :: t) = run ++ [c] ++ escape t := by simp [escape, hc]
      have hlonger : ∀ d ∈ run ++ [c], d ∉ reservedChars := by simpa [or_imp, forall_and, hc] using hrun
      rw [htext]
      simpa using ih hlonger

lemma templates_escape {levels : Nat} {before : Option Char} {pre tail : List Char} (t : String) (width : Nat)
    (hpre : '\n' ∉ pre) (htext : src.text = pre ++ (escape t.toList ++ tail))
    (htail : ∀ d ∈ tail.head?, d ∈ reservedChars)
    (hstop : ∀ fuel pending before, ∃ after,
      sequence src (templates src levels) stop (fuel + 1) [] pending ⟨⟨byteLength pre + byteLength (escape t.toList),
      tail⟩, before, #[]⟩ =
      .ok ((flush src pending []).reverse, ⟨⟨byteLength pre + byteLength (escape t.toList) + width, []⟩, after, #[]⟩)) :
    ∃ after, templates src (levels + 1) stop ⟨⟨byteLength pre, escape t.toList ++ tail⟩, before, #[]⟩ =
      .ok (literal t ⟨src.passage, src.startLine⟩,
        ⟨⟨byteLength pre + byteLength (escape t.toList) + width, []⟩, after, #[]⟩) := by
  obtain ⟨fuel, before', hle, heq⟩ := @takenFor_escape src (templates src levels) stop t.toList [] tail (by simp) htail
    ((escape t.toList ++ tail).length + 1) [] none (byteLength pre) before #[] (by simp only [List.length_append, List.nil_append]; omega)
  obtain _ | fuel := fuel
  · simp only [List.length_append, List.nil_append] at hle
    omega
  obtain ⟨after, hafter⟩ := hstop fuel (Pending.add none (byteLength pre) t.toList) before'
  refine ⟨after, (show _ = _ from heq).trans (hafter.trans ?_)⟩
  rw [← Source.loc_append hpre htext]
  by_cases ht : t = ""
  · simp [ht, Pending.add, flush, literal]
  · simp [ht, Pending.add, Pending.push, flush, literal]

lemma takeName_append {name s : List Char} (pos : Nat) (before : Option Char) (hname : ∀ c ∈ name, isNameChar c = true)
    (hs : ∀ c ∈ s.head?, isNameChar c = false) : ∃ before', takeName ⟨⟨pos, name ++ s⟩, before, #[]⟩ =
      .ok (String.ofList name, ⟨⟨pos + byteLength name, s⟩, before', #[]⟩) := by
  have hrun := Cursor.runWhile_append pos hname hs
  have hskip := Cursor.skip_append pos name s
  have htake (k : Cursor) : takeName ⟨k, before, #[]⟩ = .ok (String.ofList (k.runWhile isNameChar),
      ⟨k.skip (k.runWhile isNameChar).length, _, #[]⟩) := rfl
  exact ⟨_, by rw [htake, hrun, hskip]⟩

lemma parse_eq {ts : List Template} {r : Reading}
    (h : templates src maxNesting .finish ⟨⟨0, src.text⟩, none, #[]⟩ = .ok (ts, r)) :
    src.parse = .ok ⟨ts, r.warnings.toList⟩ := by
  unfold Source.parse
  change Except.bind (templates src maxNesting .finish ⟨⟨0, src.text⟩, none, #[]⟩) _ = _
  rw [h]
  rfl

lemma bind_ok {α β : Type} {x : Reader α} {a : α} {r r' : Reading} (f : α → Reader β) (h : x r = .ok (a, r')) :
    (x >>= f) r = f a r' := by
  simp [bind, StateT.bind, h, Except.bind]

variable (src) in
lemma reference_body {name cs : List Char} {body : List Template} {r : Reading}
    (hname : ∀ c ∈ name, isNameChar c = true) (hshape : src.shape? (String.ofList name) = none)
    (hbody : nested (.brace (byteLength ('@' :: name))) ⟨⟨byteLength ('@' :: name ++ ['{']), cs⟩, some '{', #[]⟩ =
      .ok (body, r)) :
    reference src nested '@' ⟨⟨0, '@' :: (name ++ '{' :: cs)⟩, none, #[]⟩ =
      .ok (Template.reference .constants (String.ofList name) [] (some body) (src.loc 0), r) := by
  obtain ⟨before, htake⟩ := takeName_append (s := '{' :: cs) 1 (some '@') hname (by rintro c ⟨⟩; decide)
  rw [Text.byteLength_append, Text.byteLength_cons] at hbody
  have hpos : pos ⟨⟨0, '@' :: (name ++ '{' :: cs)⟩, none, #[]⟩ = .ok (0, _) := rfl
  have hdrop : drop 1 ⟨⟨0, '@' :: (name ++ '{' :: cs)⟩, none, #[]⟩ = .ok ((), ⟨⟨1, name ++ '{' :: cs⟩, some '@', #[]⟩) := rfl
  have hremaining : remaining ⟨⟨1 + byteLength name, '{' :: cs⟩, before, #[]⟩ = .ok (cs.length + 1 + 1, _) := rfl
  have haccess : accessList src (cs.length + 1 + 1) [] ⟨⟨1 + byteLength name, '{' :: cs⟩, before, #[]⟩ = .ok ([], _) := rfl
  have hoptional : optionalBody nested true ⟨⟨1 + byteLength name, '{' :: cs⟩, before, #[]⟩ = .ok (some body, r) :=
    bind_ok (fun body => pure (some body)) hbody
  unfold reference
  rw [bind_ok _ hpos, bind_ok _ hdrop, bind_ok _ htake]
  simp only [hshape, ite_self]
  rw [bind_ok _ hremaining, bind_ok _ haccess]
  exact bind_ok _ hoptional

/-- A text is what its first part is read as, and the rest behind it. -/
lemma parse_first (x : Reader Template) {c : Char} {cs : List Char} (htext : src.text = c :: cs)
    (hstarts : ∀ fuel, sequence src (templates src 63) .finish (fuel + 1) [] none ⟨⟨0, c :: cs⟩, none, #[]⟩ =
      (x >>= fun t => sequence src (templates src 63) .finish fuel [t] none) ⟨⟨0, c :: cs⟩, none, #[]⟩) :
    src.parse = (x >>= fun t => sequence src (templates src 63) .finish (cs.length + 1) [t] none)
      ⟨⟨0, c :: cs⟩, none, #[]⟩ >>= fun p => pure ⟨p.1, p.2.warnings.toList⟩ := by
  rw [← hstarts, Source.parse, htext]
  rfl

end Reader

def isReferenceName (name : String) : Bool :=
  (name.toList.head?.any fun c => isAsciiLetter c || c == '_') && name.toList.all Reader.isNameChar

/-- Every text can be written literally: its escaped form is read as one text, the whole of it and
without a warning, in a passage, in an element and in the body of a reference. -/
theorem parse_escape (passage : String) (startLine : Nat) (shape? : String → Option Shape) (t : String) :
    let here : Location := ⟨passage, startLine⟩
    Source.parse ⟨passage, startLine, escape t.toList, shape?⟩ = .ok ⟨literal t here, []⟩ ∧
    Source.parse ⟨passage, startLine, "<b>".toList ++ (escape t.toList ++ "</b>".toList), shape?⟩ =
      .ok ⟨[.element "b" .empty .empty (literal t here) here], []⟩ ∧
    ∀ name, isReferenceName name = true → shape? name = none →
      Source.parse ⟨passage, startLine, '@' :: (name.toList ++ '{' :: (escape t.toList ++ ['}'])), shape?⟩ =
        .ok ⟨[.reference .constants name [] (some (literal t here)) here], []⟩ := by
  intro here
  refine ⟨?_, ?_, fun name hname hshape => ?_⟩
  · let src : Source := ⟨passage, startLine, escape t.toList, shape?⟩
    obtain ⟨after, h⟩ := @Reader.templates_escape src .finish 63 none [] [] t 0 (by simp) (by simp [src]) (by simp)
      fun fuel pending before => ⟨before, rfl⟩
    rw [List.append_nil] at h
    exact Reader.parse_eq h
  · let src : Source := ⟨passage, startLine, "<b>".toList ++ (escape t.toList ++ "</b>".toList), shape?⟩
    obtain ⟨after, h⟩ := @Reader.templates_escape src (.closeTag "b" 0) 62 (some '>') ['<', 'b', '>']
      ['<', '/', 'b', '>'] t 4 (by decide) rfl (by simp [Reader.reservedChars]) fun fuel pending before => ⟨some '>', rfl⟩
    have hloc : src.loc 0 = ⟨passage, startLine⟩ := Source.loc_append (by simp) (List.nil_append _).symm
    have htext : src.text = '<' :: 'b' :: '>' :: (escape t.toList ++ ['<', '/', 'b', '>']) := rfl
    have helement : Reader.element src (Reader.templates src 63) ⟨⟨0, src.text⟩, none, #[]⟩ = _ :=
      Reader.bind_ok (fun content => pure (Template.element "b" .empty .empty content (src.loc 0))) h
    rw [hloc, htext] at helement
    rw [Reader.parse_first _ htext fun _ => rfl, Reader.bind_ok _ helement]
    rfl
  · let src : Source := ⟨passage, startLine, '@' :: (name.toList ++ '{' :: (escape t.toList ++ ['}'])), shape?⟩
    rw [isReferenceName, Bool.and_eq_true, List.all_eq_true] at hname
    have hstarts : startsReference none '@' (name.toList ++ '{' :: (escape t.toList ++ ['}'])).head? = true := by
      cases hcs : name.toList with
      | nil => simp [hcs] at hname
      | cons c cs =>
        have hc : isAsciiLetter c = true ∨ c = '_' := by simpa [hcs] using hname.1
        rcases hc with hc | hc <;> simp [startsReference, hc]
    have hbreak : '\n' ∉ '@' :: name.toList ++ ['{'] := by
      intro hmem
      have : Reader.isNameChar '\n' = true := hname.2 '\n' (by simpa using hmem)
      contradiction
    obtain ⟨after, h⟩ := @Reader.templates_escape src (.brace (byteLength ('@' :: name.toList))) 62 (some '{')
      ('@' :: name.toList ++ ['{']) ['}'] t 1 hbreak (by simp [src]) (by simp [Reader.reservedChars])
      fun fuel pending before => ⟨some '}', rfl⟩
    have hloc : src.loc 0 = ⟨passage, startLine⟩ := Source.loc_append (by simp) (List.nil_append _).symm
    have htext : src.text = '@' :: (name.toList ++ '{' :: (escape t.toList ++ ['}'])) := rfl
    have hunknown : src.shape? (String.ofList name.toList) = none := by rw [String.ofList_toList]; exact hshape
    have hreference := Reader.reference_body src hname.2 hunknown h
    rw [String.ofList_toList, hloc] at hreference
    rw [Reader.parse_first _ htext fun _ => ?_, Reader.bind_ok _ hreference]
    · rfl
    · simp only [Reader.sequence, bind, StateT.bind, Except.bind, get, getThe, MonadStateOf.get, StateT.get, pure, Except.pure,
        hstarts]
      rfl

theorem parse_escape_markup :
    Source.parse ⟨"p", 1, "@note\x7ba\\_b \\/\\/ \\$c \\[\\[d]] \\<\\/b>\\\x7d\x7d".toList, fun _ => none⟩ =
      .ok ⟨[.reference .constants "note" [] (some [.text "a_b // $c [[d]] </b>\x7d" ⟨"p", 1⟩]) ⟨"p", 1⟩], []⟩ := by
  have htext : "@note\x7ba\\_b \\/\\/ \\$c \\[\\[d]] \\<\\/b>\\\x7d\x7d".toList =
      '@' :: ("note".toList ++ '{' :: (escape "a_b // $c [[d]] </b>\x7d".toList ++ ['}'])) := by decide
  rw [htext]
  exact (parse_escape "p" 1 (fun _ => none) "a_b // $c [[d]] </b>\x7d").2.2 "note" (by decide) rfl

end StoryMarkup.Markup
