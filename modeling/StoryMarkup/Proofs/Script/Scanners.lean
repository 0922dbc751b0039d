import StoryMarkup.Proofs.Text.Cursor
import StoryMarkup.Script.Lexer

/-! Scanners read the same whatever follows, wherever it stands. -/
namespace StoryMarkup.Script

open List Text
variable {k k' : Cursor} {c : Char} {start : Nat} {after : Cursor} {t done : List Char} {fuel : Nat}

def Reads {α : Type} (x : Cursor → Scan α) (a : α) (t f : List Char) : Prop :=
  ∀ pos, x ⟨pos, t ++ f⟩ = .ok (a, ⟨pos + byteLength t, f⟩)

structure Between (k : Cursor) (t : List Char) (after : Cursor) : Prop where
  rest : k.rest = t ++ after.rest
  pos : after.pos = k.pos + byteLength t

namespace Between

lemma trans {mid : Cursor} {s : List Char} (h : Between k s mid) (h' : Between mid t after) :
    Between k (s ++ t) after where
  rest := by rw [h.rest, h'.rest, append_assoc]
  pos := by rw [h'.pos, h.pos, byteLength_append, Nat.add_assoc]

lemma of_next? (h : k.next? = some (c, after)) : Between k [c] after := by
  unfold Cursor.next? at h
  split at h
  · cases h
  · rename_i hrest
    cases h
    exact ⟨hrest, by simp⟩

lemma skip {rest : List Char} (h : k.rest = t ++ rest) : Between k t (k.skip t.length) := by
  obtain ⟨pos, cs⟩ := k
  subst h
  rw [Cursor.skip_append]
  exact ⟨rfl, rfl⟩

lemma skipWhile (p : Char → Bool) (k : Cursor) : Between k (k.runWhile p) (k.skipWhile p) :=
  ⟨(takeWhile_append_dropWhile).symm, rfl⟩

end Between

lemma mem_runWhile {p : Char → Bool} (h : c ∈ k.runWhile p) : p c = true :=
  all_eq_true.1 all_takeWhile c h

lemma exists_reads_scanHexDigits {count : Nat} (h : scanHexDigits count k = (some c, k')) :
    ∃ t, byteLength t = count ∧ Between k t k' ∧
      ∀ pos f, scanHexDigits count ⟨pos, t ++ f⟩ = (some c, ⟨pos + byteLength t, f⟩) := by
  unfold scanHexDigits at h
  split at h
  · simp at h
  · rename_i t ht
    obtain ⟨rest, hrest, hcount⟩ := eq_append_of_takeBytes? ht
    split at h
    · simp at h
    · rename_i n hn
      obtain ⟨hc, rfl⟩ := Prod.mk.inj h
      refine ⟨t, hcount, .skip hrest, fun pos f => ?_⟩
      subst hcount
      simp only [scanHexDigits, takeBytes?_append, hn, hc, Cursor.skip_append]

lemma exists_reads_scanBracedDigits (h : scanBracedDigits k = (some c, k')) :
    ∃ t, Between k t k' ∧ ∀ pos f, scanBracedDigits ⟨pos, t ++ f⟩ = (some c, ⟨pos + byteLength t, f⟩) := by
  unfold scanBracedDigits at h
  simp only at h
  split at h
  · rename_i k₁ hnext
    obtain ⟨hc, rfl⟩ := Prod.mk.inj h
    refine ⟨_, (Between.skipWhile isAsciiHexDigit k).trans (.of_next? hnext), fun pos f => ?_⟩
    have hdigits : ∀ c ∈ k.runWhile isAsciiHexDigit, isAsciiHexDigit c = true := fun c hc => mem_runWhile hc
    have hbrace : ∀ c ∈ ('}' :: f).head?, isAsciiHexDigit c = false := by
      intro c hc
      cases hc
      decide
    rw [append_assoc, scanBracedDigits, singleton_append, Cursor.skipWhile_append pos hdigits
      hbrace, Cursor.runWhile_append pos hdigits hbrace]
    simp only [Cursor.next?, hc, byteLength_append, byteLength_cons, byteLength_nil, Nat.add_zero, Nat.add_assoc]
  · simp at h
  · simp at h

lemma exists_reads_scanUnicode
    (h : (if k.peek? == some '{' then scanBracedDigits (k.skip 1) else scanHexDigits 4 k) =
    (some c, k')) : ∃ t, Between k t k' ∧ ∀ pos f,
      (if Cursor.peek? ⟨pos, t ++ f⟩ == some '{' then scanBracedDigits (Cursor.skip ⟨pos, t ++ f⟩ 1)
        else scanHexDigits 4 ⟨pos, t ++ f⟩) = (some c, ⟨pos + byteLength t, f⟩) := by
  by_cases hbrace : (k.peek? == some '{') = true
  · rw [if_pos hbrace] at h
    obtain ⟨t, hbetween, hreads⟩ := exists_reads_scanBracedDigits h
    obtain ⟨rest, hrest⟩ : ∃ rest, k.rest = ['{'] ++ rest := by
      cases hk : k.rest with
      | nil => simp [Cursor.peek?, hk] at hbrace
      | cons c rest =>
        simp only [Cursor.peek?, hk, head?_cons, beq_iff_eq, Option.some.injEq] at hbrace
        exact ⟨rest, by rw [hbrace]; rfl⟩
    refine ⟨_, (Between.skip hrest).trans hbetween, fun pos f => ?_⟩
    rw [if_pos (by simp [Cursor.peek?]), append_assoc, singleton_append, Cursor.skip_one, hreads,
      singleton_append, byteLength_cons, Nat.add_assoc]
  · rw [if_neg hbrace] at h
    obtain ⟨t, hcount, hbetween, hreads⟩ := exists_reads_scanHexDigits h
    refine ⟨t, hbetween, fun pos f => ?_⟩
    cases t with
    | nil => simp at hcount
    | cons d t =>
      have hd : d ≠ '{' := by
        rintro rfl
        exact hbrace (by simp [Cursor.peek?, hbetween.rest])
      rw [if_neg (by simp [Cursor.peek?, hd]), hreads]

lemma exists_reads_scanEscape {cs : List Char} (h : scanEscape start k = .ok (cs, k')) :
    ∃ t, t ≠ [] ∧ cs.length ≤ t.length ∧ Between k t k' ∧ ∀ start f, Reads (scanEscape start) cs t f := by
  unfold scanEscape at h
  split at h
  · cases h
  iterate 5
    · rename_i hnext
      cases h
      exact ⟨_, by simp, by simp, .of_next? hnext, fun start f pos => by simp [scanEscape, Cursor.next?]⟩
  · rename_i k₁ hnext
    split at h
    · rename_i hdigits
      cases h
      obtain ⟨t, -, hbetween, hreads⟩ := exists_reads_scanHexDigits hdigits
      refine ⟨_, by simp, by simp, (Between.of_next? hnext).trans hbetween, fun start f pos => ?_⟩
      simp [scanEscape, Cursor.next?, hreads, Nat.add_assoc]
    · cases h
  · rename_i k₁ hnext
    split at h
    rename_i c? k₂ hdigits
    cases c? with
    | none => cases h
    | some c =>
      cases h
      obtain ⟨t, hbetween, hreads⟩ := exists_reads_scanUnicode hdigits
      refine ⟨_, by simp, by simp, (Between.of_next? hnext).trans hbetween, fun start f pos => ?_⟩
      simp only [scanEscape, Cursor.next?, cons_append, nil_append, hreads, byteLength_cons, Nat.add_assoc]
  · rename_i hnext
    cases h
    exact ⟨_, by simp, by simp, .of_next? hnext, fun start f pos => by simp [scanEscape, Cursor.next?]⟩

/-- A scanner that spends fuel reads a body and its end, whatever follows. -/
abbrev ReadsOn {α : Type} (scan : Nat → Nat → Cursor → Scan α) (a : α) (body ending : List Char) : Prop :=
  ∀ start fuel f, body.length < fuel → Reads (scan start fuel) a (body ++ ending) f

section

variable {α : Type} {scan scan' : Nat → Nat → Cursor → Scan α} {a : α} {body ending : List Char}

lemma ReadsOn.stop
    (h : ∀ start fuel pos f, scan start (fuel + 1) ⟨pos, ending ++ f⟩ =
    .ok (a, ⟨pos + byteLength ending, f⟩)) : ReadsOn scan a [] ending := by
  intro start fuel f hfuel pos
  obtain _ | fuel := fuel
  · cases hfuel
  exact h start fuel pos f

lemma ReadsOn.step (h : ReadsOn scan' a body ending) (ht : t ≠ [])
    (hstep : ∀ start fuel pos f, scan start (fuel + 1) ⟨pos, t ++ (body ++ ending ++ f)⟩ =
      scan' start fuel ⟨pos + byteLength t, body ++ ending ++ f⟩) : ReadsOn scan a (t ++ body) ending := by
  intro start fuel f hfuel pos
  have hpos := length_pos_iff.2 ht
  rw [length_append] at hfuel
  obtain _ | fuel := fuel
  · omega
  have htext : t ++ body ++ ending ++ f = t ++ (body ++ ending ++ f) := by simp
  rw [htext, hstep, h start fuel f (by omega), append_assoc, byteLength_append t, Nat.add_assoc]

end

lemma exists_reads_scanStringBody {quote : Char} {kind : TokenKind}
    (h : scanStringBody quote start fuel done k = .ok (kind, k')) :
    ∃ body, Between k (body ++ [quote]) k' ∧ (∃ s, kind = .string s ∧ s.length ≤ done.length + body.length) ∧
      ReadsOn (scanStringBody quote · · done) kind body [quote] := by
  fun_induction scanStringBody quote start fuel done k with
  | case4 done k fuel c k₁ hnext hnl hquote =>
    cases h
    obtain rfl : c = quote := by simpa using hquote
    exact ⟨[], .of_next? hnext, ⟨_, rfl, by simp⟩, .stop fun _ _ _ _ => by simp [scanStringBody, Cursor.next?, hnl]⟩
  | case5 done k fuel c k₁ hnext hnl hquote hslash cs k₂ hescape ih =>
    obtain ⟨t, ht, hcs, hbetween, hreads⟩ := exists_reads_scanEscape hescape
    obtain ⟨body, hrest, ⟨s, hkind, hs⟩, hbody⟩ := ih h
    refine ⟨c :: t ++ body, ?_, ⟨s, hkind, ?_⟩, hbody.step (by simp) fun start fuel pos f => ?_⟩
    · simpa using ((Between.of_next? hnext).trans hbetween).trans hrest
    · simp only [length_append, length_cons] at hs ⊢
      omega
    · simp only [cons_append, scanStringBody, Cursor.next?, if_neg hnl, if_neg hquote,
        if_pos hslash, hreads start _ _, byteLength_cons, Nat.add_assoc]
  | case7 done k fuel c k₁ hnext hnl hquote hslash ih =>
    obtain ⟨body, hrest, ⟨s, hkind, hs⟩, hbody⟩ := ih h
    rw [length_cons, Nat.add_right_comm] at hs
    refine ⟨[c] ++ body, (Between.of_next? hnext).trans hrest, ⟨s, hkind, hs⟩, hbody.step (by simp) fun _ _ _ _ => ?_⟩
    simp [scanStringBody, Cursor.next?, hnl, hquote, hslash]
  | _ => cases h

lemma exists_reads_scanPatternBody {inClass : Bool} {src : List Char}
    (h : scanPatternBody start fuel inClass done k = .ok (src, k')) :
    ∃ body, Between k (body ++ ['/']) k' ∧ src.length ≤ done.length + body.length ∧
      ReadsOn (scanPatternBody · · inClass done) src body ['/'] := by
  -- Most characters differ only in what they do to the class.
  have hstep : ∀ {c : Char} {done : List Char} {k k₁ : Cursor} {inClass inClass' : Bool}, k.next? = some (c, k₁) →
      (∃ body, Between k₁ (body ++ ['/']) k' ∧ src.length ≤ (c :: done).length + body.length ∧
        ReadsOn (scanPatternBody · · inClass' (c :: done)) src body ['/']) →
      (∀ start fuel pos rest, scanPatternBody start (fuel + 1) inClass done ⟨pos, c :: rest⟩ =
        scanPatternBody start fuel inClass' (c :: done) ⟨pos + c.utf8Size, rest⟩) →
      ∃ body, Between k (body ++ ['/']) k' ∧ src.length ≤ done.length + body.length ∧
        ReadsOn (scanPatternBody · · inClass done) src body ['/'] := by
    rintro c done k k₁ inClass inClass' hnext ⟨body, hrest, hlength, hbody⟩ heq
    rw [length_cons, Nat.add_right_comm] at hlength
    refine ⟨[c] ++ body, (Between.of_next? hnext).trans hrest, hlength, hbody.step (by simp) fun _ _ _ _ => ?_⟩
    rw [singleton_append, heq, byteLength_cons, byteLength_nil, Nat.add_zero]
  fun_induction scanPatternBody start fuel inClass done k with
  | case6 k inClass done fuel c k₁ hnext hnl hslash d k₂ hnext' hnl' ih =>
    obtain ⟨body, hrest, hlength, hbody⟩ := ih h
    refine ⟨[c, d] ++ body, (Between.of_next? hnext).trans ((Between.of_next? hnext').trans hrest),
      by simp at hlength ⊢; omega, hbody.step (by simp) fun _ _ _ _ => ?_⟩
    simp [scanPatternBody, Cursor.next?, hnl, hslash, hnl', Nat.add_assoc]
  | case7 k inClass done fuel c k₁ hnext hnl hslash hopen ih =>
    exact hstep hnext (ih h) fun _ _ _ _ => by simp [scanPatternBody, Cursor.next?, hnl, hslash, hopen]
  | case8 k inClass done fuel c k₁ hnext hnl hslash hopen hclose ih =>
    exact hstep hnext (ih h) fun _ _ _ _ => by simp [scanPatternBody, Cursor.next?, hnl, hslash, hopen, hclose]
  | case9 k inClass done fuel c k₁ hnext hnl hslash hopen hclose hend =>
    cases h
    obtain ⟨rfl, hout⟩ : c = '/' ∧ inClass = false := by simpa using hend
    exact ⟨[], .of_next? hnext, by simp, .stop fun _ _ _ _ => by simp [scanPatternBody, Cursor.next?, hout]⟩
  | case10 k inClass done fuel c k₁ hnext hnl hslash hopen hclose hend ih =>
    exact hstep hnext (ih h) fun _ _ _ _ => by
      simp only [scanPatternBody, Cursor.next?, if_neg hnl, if_neg hslash, if_neg hopen, if_neg hclose, if_neg hend]
  | _ => cases h

lemma exists_reads_scanBlockComment {newlines n : Nat} (h : scanBlockComment start fuel newlines k = .ok (n, k')) :
    ∃ body, Between k (body ++ ['*', '/']) k' ∧ ReadsOn (scanBlockComment · · newlines) n body ['*', '/'] := by
  fun_induction scanBlockComment start fuel newlines k with
  | case3 newlines k fuel c k₁ hnext hend =>
    cases h
    simp only [Bool.and_eq_true, beq_iff_eq, Cursor.peek?, head?_eq_some_iff] at hend
    obtain ⟨rfl, rest, hrest⟩ := hend
    refine ⟨[], (Between.of_next? hnext).trans (.skip (t := ['/']) hrest), .stop fun _ _ _ _ => ?_⟩
    simp [scanBlockComment, Cursor.next?, Cursor.peek?, Cursor.skip_one, Nat.add_assoc]
  | case4 newlines k fuel c k₁ hnext hend ih =>
    obtain ⟨body, hrest, hbody⟩ := ih h
    refine ⟨[c] ++ body, (Between.of_next? hnext).trans hrest, hbody.step (by simp) fun _ _ pos f => ?_⟩
    have hpeek : Cursor.peek? ⟨pos + c.utf8Size, body ++ ['*', '/'] ++ f⟩ = k₁.peek? := by
      rw [Cursor.peek?, Cursor.peek?, hrest.rest]
      cases body <;> rfl
    rw [← hpeek] at hend
    simp only [singleton_append, scanBlockComment, Cursor.next?, if_neg hend, byteLength_cons,
      byteLength_nil, Nat.add_zero]
  | _ => cases h

end StoryMarkup.Script
