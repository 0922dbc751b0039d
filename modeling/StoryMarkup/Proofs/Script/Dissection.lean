import StoryMarkup.Proofs.Script.Phrases

/-! Every text that the lexer reads is the text of a well-formed phrase, built from the lexer's
steps. -/
namespace StoryMarkup.Script

open List Text
variable {f g t : List Char} {c : Char} {p keep : Bool} {levels : Nat} {after lx : Lexer} {kind : TokenKind}
  {token : Token} {start fuel opened pos : Nat}

/-! Of what follows a phrase only the first character matters, and what can be part of a number
behind it. -/

lemma head?_append_congr {s : List Char} (h : g.head? = f.head?) : (s ++ g).head? = (s ++ f).head? := by
  cases s with
  | nil => exact h
  | cons c s => rfl

lemma opensComment_cons_cons (c d : Char) (cs : List Char) :
    opensComment (c :: d :: cs) = (c == '/' && (d == '/' || d == '*')) := by
  unfold opensComment
  split <;> simp_all

lemma opensComment_cons (h : g.head? = f.head?) : opensComment (c :: g) = opensComment (c :: f) := by
  cases f with
  | nil => rw [head?_eq_none_iff.1 h]
  | cons d f =>
    obtain ⟨g, rfl⟩ := head?_eq_some_iff.1 h
    rw [opensComment_cons_cons, opensComment_cons_cons]

lemma opensComment_of_shift (ht : t ≠ []) (h : Shift f g) (hf : opensComment (t ++ f) = false) :
    opensComment (t ++ g) = false := by
  match t with
  | [] => exact absurd rfl ht
  | c :: d :: cs =>
    rw [cons_append, cons_append, opensComment_cons_cons] at hf ⊢
    exact hf
  | [c] =>
    cases h with
    | refl => exact hf
    | cons d h =>
      rw [singleton_append, opensComment_cons_cons] at hf ⊢
      exact hf
    | @head a b f g ha hb hslash hstart =>
      have hstar : b ≠ '*' := by
        rintro rfl
        exact absurd hb (by decide)
      simp [opensComment_cons_cons, hslash, hstar]
    | gone => simp [opensComment]

lemma opensComment_of_startsName (h : t.head?.any isIdentStart = true) : opensComment (t ++ f) = false := by
  cases t with
  | nil => simp at h
  | cons c cs =>
    have hc : c ≠ '/' := by
      rintro rfl
      exact absurd (show isIdentStart '/' = true from h) (by decide)
    cases hcs : cs ++ f <;> simp [hcs, opensComment, hc]

lemma Phrase.Valid.of_follow {x : Phrase} {p : Bool} {f g : List Char} (h : x.Valid p f) (hshift : Shift f g)
    (hhead : g.head? = f.head?) : x.Valid p g := by
  match x with
  | .done => trivial
  | .blank c rest => exact ⟨h.1, h.2.of_follow hshift hhead⟩
  | .comment newlines t rest => exact ⟨h.1.of_head (head?_append_congr hhead), h.2.of_follow hshift hhead⟩
  | .word kind t rest =>
    obtain ⟨hword, hcomment, hrest⟩ := h
    have hnext := head?_append_congr (s := rest.text) hhead
    refine ⟨hword.of_shift (hshift.append rest.text) (fun c hc => .inl (hnext ▸ hc)) (fun _ => rfl), ?_,
      hrest.of_follow hshift hhead⟩
    obtain ⟨c, cs, rfl, -⟩ := hword.reads
    rw [← hcomment]
    exact opensComment_cons (head?_append_congr hnext)
  | .template body rest => exact ⟨h.1, h.2.of_follow hshift hhead⟩

lemma Phrase.Valid.of_close {x : Phrase} (h : x.Valid p ('}' :: f)) (g : List Char) : x.Valid p ('}' :: g) :=
  h.of_follow (.head rfl rfl (by decide) id) rfl

/-! Templates and their holes. -/

def HolesRead (levels : Nat) : Prop :=
  ∀ start k after, holeEndAt levels start k = .ok after → ∃ x : Phrase,
    (∀ f, x.Valid true ('}' :: f)) ∧ x.Closes 0 ∧ x.depth + 1 ≤ levels ∧ Between k (x.text ++ ['}']) after

lemma exists_quote {parts : List TemplatePart} {run : List Char} {k after : Cursor} (hholes : HolesRead levels)
    (h : scanTemplateBody (holeEndAt levels) start fuel parts run k = .ok (kind, after)) :
    ∃ q : Quote, q.Valid ∧ q.depth ≤ levels ∧ Between k q.text after := by
  fun_induction scanTemplateBody (holeEndAt levels) start fuel parts run k with
  | case3 parts run k fuel c next hnext hquote =>
    cases h
    obtain rfl : c = backquote := beq_iff_eq.1 hquote
    exact ⟨.done, trivial, Nat.zero_le levels, .of_next? hnext⟩
  | case4 parts run k fuel c next hnext hquote hslash cs k₂ hescape ih =>
    obtain rfl : c = '\\' := by simpa using hslash
    obtain ⟨t, -, -, hbetween, hreads⟩ := exists_reads_scanEscape hescape
    obtain ⟨q, hvalid, hdepth, hq⟩ := ih h
    exact ⟨.piece _ ('\\' :: t) q, ⟨.escape hreads, hvalid⟩, hdepth, ((Between.of_next? hnext).trans hbetween).trans hq⟩
  | case6 parts run k fuel c next hnext hquote hslash hopen inner after hend hole ih =>
    obtain ⟨rfl, hpeek⟩ : c = '$' ∧ next.peek? = some '{' := by simpa using hopen
    obtain ⟨cs, hcs⟩ := head?_eq_some_iff.1 hpeek
    obtain ⟨x, hx, hcloses, hxdepth, hbetween⟩ := hholes _ _ _ hend
    obtain ⟨q, hvalid, hdepth, hq⟩ := ih h
    refine ⟨.hole x q, ⟨hx, hcloses, hvalid⟩, Nat.max_le.2 ⟨hxdepth, hdepth⟩, ?_⟩
    have hskip : Between next ['{'] (next.skip 1) := .skip (t := ['{']) hcs
    simpa [Quote.text] using ((Between.of_next? hnext).trans hskip).trans (hbetween.trans hq)
  | case8 parts run k fuel c next hnext hquote hslash hopen ih =>
    obtain ⟨q, hvalid, hdepth, hq⟩ := ih h
    refine ⟨.piece [c] [c] q, ⟨.plain (mt beq_iff_eq.2 hquote) (by simpa using hslash) ?_, hvalid⟩, hdepth,
      (Between.of_next? hnext).trans hq⟩
    rintro rfl hbrace
    have hpeek : next.peek? = some '{' := by
      rw [Cursor.peek?, hq.rest]
      cases hq : q.text with
      | nil => exact absurd hq q.text_ne_nil
      | cons d cs =>
        rw [hq] at hbrace
        exact hbrace
    simp [hpeek] at hopen
  | _ => cases h

/-- What one step of the lexer reads: blanks and skipped comments, and behind them a token, a
comment that is kept or the end of the text. -/
inductive Scans (keep : Bool) (levels : Nat) : Lexer → Token → Lexer → Prop
  | eof {pos : Nat} {p : Bool} : Scans keep levels ⟨⟨pos, []⟩, p⟩ ⟨.eof, ⟨pos, pos⟩⟩ ⟨⟨pos, []⟩, p⟩
  | blank {c : Char} {cs : List Char} {pos : Nat} {p : Bool} {token : Token} {after : Lexer} (hc : isBlank c = true)
    (h : Scans keep levels ⟨⟨pos + c.utf8Size, cs⟩, p⟩ token after) : Scans keep levels ⟨⟨pos, c :: cs⟩, p⟩ token after
  | skip {t f : List Char} {newlines pos : Nat} {p : Bool} {token : Token} {after : Lexer} (hkeep : keep = false)
    (hcomment : Comment newlines t f) (h : Scans keep levels ⟨⟨pos + byteLength t, f⟩, p⟩ token after) :
    Scans keep levels ⟨⟨pos, t ++ f⟩, p⟩ token after
  | comment {t f : List Char} {newlines pos : Nat} {p : Bool} (hkeep : keep = true) (hcomment : Comment newlines t f) :
    Scans keep levels ⟨⟨pos, t ++ f⟩, p⟩ ⟨.comment newlines, ⟨pos, pos + byteLength t⟩⟩ ⟨⟨pos + byteLength t, f⟩, p⟩
  | word {kind : TokenKind} {t f : List Char} {pos : Nat} {p : Bool} (hword : Word p kind t f)
    (hcomment : opensComment (t ++ f) = false) :
    Scans keep levels ⟨⟨pos, t ++ f⟩, p⟩ ⟨kind, ⟨pos, pos + byteLength t⟩⟩
      ⟨⟨pos + byteLength t, f⟩, kind.allowsPattern⟩
  | template {q : Quote} {f : List Char} {pos : Nat} {p : Bool} (hq : q.Valid) (hdepth : q.depth ≤ levels) :
    Scans keep levels ⟨⟨pos, backquote :: (q.text ++ f)⟩, p⟩
      ⟨.template (q.parts true [] (pos + 1)), ⟨pos, pos + 1 + byteLength q.text⟩⟩
      ⟨⟨pos + 1 + byteLength q.text, f⟩, false⟩

lemma HolesRead.scans (hholes : HolesRead levels) (h : lx.scan keep levels = .ok (token, after)) :
    Scans keep levels lx token after := by
  obtain ⟨⟨pos, cs⟩, p⟩ := lx
  induction hn : cs.length using Nat.strongRecOn generalizing pos cs with
  | ind n ih =>
    subst hn
    cases cs with
    | nil =>
      rw [scan_nil] at h
      cases h
      exact .eof
    | cons c cs =>
      cases hblank : isBlank c with
      | true =>
        rw [scan_blank hblank] at h
        exact .blank hblank (ih _ (by simp) _ _ h rfl)
      | false =>
        have hskip := skipWhile_isBlank_of_head pos (c :: cs) (by simpa using hblank)
        have hscan := h
        simp only [scan_eq, Lexer.scanWith, hskip, Cursor.peek?, head?_cons] at hscan
        cases hcomment : scanComment? ⟨pos, c :: cs⟩ with
        | none =>
          have hopens := scanComment?_eq_none_iff.1 hcomment
          simp only [hcomment] at hscan
          cases hkind : scanKind (holeEndAt levels) p c ⟨pos, c :: cs⟩ with
          | error e =>
            simp only [hkind] at hscan
            cases hscan
          | ok found =>
            obtain ⟨kind, next⟩ := found
            simp only [hkind] at hscan
            cases hscan
            by_cases hquote : c = backquote
            · subst hquote
              rw [scanKind_backquote, show Cursor.skip ⟨pos, backquote :: cs⟩ 1 = ⟨pos + 1, cs⟩ from Cursor.skip_one _ _ _]
                at hkind
              obtain ⟨q, hq, hdepth, hbetween⟩ := exists_quote hholes hkind
              obtain ⟨pos', f⟩ := next
              obtain rfl : pos' = pos + 1 + byteLength q.text := hbetween.pos
              obtain rfl : cs = q.text ++ f := hbetween.rest
              rw [q.reads hq hdepth _ _ _ _ _ _ (by simp; omega)] at hkind
              cases hkind
              exact .template hq hdepth
            · obtain ⟨t, hbetween, hword⟩ := exists_word_of_scanKind rfl hquote hkind
              obtain ⟨pos', f⟩ := next
              obtain rfl : pos' = pos + byteLength t := hbetween.pos
              have htext : c :: cs = t ++ f := hbetween.rest
              simp only [htext] at hopens ⊢
              exact .word hword hopens
        | some result =>
          cases result with
          | error e =>
            simp only [hcomment] at hscan
            cases hscan
          | ok found =>
            obtain ⟨newlines, next⟩ := found
            obtain ⟨t, hbetween, hremark⟩ := exists_comment hcomment
            obtain ⟨pos', f⟩ := next
            obtain rfl : pos' = pos + byteLength t := hbetween.pos
            have htext : c :: cs = t ++ f := hbetween.rest
            rw [htext] at h ih ⊢
            cases keep with
            | true =>
              rw [scan_comment_keep hremark.comment] at h
              cases h
              exact .comment rfl hremark.comment
            | false =>
              rw [scan_comment_skip hremark.comment] at h
              have hlength : f.length < (t ++ f).length := by
                have := length_pos_iff.2 hremark.comment.ne_nil
                rw [length_append]
                omega
              exact .skip rfl hremark.comment (ih _ hlength _ _ h rfl)

def EndsHole (levels opened : Nat) (lx : Lexer) (after : Cursor) : Prop :=
  ∃ x : Phrase, x.Valid lx.patternAllowed ('}' :: after.rest) ∧ x.Closes opened ∧ x.depth ≤ levels ∧
    Between lx.cursor (x.text ++ ['}']) after

lemma EndsHole.word {opened' : Nat} {after : Cursor} (hword : Word p kind t f)
    (hcomment : opensComment (t ++ f) = false)
    (h : EndsHole levels opened' ⟨⟨pos + byteLength t, f⟩, kind.allowsPattern⟩ after)
    (hcloses : ∀ x : Phrase, x.Closes opened' → (Phrase.word kind t x).Closes opened) :
    EndsHole levels opened ⟨⟨pos, t ++ f⟩, p⟩ after := by
  obtain ⟨x, hvalid, hx, hdepth, hbetween⟩ := h
  have hf : x.text ++ '}' :: after.rest = f := by simpa using hbetween.rest.symm
  refine ⟨.word kind t x, ⟨hf.symm ▸ hword, hf.symm ▸ hcomment, hvalid⟩, hcloses x hx, hdepth, ?_⟩
  have hhere : Between ⟨pos, t ++ f⟩ t ⟨pos + byteLength t, f⟩ := ⟨rfl, rfl⟩
  simpa [Phrase.text] using hhere.trans hbetween

lemma Word.eq_single (h : Word p kind t f) (hmem : (c, kind) ∈ punctuation) : t = [c] := by
  cases h with
  | @single d _ _ hd =>
    simp only [punctuation, mem_cons, Prod.mk.injEq, not_mem_nil, or_false] at hmem
    rcases hmem with ⟨rfl, rfl⟩ | ⟨rfl, rfl⟩ | ⟨rfl, rfl⟩ | ⟨rfl, rfl⟩ | ⟨rfl, rfl⟩ | ⟨rfl, rfl⟩ | ⟨rfl, rfl⟩ | ⟨rfl, rfl⟩ <;>
      simpa [punctuation] using hd
  | string _ _ hkind =>
    obtain ⟨s, rfl⟩ := hkind
    simp [punctuation] at hmem
  | _ => simp [punctuation] at hmem

lemma endsHole_of_findHoleEnd {after : Cursor} (hholes : HolesRead levels)
    (h : Lexer.findHoleEnd (Lexer.scan false levels) start fuel opened lx = .ok after) :
    EndsHole levels opened lx after := by
  induction hn : lx.cursor.rest.length using Nat.strongRecOn generalizing fuel opened lx with
  | ind n ih =>
    subst hn
    cases fuel with
    | zero => cases h
    | succ fuel =>
      match hscan : Lexer.scan false levels lx with
      | .error e =>
        simp only [Lexer.findHoleEnd, hscan] at h
        cases h
      | .ok (token, next) =>
        cases hholes.scans hscan with
        | eof =>
          simp only [Lexer.findHoleEnd, hscan] at h
          cases h
        | @blank c cs pos p _ _ hc _ =>
          rw [findHoleEnd_congr start (scan_blank hc)] at h
          obtain ⟨x, hvalid, hx, hdepth, hbetween⟩ := ih _ (by simp) h rfl
          have hhere : Between ⟨pos, c :: cs⟩ [c] ⟨pos + c.utf8Size, cs⟩ := ⟨rfl, by simp⟩
          exact ⟨.blank c x, ⟨hc, hvalid⟩, hx, hdepth, hhere.trans hbetween⟩
        | @skip t f newlines pos p _ _ _ hcomment _ =>
          have hpos := length_pos_iff.2 hcomment.ne_nil
          rw [findHoleEnd_congr start (scan_comment_skip hcomment)] at h
          obtain ⟨x, hvalid, hx, hdepth, hbetween⟩ := ih _ (by simp; omega) h rfl
          have hhere : Between ⟨pos, t ++ f⟩ t ⟨pos + byteLength t, f⟩ := ⟨rfl, rfl⟩
          have hf : x.text ++ '}' :: after.rest = f := by simpa using hbetween.rest.symm
          refine ⟨.comment newlines t x, ⟨hf.symm ▸ hcomment, hvalid⟩, hx, hdepth, ?_⟩
          simpa [Phrase.text] using hhere.trans hbetween
        | comment hkeep => cases hkeep
        | @word kind t f pos p hword hcomment =>
          have hpos := length_pos_iff.2 hword.ne_nil
          have hless : f.length < (t ++ f).length := by
            rw [length_append]
            omega
          simp only [Lexer.findHoleEnd, hscan] at h
          split at h
          · cases h
          · exact .word hword hcomment (ih _ hless h rfl) fun x hx => hx
          · split at h
            · cases h
              obtain rfl : t = ['}'] := hword.eq_single (by simp [punctuation])
              exact ⟨.done, trivial, rfl, Nat.zero_le levels, ⟨rfl, rfl⟩⟩
            · rename_i d
              exact .word hword hcomment (ih _ hless h rfl) fun x hx => ⟨d, rfl, hx⟩
          · rename_i hopening hclosing
            refine .word hword hcomment (ih _ hless h rfl) fun x hx => ?_
            rw [Phrase.Closes]
            · exact hx
            · exact hopening
            · exact hclosing
        | @template q f pos p hq hqdepth =>
          have hless : f.length < (backquote :: (q.text ++ f)).length := by
            rw [length_cons, length_append]
            omega
          rw [findHoleEnd_template start hscan] at h
          obtain ⟨x, hvalid, hx, hdepth, hbetween⟩ := ih _ hless h rfl
          have hhere : Between ⟨pos, backquote :: (q.text ++ f)⟩ (backquote :: q.text) ⟨pos + 1 + byteLength q.text, f⟩ :=
            ⟨rfl, by simp [Nat.add_assoc]⟩
          refine ⟨.template q x, ⟨hq, hvalid⟩, hx, Nat.max_le.2 ⟨hqdepth, hdepth⟩, ?_⟩
          simpa [Phrase.text] using hhere.trans hbetween

lemma holesRead_succ (ih : HolesRead levels) : HolesRead (levels + 1) := by
  intro start k after h
  obtain ⟨x, hvalid, hcloses, hdepth, hbetween⟩ := endsHole_of_findHoleEnd ih h
  exact ⟨x, fun f => hvalid.of_close f, hcloses, Nat.succ_le_succ hdepth, hbetween⟩

lemma holesRead (levels : Nat) : HolesRead levels := by
  induction levels with
  | zero => intro start k after h; cases h
  | succ levels ih => exact holesRead_succ ih

/-! Texts that are read up to some place. -/

def Phrase.tokens : Nat → Phrase → List Token
  | _, .done => []
  | pos, .blank c rest => rest.tokens (pos + c.utf8Size)
  | pos, .comment newlines t rest =>
    ⟨.comment newlines, ⟨pos, pos + byteLength t⟩⟩ :: rest.tokens (pos + byteLength t)
  | pos, .word kind t rest => ⟨kind, ⟨pos, pos + byteLength t⟩⟩ :: rest.tokens (pos + byteLength t)
  | pos, .template body rest =>
    ⟨.template (body.parts true [] (pos + 1)), ⟨pos, pos + 1 + byteLength body.text⟩⟩ ::
      rest.tokens (pos + 1 + byteLength body.text)

def ReadAs (levels : Nat) (tokens : List Token) (f : List Char) (lx : Lexer) : Prop :=
  ∃ x : Phrase, lx.cursor.rest = x.text ++ f ∧ x.Valid lx.patternAllowed f ∧ x.depth ≤ levels ∧
    x.tokens lx.cursor.pos = tokens

variable {tokens : List Token}

lemma ReadAs.blank {cs : List Char} (hc : isBlank c = true)
    (h : ReadAs levels tokens f ⟨⟨pos + c.utf8Size, cs⟩, p⟩) : ReadAs levels tokens f ⟨⟨pos, c :: cs⟩, p⟩ := by
  obtain ⟨x, htext, hvalid, hdepth, htokens⟩ := h
  exact ⟨.blank c x, congrArg (c :: ·) htext, ⟨hc, hvalid⟩, hdepth, htokens⟩

lemma Scans.readAs (h : Scans true levels lx token after) (hkind : token.kind.isEof = false)
    (hafter : ReadAs levels tokens f after) : ReadAs levels (token :: tokens) f lx := by
  induction h with
  | eof => cases hkind
  | blank hc _ ih => exact (ih hkind hafter).blank hc
  | skip hkeep => cases hkeep
  | @comment t g newlines pos p _ hcomment =>
    obtain ⟨x, rfl, hvalid, hdepth, rfl⟩ := hafter
    exact ⟨.comment newlines t x, by simp [Phrase.text], ⟨hcomment, hvalid⟩, hdepth, rfl⟩
  | @word kind t g pos p hword hcomment =>
    obtain ⟨x, rfl, hvalid, hdepth, rfl⟩ := hafter
    exact ⟨.word kind t x, by simp [Phrase.text], ⟨hword, hcomment, hvalid⟩, hdepth, rfl⟩
  | @template q g pos p hq hqdepth =>
    obtain ⟨x, rfl, hvalid, hdepth, rfl⟩ := hafter
    exact ⟨.template q x, by simp [Phrase.text], ⟨hq, hvalid⟩, Nat.max_le.2 ⟨hqdepth, hdepth⟩, rfl⟩

lemma Scans.readAs_nil (h : Scans true levels lx token after) (hmem : (c, token.kind) ∈ punctuation) :
    ∃ g, ReadAs levels [] (c :: g) lx ∧ token.span.start + byteLength (c :: g) = lx.cursor.pos + byteLength lx.cursor.rest := by
  induction h with
  | eof => simp [punctuation] at hmem
  | blank hc _ ih =>
    obtain ⟨g, hread, hend⟩ := ih hmem
    exact ⟨g, hread.blank hc, by simpa [Nat.add_assoc] using hend⟩
  | skip hkeep => cases hkeep
  | comment => simp [punctuation] at hmem
  | @word kind t f pos p hword =>
    obtain rfl : t = [c] := hword.eq_single hmem
    exact ⟨f, ⟨.done, rfl, trivial, Nat.zero_le _, rfl⟩, rfl⟩
  | template => simp [punctuation] at hmem

def IsPhrase (levels : Nat) (f : List Char) (lx : Lexer) : Prop :=
  ∃ x : Phrase, lx.cursor.rest = x.text ++ f ∧ x.Valid lx.patternAllowed f ∧ x.depth ≤ levels

lemma ReadAs.isPhrase (h : ReadAs levels tokens f lx) : IsPhrase levels f lx := by
  obtain ⟨x, htext, hvalid, hdepth, -⟩ := h
  exact ⟨x, htext, hvalid, hdepth⟩

lemma IsPhrase.readAs (h : IsPhrase levels f lx) : ∃ tokens, ReadAs levels tokens f lx := by
  obtain ⟨x, htext, hvalid, hdepth⟩ := h
  exact ⟨_, x, htext, hvalid, hdepth, rfl⟩

lemma Scans.isPhrase_of_stop {stop : Nat} (h : Scans true levels lx token after)
    (hstop : stop ≤ token.span.start ∨ token.kind.isEof = true)
    (hend : lx.cursor.pos + byteLength lx.cursor.rest = stop) : IsPhrase levels [] lx := by
  induction h with
  | eof => exact ⟨.done, rfl, trivial, Nat.zero_le levels⟩
  | blank hc _ ih =>
    obtain ⟨tokens, htokens⟩ := (ih hstop (by simpa [Nat.add_assoc] using hend)).readAs
    exact (htokens.blank hc).isPhrase
  | skip hkeep => cases hkeep
  | @comment t f newlines pos p _ hcomment =>
    have hpos := byteLength_pos hcomment.ne_nil
    simp [TokenKind.isEof] at hstop hend
    omega
  | @word kind t f pos p hword =>
    have hpos := byteLength_pos hword.ne_nil
    simp [hword.isEof] at hstop hend
    omega
  | @template q f pos p _ _ =>
    simp [TokenKind.isEof] at hstop hend
    omega

/-- A token and the text that stands before it and in it. -/
structure Covers (keep : Bool) (lx : Lexer) (token : Token) (after : Lexer) (gap text : List Char) : Prop where
  rest : lx.cursor.rest = gap ++ (text ++ after.cursor.rest)
  blank : keep = true → ∀ c ∈ gap, isBlank c = true
  start : token.span.start = lx.cursor.pos + byteLength gap
  stop : token.span.stop = token.span.start + byteLength text
  pos : after.cursor.pos = token.span.stop
  ends : token.kind.isEof = true → token.kind = .eof ∧ text = [] ∧ after.cursor.rest = []
  goes_on : token.kind.isEof = false → text ≠ []

lemma Scans.covers (h : Scans keep levels lx token after) : ∃ gap text, Covers keep lx token after gap text := by
  induction h with
  | eof => exact ⟨[], [], ⟨rfl, by simp, rfl, rfl, rfl, fun _ => ⟨rfl, rfl, rfl⟩, fun hkind => by cases hkind⟩⟩
  | @blank c cs pos p token after hc _ ih =>
    obtain ⟨gap, text, hcovers⟩ := ih
    refine ⟨c :: gap, text, { hcovers with rest := congrArg (c :: ·) hcovers.rest, blank := fun hkeep => ?_, start := ?_ }⟩
    · simpa [hc] using hcovers.blank hkeep
    · simpa [Nat.add_assoc] using hcovers.start
  | @skip t f newlines pos p token after hkeep _ _ ih =>
    obtain ⟨gap, text, hcovers⟩ := ih
    refine ⟨t ++ gap, text, { hcovers with rest := ?_, blank := fun h => by simp [h] at hkeep, start := ?_ }⟩
    · rw [append_assoc, ← hcovers.rest]
    · simpa [Nat.add_assoc] using hcovers.start
  | @comment t f newlines pos p _ hcomment =>
    exact ⟨[], t, ⟨rfl, by simp, rfl, rfl, rfl, (fun hkind => by cases hkind), fun _ => hcomment.ne_nil⟩⟩
  | @word kind t f pos p hword _ =>
    exact ⟨[], t, ⟨rfl, by simp, rfl, rfl, rfl, fun hkind => by simp [hword.isEof] at hkind, fun _ => hword.ne_nil⟩⟩
  | @template q f pos p =>
    refine ⟨[], backquote :: q.text, ⟨rfl, by simp, rfl, ?_, rfl, (fun hkind => by cases hkind), fun _ => by simp⟩⟩
    simp [Nat.add_assoc]

lemma Scans.end_eq (h : Scans keep levels lx token after) :
    lx.cursor.pos + byteLength lx.cursor.rest = after.cursor.pos + byteLength after.cursor.rest := by
  obtain ⟨gap, text, hcovers⟩ := h.covers
  rw [hcovers.pos, hcovers.stop, hcovers.start, hcovers.rest, byteLength_append, byteLength_append]
  omega

lemma Scans.pos_le (h : Scans keep levels lx token after) : lx.cursor.pos ≤ token.span.start := by
  obtain ⟨gap, text, hcovers⟩ := h.covers
  exact hcovers.start ▸ Nat.le_add_right _ _

lemma Scans.start_lt (h : Scans keep levels lx token after) (hkind : token.kind.isEof = false) :
    token.span.start < after.cursor.pos := by
  obtain ⟨gap, text, hcovers⟩ := h.covers
  have hpos := byteLength_pos (hcovers.goes_on hkind)
  rw [hcovers.pos, hcovers.stop]
  omega

lemma Scans.isPhrase (h : Scans true levels lx token after) (hkind : token.kind.isEof = false)
    (hafter : IsPhrase levels f after) : IsPhrase levels f lx := by
  obtain ⟨tokens, htokens⟩ := hafter.readAs
  exact (h.readAs hkind htokens).isPhrase

end StoryMarkup.Script
