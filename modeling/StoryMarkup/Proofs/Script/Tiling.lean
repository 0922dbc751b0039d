import StoryMarkup.Proofs.Script.Dissection

/-! The tokens of a source cover it: in order, without overlap, leaving out nothing but blanks. -/
namespace StoryMarkup.Script

open Text
variable {lx after : Lexer} {token : Token} {keep : Bool} {tokens : List Token}
  {failure : Option (ScriptError × Lexer)} {levels : Nat} (pre : List Char)

def BlankBetween (source : List Char) (start stop : Nat) : Prop :=
  ∃ gap, Span.extract? ⟨start, stop⟩ source = some gap ∧ ∀ c ∈ gap, isBlank c = true

/-- Tokens that cover a source from some byte on: each has a text of its own, and what lies before
the first, between two and behind the last is blank. The end stands behind everything and has no
text. -/
inductive Tiles (source : List Char) : Nat → List Token → Prop
  | eof {pos : Nat} (hgap : BlankBetween source pos (byteLength source)) :
    Tiles source pos [⟨.eof, ⟨byteLength source, byteLength source⟩⟩]
  | token {pos : Nat} {token : Token} {rest : List Token} (hkind : token.kind.isEof = false)
    (hgap : BlankBetween source pos token.span.start) (htext : ∃ text ≠ [], token.span.extract? source = some text)
    (hrest : Tiles source token.span.stop rest) : Tiles source pos (token :: rest)

/-- Reading token after token gives these, up to the end or to a failure at some place. -/
inductive Lexer.Yields (keep : Bool) : Lexer → List Token → Option (ScriptError × Lexer) → Prop
  | eof {lx after : Lexer} {token : Token} (h : lx.scan keep maxNesting = .ok (token, after))
    (hkind : token.kind.isEof = true) : Yields keep lx [token] none
  | failure {lx : Lexer} {e : ScriptError} (h : lx.scan keep maxNesting = .error e) : Yields keep lx [] (some (e, lx))
  | token {lx after : Lexer} {token : Token} {rest : List Token} {failure : Option (ScriptError × Lexer)}
    (h : lx.scan keep maxNesting = .ok (token, after)) (hkind : token.kind.isEof = false)
    (hrest : Yields keep after rest failure) : Yields keep lx (token :: rest) failure

/-! One token. -/

lemma blankBetween_append {gap : List Char} (rest : List Char) (h : ∀ c ∈ gap, isBlank c = true) :
    BlankBetween (pre ++ (gap ++ rest)) (byteLength pre) (byteLength pre + byteLength gap) :=
  ⟨gap, extract?_append pre gap rest, h⟩

lemma Lexer.length_lt_of_scan (h : lx.scan keep maxNesting = .ok (token, after))
    (hkind : token.kind.isEof = false) : after.cursor.rest.length < lx.cursor.rest.length := by
  obtain ⟨gap, text, hcovers⟩ := ((holesRead maxNesting).scans h).covers
  have hpos := List.length_pos_iff.2 (hcovers.goes_on hkind)
  rw [hcovers.rest, List.length_append, List.length_append]
  omega

lemma dropWhile_isBlank_of_opensComment {cs : List Char} (h : opensComment cs = true) : cs.dropWhile isBlank = cs :=
  dropWhile_append_of_head (s := []) (by simp) (not_blank_of_opensComment h)

lemma Scans.opensComment (h : Scans true levels lx token after)
    (hkind : token.kind.isComment = true) :
    opensComment (lx.cursor.rest.dropWhile isBlank) = true := by
  induction h with
  | eof => cases hkind
  | blank hc _ ih => simpa [hc] using ih hkind
  | skip hkeep => cases hkeep
  | comment _ hcomment =>
    simp only [dropWhile_isBlank_of_opensComment hcomment.opensComment]
    exact hcomment.opensComment
  | @word kind _ _ _ _ hword _ =>
    have hplain := hword.isPlain
    cases kind <;> simp [TokenKind.isComment, TokenKind.isPlain] at hkind hplain
  | template => cases hkind

lemma scan_skipping (levels : Nat) (lx : Lexer) :
    (∃ token after, lx.scan true levels = .ok (token, after) ∧ token.kind.isComment = true ∧
      lx.scan false levels = after.scan false levels) ∨
    lx.scan false levels = lx.scan true levels ∧
      ∀ token after, lx.scan true levels = .ok (token, after) → token.kind.isComment = false := by
  obtain ⟨⟨pos, cs⟩, p⟩ := lx
  induction cs generalizing pos with
  | nil =>
    refine .inr ⟨by rw [scan_nil, scan_nil], fun token after h => ?_⟩
    rw [scan_nil] at h
    cases h
    rfl
  | cons c cs ih =>
    cases hblank : isBlank c with
    | true =>
      rw [scan_blank hblank, scan_blank hblank]
      exact ih _
    | false =>
      have hskip := skipWhile_isBlank_of_head pos (c :: cs) (by simpa using hblank)
      cases hcomment : scanComment? ⟨pos, c :: cs⟩ with
      | none =>
        have hnone : opensComment (c :: cs) = false := scanComment?_eq_none_iff.1 hcomment
        refine .inr ⟨?_, fun token after h => ?_⟩
        · simp [scan_eq, Lexer.scanWith, hskip, Cursor.peek?, hcomment]
        · cases hkind : token.kind.isComment with
          | false => rfl
          | true =>
            have hopens := ((holesRead levels).scans h).opensComment hkind
            simp [hblank, hnone] at hopens
      | some result =>
        cases result with
        | error e =>
          have herror : ∀ keep, Lexer.scan keep levels ⟨⟨pos, c :: cs⟩, p⟩ = .error e := by
            intro keep
            simp [scan_eq, Lexer.scanWith, hskip, Cursor.peek?, hcomment]
          refine .inr ⟨by rw [herror, herror], fun token after h => ?_⟩
          rw [herror] at h
          cases h
        | ok found =>
          obtain ⟨newlines, pos', f⟩ := found
          obtain ⟨t, hbetween, hremark⟩ := exists_comment hcomment
          have htext : c :: cs = t ++ f := hbetween.rest
          rw [htext]
          exact .inl ⟨_, _, scan_comment_keep hremark.comment, rfl, scan_comment_skip hremark.comment⟩

/-! All tokens. -/

namespace Lexer

lemma exists_yields (keep : Bool) (lx : Lexer) : ∃ tokens failure, lx.Yields keep tokens failure := by
  induction hn : lx.cursor.rest.length using Nat.strongRecOn generalizing lx with
  | ind n ih =>
    subst hn
    cases hscan : lx.scan keep maxNesting with
    | error e => exact ⟨[], some (e, lx), .failure hscan⟩
    | ok found =>
      obtain ⟨token, after⟩ := found
      cases hkind : token.kind.isEof with
      | true => exact ⟨[token], none, .eof hscan hkind⟩
      | false =>
        obtain ⟨rest, failure, hrest⟩ := ih _ (length_lt_of_scan hscan hkind) after rfl
        exact ⟨token :: rest, failure, .token hscan hkind hrest⟩

namespace Yields

lemma tokensFrom_eq (h : lx.Yields keep tokens failure) {fuel : Nat}
    (hfuel : lx.cursor.rest.length < fuel) : lx.tokensFrom keep fuel = (tokens, failure) := by
  induction h generalizing fuel with
  | @eof lx after token hscan hkind =>
    obtain _ | fuel := fuel
    · omega
    obtain ⟨kind, span⟩ := token
    cases kind <;> simp [TokenKind.isEof] at hkind
    simp [tokensFrom, hscan]
  | @failure lx e hscan =>
    obtain _ | fuel := fuel
    · omega
    simp [tokensFrom, hscan]
  | @token lx after token rest failure hscan hkind _ ih =>
    obtain _ | fuel := fuel
    · omega
    have hlength := length_lt_of_scan hscan hkind
    have hrest := @ih fuel (by omega)
    obtain ⟨kind, span⟩ := token
    cases kind <;> simp [TokenKind.isEof] at hkind <;> simp only [tokensFrom, hscan, hrest]

lemma congr {lx' : Lexer} (h : lx.Yields keep tokens failure)
    (hscan : lx'.scan keep maxNesting = lx.scan keep maxNesting) :
    ∃ failure', lx'.Yields keep tokens failure' ∧ failure'.map (·.1) = failure.map (·.1) := by
  cases h with
  | eof h hkind => exact ⟨none, .eof (hscan.trans h) hkind, rfl⟩
  | @failure _ e h => exact ⟨some (e, lx'), .failure (hscan.trans h), rfl⟩
  | token h hkind hrest => exact ⟨_, .token (hscan.trans h) hkind hrest, rfl⟩

lemma skipping (h : lx.Yields true tokens failure) :
    ∃ failure', lx.Yields false (tokens.filter (!·.kind.isComment)) failure' ∧
      failure'.map (·.1) = failure.map (·.1) := by
  induction h with
  | @eof lx after token hscan hkind =>
    rcases scan_skipping maxNesting lx with ⟨token', after', hscan', hcomment, -⟩ | ⟨hsame, hplain⟩
    · cases hscan.symm.trans hscan'
      cases hkind' : token.kind <;> simp [TokenKind.isEof, TokenKind.isComment, hkind'] at hkind hcomment
    · rw [List.filter_cons_of_pos (by simp [hplain token after hscan]), List.filter_nil]
      exact ⟨none, .eof (hsame.trans hscan) hkind, rfl⟩
  | @failure lx e hscan =>
    rcases scan_skipping maxNesting lx with ⟨token', after', hscan', -, -⟩ | ⟨hsame, -⟩
    · cases hscan.symm.trans hscan'
    · exact ⟨_, .failure (hsame.trans hscan), rfl⟩
  | @token lx after token rest failure hscan hkind _ ih =>
    obtain ⟨failure', hrest, hfailure⟩ := ih
    rcases scan_skipping maxNesting lx with ⟨token', after', hscan', hcomment, hskip⟩ | ⟨hsame, hplain⟩
    · cases hscan.symm.trans hscan'
      rw [List.filter_cons_of_neg (by simp [hcomment])]
      obtain ⟨failure'', hyields, hfailure'⟩ := hrest.congr hskip
      exact ⟨failure'', hyields, hfailure'.trans hfailure⟩
    · rw [List.filter_cons_of_pos (by simp [hplain token after hscan])]
      exact ⟨failure', .token (hsame.trans hscan) hkind hrest, hfailure⟩

lemma tiles {pre : List Char} (h : lx.Yields true tokens failure) (hpos : lx.cursor.pos = byteLength pre)
    (hnone : failure = none) : Tiles (pre ++ lx.cursor.rest) lx.cursor.pos tokens := by
  induction h generalizing pre with
  | @eof lx after token hscan hkind =>
    obtain ⟨gap, text, hcovers⟩ := ((holesRead maxNesting).scans hscan).covers
    obtain ⟨heof, htext, hafter⟩ := hcovers.ends hkind
    have hrest : lx.cursor.rest = gap ++ [] := by simp [hcovers.rest, htext, hafter]
    have hend : byteLength (pre ++ lx.cursor.rest) = byteLength pre + byteLength gap := by simp [hrest]
    have hgap := blankBetween_append pre [] (hcovers.blank rfl)
    rw [← hrest, ← hend] at hgap
    have htoken : token = ⟨.eof, ⟨byteLength (pre ++ lx.cursor.rest), byteLength (pre ++ lx.cursor.rest)⟩⟩ := by
      obtain ⟨kind, start, stop⟩ := token
      obtain rfl : kind = .eof := heof
      obtain rfl : stop = start + byteLength text := hcovers.stop
      obtain rfl : start = lx.cursor.pos + byteLength gap := hcovers.start
      simp [hend, hpos, htext]
    rw [htoken, hpos]
    exact .eof hgap
  | failure => cases hnone
  | @token lx after token rest failure hscan hkind _ ih =>
    obtain ⟨gap, text, hcovers⟩ := ((holesRead maxNesting).scans hscan).covers
    have hstart : token.span.start = byteLength (pre ++ gap) := by rw [hcovers.start, hpos, byteLength_append]
    have hstop : after.cursor.pos = byteLength (pre ++ gap ++ text) := by
      rw [hcovers.pos, hcovers.stop, hstart, byteLength_append _ text]
    have hsource : pre ++ lx.cursor.rest = pre ++ gap ++ text ++ after.cursor.rest := by
      rw [hcovers.rest]
      simp
    refine .token hkind ?_ ⟨text, hcovers.goes_on hkind, ?_⟩ ?_
    · rw [hpos, hcovers.start, hpos, hcovers.rest]
      exact blankBetween_append pre _ (hcovers.blank rfl)
    · have htext := extract?_append (pre ++ gap) text after.cursor.rest
      rw [← hstart, ← hcovers.stop] at htext
      rw [hsource, List.append_assoc]
      exact htext
    · rw [← hcovers.pos, hsource]
      exact ih hstop hnone

end Yields
end Lexer

/-- Token after token, comments among them, a source is read up to its end or to a failure from any
place between two characters. If it is read to the end, its tokens cover it from that place on. With
comments passed over the same tokens are read without the comments, up to the end or to the same
failure. -/
theorem tokens_tile_source {source : List Char} {start : Nat}
    (hstart : (dropBytes? source start).isSome = true) : let lx := Lexer.ofOffset source start
    let kept := lx.tokens true
    let plain := lx.tokens false
    lx.Yields true kept.1 kept.2 ∧ (kept.2 = none → Tiles source start kept.1) ∧
      lx.Yields false plain.1 plain.2 ∧ plain.1 = kept.1.filter (!·.kind.isComment) ∧
      plain.2.map (·.1) = kept.2.map (·.1) := by
  intro lx kept plain
  obtain ⟨tokens, failure, hkept⟩ := lx.exists_yields true
  obtain ⟨failure', hplain, hfailure⟩ := hkept.skipping
  have hkept_eq : kept = (tokens, failure) := hkept.tokensFrom_eq (Nat.lt_succ_self _)
  have hplain_eq : plain = (tokens.filter (!·.kind.isComment), failure') := hplain.tokensFrom_eq (Nat.lt_succ_self _)
  obtain ⟨pre, rest, rfl, rfl⟩ := exists_append_of_dropBytes? hstart
  have hcursor : lx.cursor = ⟨byteLength pre, rest⟩ := Cursor.ofOffset_append pre rest
  rw [hkept_eq, hplain_eq]
  refine ⟨hkept, fun hnone => ?_, hplain, rfl, hfailure⟩
  have hpos : lx.cursor.pos = byteLength pre := by rw [hcursor]
  have htiles := hkept.tiles hpos hnone
  rwa [hcursor] at htiles

/-- Behind the first word of a text with a comment, a template and letters of two bytes. -/
theorem template_behind_comment_tiles : let source := "é /* ü */ a[`${b}`]".toList
    let kept := (Lexer.ofOffset source 2).tokens true
    (dropBytes? source 2).isSome = true ∧ kept.2 = none ∧ kept.1.length = 6 ∧ Tiles source 2 kept.1 := by
  intro source kept
  have hstart : (dropBytes? source 2).isSome = true := by decide
  have hend : kept.2.isNone = true ∧ kept.1.length = 6 := by decide +kernel
  have hnone : kept.2 = none := Option.isNone_iff_eq_none.1 hend.1
  exact ⟨hstart, hnone, hend.2, (tokens_tile_source hstart).2.1 hnone⟩

end StoryMarkup.Script
