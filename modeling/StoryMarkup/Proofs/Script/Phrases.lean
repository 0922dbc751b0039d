import StoryMarkup.Proofs.Script.Lexemes

/-! Expressions as texts taken apart into blanks, comments, tokens and the phrases in holes of
templates. -/
namespace StoryMarkup.Script

open Text Cursor
open List (append_assoc cons_append cons_ne_nil length_append length_cons length_pos_iff)
variable {newlines levels pos : Nat} {t f cs : List Char} {after lx : Lexer} {keep p : Bool} {kind : TokenKind}
  {span : Span} {k : Cursor} {value raw : List Char}

def backquote : Char := Char.ofNat 96

@[simp]
lemma utf8Size_backquote : backquote.utf8Size = 1 := rfl

mutual

/-- A text taken apart into blanks, comments, templates and other tokens. -/
inductive Phrase where
  | done
  | blank (c : Char) (rest : Phrase)
  | comment (newlines : Nat) (t : List Char) (rest : Phrase)
  | word (kind : TokenKind) (t : List Char) (rest : Phrase)
  | template (body : Quote) (rest : Phrase)

inductive Quote where
  | done
  | piece (value raw : List Char) (rest : Quote)
  | hole (inner : Phrase) (rest : Quote)

end

mutual

def Phrase.text : Phrase → List Char
  | .done => []
  | .blank c rest => c :: rest.text
  | .comment _ t rest => t ++ rest.text
  | .word _ t rest => t ++ rest.text
  | .template body rest => backquote :: (body.text ++ rest.text)

def Quote.text : Quote → List Char
  | .done => [backquote]
  | .piece _ raw rest => raw ++ rest.text
  | .hole inner rest => '$' :: '{' :: (inner.text ++ '}' :: rest.text)

end

mutual

def Phrase.depth : Phrase → Nat
  | .done => 0
  | .blank _ rest | .comment _ _ rest | .word _ _ rest => rest.depth
  | .template body rest => max body.depth rest.depth

def Quote.depth : Quote → Nat
  | .done => 0
  | .piece _ _ rest => rest.depth
  | .hole inner rest => max (inner.depth + 1) rest.depth

end

def Phrase.Closes : Nat → Phrase → Prop
  | opened, .done => opened = 0
  | opened, .word (.opening .curly) _ rest => rest.Closes (opened + 1)
  | opened, .word (.closing .curly) _ rest => ∃ n, opened = n + 1 ∧ rest.Closes n
  | opened, .word _ _ rest | opened, .blank _ rest | opened, .comment _ _ rest | opened, .template _ rest =>
    rest.Closes opened

mutual

/-- A phrase closes the brackets that are open before it, innermost first, and those it opens, and
no others; so does what stands in the holes of its templates. Outside of all brackets commas may be
free to stand or not. -/
def Phrase.Nested (free : Bool) : List Bracket → Phrase → Prop
  | opened, .done => opened = []
  | opened, .word (.opening b) _ rest => rest.Nested free (b :: opened)
  | opened, .word (.closing b) _ rest => ∃ outer, opened = b :: outer ∧ rest.Nested free outer
  | opened, .word .comma _ rest => (opened = [] → free = true) ∧ rest.Nested free opened
  | opened, .template body rest => body.Nested ∧ rest.Nested free opened
  | opened, .word _ _ rest | opened, .blank _ rest | opened, .comment _ _ rest => rest.Nested free opened

def Quote.Nested : Quote → Prop
  | .done => True
  | .piece _ _ rest => rest.Nested
  | .hole inner rest => inner.Nested true [] ∧ rest.Nested

end

def TokenKind.openedAfter : TokenKind → List Bracket → List Bracket
  | .opening b, opened => b :: opened
  | .closing _, opened => opened.tail
  | _, opened => opened

/-- Commas may stand outside of the open brackets only if they are free to, and closing brackets
only where they close the innermost. -/
def TokenKind.Fits (free : Bool) (opened : List Bracket) (kind : TokenKind) : Prop :=
  (kind = .comma → opened = [] → free = true) ∧ ∀ b, kind = .closing b → opened.head? = some b

lemma Phrase.nested_word {free : Bool} {opened : List Bracket} {kind : TokenKind} {t : List Char} {rest : Phrase} :
    (Phrase.word kind t rest).Nested free opened ↔ kind.Fits free opened ∧ rest.Nested free
      (kind.openedAfter opened) := by
  cases kind with
  | closing b =>
    cases opened with
    | nil => simp [Phrase.Nested, TokenKind.Fits]
    | cons c outer => simp [Phrase.Nested, TokenKind.Fits, TokenKind.openedAfter, and_assoc]
  | _ => simp [Phrase.Nested, TokenKind.Fits, TokenKind.openedAfter]

def opensComment : List Char → Bool
  | '/' :: '/' :: _ => true
  | '/' :: '*' :: _ => true
  | _ => false

def Comment (newlines : Nat) (t f : List Char) : Prop :=
  ∀ pos, scanComment? ⟨pos, t ++ f⟩ = some (.ok (newlines, ⟨pos + byteLength t, f⟩))

inductive Piece : List Char → List Char → List Char → Prop
  | plain {c : Char} {f : List Char} (hquote : c ≠ backquote) (hslash : c ≠ '\\') (hhole : c = '$' →
      f.head? ≠ some '{') :
    Piece [c] [c] f
  | escape {value t f : List Char} (h : ∀ start f, Reads (scanEscape start) value t f) : Piece value ('\\' :: t) f

mutual

def Phrase.Valid : Bool → List Char → Phrase → Prop
  | _, _, .done => True
  | p, f, .blank c rest => isBlank c = true ∧ rest.Valid p f
  | p, f, .comment newlines t rest => Comment newlines t (rest.text ++ f) ∧ rest.Valid p f
  | p, f, .word kind t rest =>
    Word p kind t (rest.text ++ f) ∧ opensComment (t ++ (rest.text ++ f)) = false ∧ rest.Valid kind.allowsPattern f
  | _, f, .template body rest => body.Valid ∧ rest.Valid false f

def Quote.Valid : Quote → Prop
  | .done => True
  | .piece value raw rest => Piece value raw rest.text ∧ rest.Valid
  | .hole inner rest => (∀ f, inner.Valid true ('}' :: f)) ∧ inner.Closes 0 ∧ rest.Valid

end

def textParts (run : List Char) : List TemplatePart :=
  if run.isEmpty then [] else [.text (String.ofList run.reverse)]

def TemplatePart.hole? : TemplatePart → Option Span
  | .text _ => none
  | .hole span => some span

lemma textParts_holes (run : List Char) : (textParts run).filterMap TemplatePart.hole? = [] := by
  unfold textParts
  split <;> rfl

/-- The parts of a template from some place on: whether it has no part before, the characters read
since the last hole, last one first, and the byte where what is to come starts. -/
def Quote.parts : Bool → List Char → Nat → Quote → List TemplatePart
  | first, run, _, .done => if run.isEmpty && first then [.text ""] else textParts run
  | first, run, pos, .piece value raw rest => rest.parts first (value ++ run) (pos + byteLength raw)
  | _, run, pos, .hole inner rest =>
    let stop := pos + 2 + byteLength inner.text
    textParts run ++ .hole ⟨pos + 2, stop⟩ :: rest.parts false [] (stop + 1)

lemma Quote.done_holes (first : Bool) (run : List Char) (pos : Nat) :
    (Quote.done.parts first run pos).filterMap TemplatePart.hole? = [] := by
  unfold Quote.parts
  split
  · rfl
  · exact textParts_holes run

lemma reverse_flushText (run : List Char) (parts : List TemplatePart) :
    (flushText run parts).reverse = parts.reverse ++ textParts run := by
  unfold flushText textParts
  split <;> simp

/-! How the lexer steps through a text. -/

def holeEndAt : Nat → Nat → Cursor → Except ScriptError Cursor
  | 0, start, k => .error ⟨.nestingTooDeep maxNesting, some ⟨start, k.pos⟩⟩
  | levels + 1, start, k => Lexer.findHoleEnd (Lexer.scan false levels) start (k.rest.length + 1) 0 { cursor := k }

lemma scan_eq (keep : Bool) (levels : Nat) (lx : Lexer) :
    lx.scan keep levels = lx.scanWith (holeEndAt levels) keep (lx.cursor.rest.length + 1) := by
  cases levels <;> rfl

lemma scanComment?_eq_none_iff : scanComment? k = none ↔ opensComment k.rest = false := by
  unfold scanComment? opensComment
  split <;> simp_all

inductive Remark (newlines : Nat) (f : List Char) : List Char → Prop
  | line {u : List Char} (hnone : newlines = 0) (hu : ∀ c ∈ u, c ≠ '\n') (hf : ∀ c ∈ f.head?, c = '\n') :
    Remark newlines f ('/' :: '/' :: u)
  | block {body : List Char} (h : ∀ f, Comment newlines ('/' :: '*' :: (body ++ ['*', '/'])) f) :
    Remark newlines f ('/' :: '*' :: (body ++ ['*', '/']))

lemma Remark.comment (h : Remark newlines f t) : Comment newlines t f := by
  cases h with
  | @line u hnone hu hf =>
    intro pos
    have hrun : ∀ c ∈ u, (c != '\n') = true := fun c hc => bne_iff_ne.2 (hu c hc)
    have hend : ∀ c ∈ f.head?, (c != '\n') = false := fun c hc => by simp [hf c hc]
    have hskip := skipWhile_append (pos + byteLength ['/', '/']) hrun hend
    simp only [cons_append, scanComment?]
    rw [show ∀ cs, skip ⟨pos, '/' :: '/' :: cs⟩ 2 = ⟨pos + byteLength ['/', '/'], cs⟩ from
      fun cs => skip_append pos ['/', '/'] cs, hskip]
    simp [hnone, Nat.add_assoc]
  | block h => exact h f

lemma exists_comment {after : Cursor} (h : scanComment? k = some (.ok (newlines, after))) :
    ∃ t, Between k t after ∧ Remark newlines after.rest t := by
  unfold scanComment? at h
  split at h
  · rename_i cs hrest
    cases h
    have hopen : Between k ['/', '/'] (k.skip 2) := .skip (t := ['/', '/']) hrest
    refine ⟨_, hopen.trans (.skipWhile (· != '\n') _), .line rfl (fun c hc => ?_) fun c hc => ?_⟩
    · exact bne_iff_ne.1 (mem_runWhile (p := (· != '\n')) hc)
    · simpa using head?_dropWhile (p := (· != '\n')) _ c hc
  · rename_i cs hrest
    have hopen : Between k ['/', '*'] (k.skip 2) := .skip (t := ['/', '*']) hrest
    obtain ⟨body, hbetween, hreads⟩ := exists_reads_scanBlockComment (Option.some.inj h)
    refine ⟨_, hopen.trans hbetween, .block fun f pos => ?_⟩
    have hread := hreads pos ((['/', '*'] ++ (body ++ ['*', '/']) ++ f).length + 1) f
      (by simp; omega) (pos + byteLength ['/', '*'])
    rw [Nat.add_assoc, ← byteLength_append] at hread
    have hskip := skip_append pos ['/', '*'] (body ++ ['*', '/'] ++ f)
    rw [← hskip] at hread
    simp only [append_assoc] at hread
    simpa [scanComment?] using hread
  · cases h

lemma Comment.remark (h : Comment newlines t f) : Remark newlines f t := by
  obtain ⟨t', hbetween, hremark⟩ := exists_comment (h 0)
  obtain rfl : t = t' := List.append_cancel_right hbetween.rest
  exact hremark

lemma Comment.of_head {g : List Char} (h : Comment newlines t f) (hhead : g.head? = f.head?) :
    Comment newlines t g := by
  cases h.remark with
  | line hnone hu hf => exact (Remark.line hnone hu (hhead ▸ hf)).comment
  | block hblock => exact hblock g

lemma Comment.ne_nil (h : Comment newlines t f) : t ≠ [] := by
  cases h.remark <;> exact cons_ne_nil _ _

lemma Comment.opensComment (h : Comment newlines t f) : opensComment (t ++ f) = true := by
  cases hopens : Script.opensComment (t ++ f) with
  | true => rfl
  | false =>
    have hnone := scanComment?_eq_none_iff.2 (show Script.opensComment (mk 0 (t ++ f)).rest = false from hopens)
    rw [h 0] at hnone
    cases hnone

lemma Comment.eq_cons (h : Comment newlines t f) : ∃ ts, t = '/' :: ts := by
  cases h.remark <;> exact ⟨_, rfl⟩

lemma scanWith_fuel {holeEnd : Nat → Cursor → Except ScriptError Cursor} {fuel fuel' : Nat}
    (lx : Lexer) (h : lx.cursor.rest.length < fuel) (h' : lx.cursor.rest.length < fuel') :
    lx.scanWith holeEnd keep fuel = lx.scanWith holeEnd keep fuel' := by
  induction fuel generalizing fuel' lx with
  | zero => omega
  | succ fuel ih =>
    obtain ⟨fuel', rfl⟩ : ∃ n, fuel' = n + 1 := ⟨fuel' - 1, by omega⟩
    cases hpeek : (lx.cursor.skipWhile isBlank).peek? with
    | none => simp only [Lexer.scanWith, hpeek]
    | some c =>
      match hcomment : scanComment? (lx.cursor.skipWhile isBlank) with
      | none => simp only [Lexer.scanWith, hpeek, hcomment]
      | some (.error e) => simp only [Lexer.scanWith, hpeek, hcomment]
      | some (.ok (newlines, after)) =>
        cases keep with
        | true => simp only [Lexer.scanWith, hpeek, hcomment, if_true]
        | false =>
          obtain ⟨t, hbetween, hremark⟩ := exists_comment hcomment
          have hlength : after.rest.length < lx.cursor.rest.length := by
            have hskip := (Between.skipWhile isBlank lx.cursor).trans hbetween
            have hpos : 0 < t.length := length_pos_iff.2 hremark.comment.ne_nil
            rw [hskip.rest, length_append, length_append]
            omega
          simp only [Lexer.scanWith, hpeek, hcomment, Bool.false_eq_true, if_false]
          exact ih { lx with cursor := after } (by simp only; omega) (by simp only; omega)

lemma scan_blank {c : Char} (hc : isBlank c = true) :
    Lexer.scan keep levels ⟨⟨pos, c :: cs⟩, p⟩ = Lexer.scan keep levels ⟨⟨pos + c.utf8Size, cs⟩, p⟩ := by
  have hskip : skipWhile isBlank ⟨pos, c :: cs⟩ = skipWhile isBlank ⟨pos + c.utf8Size, cs⟩ := by
    simp [skipWhile, hc, Nat.add_assoc]
  have hfuel : cs.length < cs.length + 1 + 1 := by omega
  rw [scan_eq, scan_eq, scanWith_fuel ⟨⟨pos + c.utf8Size, cs⟩, p⟩ (Nat.lt_succ_self _) hfuel]
  simp [Lexer.scanWith, hskip]

lemma skipWhile_isBlank_of_head (pos : Nat) (cs : List Char)
    (h : ∀ c ∈ cs.head?, isBlank c = false) : skipWhile isBlank ⟨pos, cs⟩ = ⟨pos, cs⟩ :=
  skipWhile_append (s := []) pos (by simp) h

lemma not_blank_of_opensComment (h : opensComment cs = true) : ∀ c ∈ cs.head?, isBlank c = false := by
  unfold opensComment at h
  split at h
  · simp [isBlank]
  · simp [isBlank]
  · cases h

lemma scan_comment_keep (h : Comment newlines t f) :
    Lexer.scan true levels ⟨⟨pos, t ++ f⟩, p⟩ =
      .ok (⟨.comment newlines, ⟨pos, pos + byteLength t⟩⟩, ⟨⟨pos + byteLength t, f⟩, p⟩) := by
  have hskip := skipWhile_isBlank_of_head pos _ (not_blank_of_opensComment h.opensComment)
  cases hhead : (t ++ f).head? with
  | none => simp [h.ne_nil] at hhead
  | some c => simp only [scan_eq, Lexer.scanWith, hskip, peek?, hhead, h pos, if_true]

lemma scan_comment_skip (h : Comment newlines t f) :
    Lexer.scan false levels ⟨⟨pos, t ++ f⟩, p⟩ = Lexer.scan false levels ⟨⟨pos + byteLength t, f⟩, p⟩ := by
  have hskip := skipWhile_isBlank_of_head pos _ (not_blank_of_opensComment h.opensComment)
  have hlength : f.length < (t ++ f).length := by
    have := length_pos_iff.2 h.ne_nil
    rw [length_append]
    omega
  cases hhead : (t ++ f).head? with
  | none => simp [h.ne_nil] at hhead
  | some c =>
    rw [scan_eq, scan_eq, scanWith_fuel ⟨⟨pos + byteLength t, f⟩, p⟩ (Nat.lt_succ_self _) hlength]
    simp [Lexer.scanWith, hskip, peek?, hhead, h pos]

lemma scan_word (keep : Bool) (levels pos : Nat) (h : Word p kind t f)
    (hcomment : opensComment (t ++ f) = false) : Lexer.scan keep levels ⟨⟨pos, t ++ f⟩, p⟩ =
      .ok (⟨kind, ⟨pos, pos + byteLength t⟩⟩, ⟨⟨pos + byteLength t, f⟩, kind.allowsPattern⟩) := by
  obtain ⟨c, cs, rfl, -, hreads⟩ := h.reads
  have hread := hreads (holeEndAt levels) pos
  rw [cons_append] at hread hcomment ⊢
  have hskip := skipWhile_isBlank_of_head pos (c :: (cs ++ f)) (by simpa using h.not_blank.1)
  have hnone : scanComment? ⟨pos, c :: (cs ++ f)⟩ = none := scanComment?_eq_none_iff.2 hcomment
  simp [scan_eq, Lexer.scanWith, hskip, peek?, hnone, hread]

lemma scan_nil : Lexer.scan keep levels ⟨⟨pos, []⟩, p⟩ = .ok (⟨.eof, ⟨pos, pos⟩⟩, ⟨⟨pos, []⟩, p⟩) := by
  simp [scan_eq, Lexer.scanWith, skipWhile_isBlank_of_head pos [] (by simp), peek?]

lemma scanKind_backquote {holeEnd : Nat → Cursor → Except ScriptError Cursor} :
    scanKind holeEnd p backquote k = scanTemplateBody holeEnd k.pos (k.rest.length + 1) [] [] (k.skip 1) := by
  have hbackquote : backquote = Char.ofNat 96 := rfl
  unfold scanKind
  split
  iterate 10 · rename_i h; exact absurd h (by decide)
  rw [if_pos (by rw [hbackquote]; exact beq_self_eq_true _)]

lemma scan_backquote {parts : List TemplatePart} {after : Cursor}
    (h : scanTemplateBody (holeEndAt levels) pos (cs.length + 2) [] [] ⟨pos + 1, cs⟩ = .ok (.template parts, after)) :
    Lexer.scan keep levels ⟨⟨pos, backquote :: cs⟩, p⟩ = .ok (⟨.template parts, ⟨pos, after.pos⟩⟩, ⟨after, false⟩) := by
  have hskip := skipWhile_isBlank_of_head pos (backquote :: cs) (by simp; decide)
  have hnone : scanComment? ⟨pos, backquote :: cs⟩ = none := scanComment?_eq_none_iff.2 rfl
  have hone : skip ⟨pos, backquote :: cs⟩ 1 = ⟨pos + 1, cs⟩ := skip_one pos backquote cs
  simp only [scan_eq, Lexer.scanWith, hskip, peek?, List.head?_cons, hnone, scanKind_backquote,
    hone, length_cons, h]
  rfl

/-! Kinds of tokens, and the ends of holes. -/

def TokenKind.isPlain : TokenKind → Bool
  | .template _ | .comment _ | .eof => false
  | _ => true

def TokenKind.isComment : TokenKind → Bool
  | .comment _ => true
  | _ => false

lemma Word.isPlain (h : Word p kind t f) : kind.isPlain = true := by
  cases h with
  | single hmem =>
    have hall : ∀ e ∈ punctuation, e.2.isPlain = true := by decide
    exact hall _ hmem
  | string _ _ hkind =>
    obtain ⟨s, rfl⟩ := hkind
    rfl
  | _ => rfl

lemma Word.isEof (h : Word p kind t f) : kind.isEof = false := by
  have := h.isPlain
  cases kind <;> trivial

section HoleEnd

variable {scan : Lexer → Except ScriptError (Token × Lexer)} (start : Nat)

lemma findHoleEnd_congr {lx' : Lexer} (h : scan lx = scan lx') (fuel opened : Nat) :
    Lexer.findHoleEnd scan start (fuel + 1) opened lx = Lexer.findHoleEnd scan start (fuel + 1) opened lx' := by
  simp [Lexer.findHoleEnd, h]

lemma findHoleEnd_template {parts : List TemplatePart}
    (h : scan lx = .ok (⟨.template parts, span⟩, after)) (fuel opened : Nat) :
    Lexer.findHoleEnd scan start (fuel + 1) opened lx = Lexer.findHoleEnd scan start fuel opened after := by
  simp [Lexer.findHoleEnd, h]

lemma findHoleEnd_word {rest : Phrase} {opened : Nat} (h : scan lx = .ok (⟨kind, span⟩, after))
    (hkind : kind.isPlain = true) (hcloses : (Phrase.word kind t rest).Closes opened) :
    ∃ opened', rest.Closes opened' ∧ ∀ fuel,
      Lexer.findHoleEnd scan start (fuel + 1) opened lx = Lexer.findHoleEnd scan start fuel opened' after := by
  cases kind with
  | opening b => cases b <;> exact ⟨_, hcloses, fun fuel => by simp [Lexer.findHoleEnd, h]⟩
  | closing b =>
    cases b with
    | curly =>
      obtain ⟨n, rfl, hrest⟩ := hcloses
      exact ⟨n, hrest, fun fuel => by simp [Lexer.findHoleEnd, h]⟩
    | _ => exact ⟨opened, hcloses, fun fuel => by simp [Lexer.findHoleEnd, h]⟩
  | template _ | comment _ | eof => cases hkind
  | _ => exact ⟨opened, hcloses, fun fuel => by simp [Lexer.findHoleEnd, h]⟩

lemma findHoleEnd_close (h : scan lx = .ok (⟨.closing .curly, span⟩, after)) (fuel : Nat) :
    Lexer.findHoleEnd scan start (fuel + 1) 0 lx = .ok after.cursor := by
  simp [Lexer.findHoleEnd, h]

end HoleEnd

lemma scan_closing_curly :
    Lexer.scan keep levels ⟨⟨pos, '}' :: f⟩, p⟩ =
      .ok (⟨.closing .curly, ⟨pos, pos + 1⟩⟩, ⟨⟨pos + 1, f⟩, false⟩) :=
  scan_word keep levels pos (t := ['}']) (.single (by simp [punctuation])) rfl

section TemplateBody

variable {holeEnd : Nat → Cursor → Except ScriptError Cursor} {start fuel : Nat} {parts : List TemplatePart}
  {run : List Char}

lemma scanTemplateBody_piece (h : Piece value raw f) (g : List Char) (hnil : f ≠ []) :
    scanTemplateBody holeEnd start (fuel + 1) parts run ⟨pos, raw ++ (f ++ g)⟩ =
      scanTemplateBody holeEnd start fuel parts (value ++ run) ⟨pos + byteLength raw, f ++ g⟩ := by
  cases h with
  | @plain c _ hquote hslash hhole =>
    have hquote : (c == Char.ofNat 96) = false := beq_eq_false_iff_ne.2 hquote
    have hslash : (c == '\\') = false := beq_eq_false_iff_ne.2 hslash
    have hpeek : (c == '$' && peek? ⟨pos + c.utf8Size, f ++ g⟩ == some '{') = false := by
      rw [Bool.and_eq_false_iff, beq_eq_false_iff_ne, beq_eq_false_iff_ne]
      cases f with
      | nil => exact absurd rfl hnil
      | cons d f => exact Decidable.not_or_of_imp hhole
    simp [scanTemplateBody, next?, hquote, hslash, hpeek]
  | @escape _ t _ hreads =>
    have hquote : ('\\' == Char.ofNat 96) = false := by decide
    have hread := hreads start (f ++ g) (pos + '\\'.utf8Size)
    simp [scanTemplateBody, next?, hquote, hread, Nat.add_assoc]

lemma scanTemplateBody_hole {inner g : List Char}
    (h : holeEnd start ⟨pos + 2, inner ++ '}' :: g⟩ = .ok ⟨pos + 2 + byteLength inner + 1, g⟩) :
    scanTemplateBody holeEnd start (fuel + 1) parts run ⟨pos, '$' :: '{' :: (inner ++ '}' :: g)⟩ =
      scanTemplateBody holeEnd start fuel (.hole ⟨pos + 2, pos + 2 + byteLength inner⟩ :: flushText
        run parts) [] ⟨pos + 2 + byteLength inner + 1, g⟩ := by
  have hquote : ('$' == Char.ofNat 96) = false := by decide
  have hslash : ('$' == '\\') = false := by decide
  have hskip : skip ⟨pos + '$'.utf8Size, '{' :: (inner ++ '}' :: g)⟩ 1 = ⟨pos + 2, inner ++ '}' :: g⟩ :=
    skip_one _ _ _
  simp [scanTemplateBody, next?, hquote, hslash, peek?, hskip, h]

end TemplateBody

lemma Quote.text_ne_nil : (q : Quote) → q.text ≠ []
  | .done => cons_ne_nil _ _
  | .piece _ _ rest => List.append_ne_nil_of_right_ne_nil _ rest.text_ne_nil
  | .hole _ _ => cons_ne_nil _ _

lemma Word.ne_nil (h : Word p kind t f) : t ≠ [] := by
  obtain ⟨c, cs, rfl, -⟩ := h.reads
  exact cons_ne_nil c cs

lemma Piece.raw_ne_nil (h : Piece value raw f) : raw ≠ [] := by
  cases h <;> exact cons_ne_nil _ _

/-! Reading the text of a well-formed phrase. -/

mutual

theorem Quote.reads {levels : Nat} : (q : Quote) → q.Valid → q.depth ≤ levels → ∀ start fuel parts run pos f,
    q.text.length ≤ fuel → scanTemplateBody (holeEndAt levels) start fuel parts run ⟨pos, q.text ++ f⟩ =
      .ok (.template (parts.reverse ++ q.parts parts.isEmpty run pos), ⟨pos + byteLength q.text, f⟩)
  | .done, _, _ => by
    intro start fuel parts run pos f hfuel
    obtain ⟨fuel, rfl⟩ : ∃ n, fuel = n + 1 := ⟨fuel - 1, by simp [Quote.text] at hfuel; omega⟩
    have hquote : (backquote == Char.ofNat 96) = true := beq_self_eq_true _
    have hparts : (if run.isEmpty && parts.isEmpty then [.text ""] else flushText run parts).reverse
        = parts.reverse ++ Quote.done.parts parts.isEmpty run pos := by
      unfold Quote.parts
      split
      · rename_i hempty
        obtain rfl : parts = [] := List.isEmpty_iff.1 (Bool.and_eq_true_iff.1 hempty).2
        rfl
      · exact reverse_flushText run parts
    simp only [Quote.text, List.singleton_append, scanTemplateBody, next?, hquote, if_true, hparts]
    simp
  | .piece value raw rest, ⟨hpiece, hrest⟩, hdepth => by
    intro start fuel parts run pos f hfuel
    have hraw := length_pos_iff.2 hpiece.raw_ne_nil
    simp only [Quote.text, length_append] at hfuel
    obtain _ | fuel := fuel
    · omega
    rw [Quote.text, append_assoc, scanTemplateBody_piece hpiece f rest.text_ne_nil,
      Quote.reads rest hrest hdepth start fuel parts (value ++ run) (pos + byteLength raw) f (by omega)]
    simp [Quote.parts, Nat.add_assoc]
  | .hole inner rest, ⟨hinner, hcloses, hrest⟩, hdepth => by
    intro start fuel parts run pos f hfuel
    simp only [Quote.text, length_cons, length_append] at hfuel
    obtain _ | fuel := fuel
    · omega
    have hmax : inner.depth + 1 ≤ levels ∧ rest.depth ≤ levels := Nat.max_le.1 hdepth
    have hend : holeEndAt levels start ⟨pos + 2, inner.text ++ '}' :: (rest.text ++ f)⟩ =
        .ok ⟨pos + 2 + byteLength inner.text + 1, rest.text ++ f⟩ := by
      cases levels with
      | zero => omega
      | succ levels =>
        exact Phrase.reads_to_close inner true (rest.text ++ f) 0 (hinner _) hcloses (by omega)
          start _ (pos + 2) (by simp only [length_append, length_cons]; omega)
    have htext : (Quote.hole inner rest).text ++ f = '$' :: '{' :: (inner.text ++ '}' :: (rest.text ++ f)) := by
      simp [Quote.text]
    rw [htext, scanTemplateBody_hole hend, Quote.reads rest hrest hmax.2 start fuel _ _ _ f (by omega)]
    simp only [List.reverse_cons, reverse_flushText, List.isEmpty_cons, append_assoc,
      List.singleton_append, Quote.parts, Quote.text, byteLength_cons, byteLength_append]
    simp only [show '$'.utf8Size = 1 from rfl, show '{'.utf8Size = 1 from rfl, show '}'.utf8Size =
      1 from rfl, Except.ok.injEq, Prod.mk.injEq, mk.injEq, and_true, true_and]
    omega

theorem Phrase.reads_to_close {levels : Nat} : (x : Phrase) → ∀ p f opened, x.Valid p ('}' :: f) →
    x.Closes opened → x.depth ≤ levels → ∀ start fuel pos, x.text.length < fuel →
      Lexer.findHoleEnd (Lexer.scan false levels) start fuel opened ⟨⟨pos, x.text ++ '}' :: f⟩, p⟩ =
        .ok ⟨pos + byteLength x.text + 1, f⟩
  | .done => by
    intro p f opened _ hcloses _ start fuel pos hfuel
    obtain _ | fuel := fuel
    · omega
    obtain rfl : opened = 0 := hcloses
    exact findHoleEnd_close start scan_closing_curly fuel
  | .blank c rest => by
    intro p f opened ⟨hblank, hrest⟩ hcloses hdepth start fuel pos hfuel
    simp only [Phrase.text, length_cons] at hfuel
    obtain _ | fuel := fuel
    · omega
    rw [Phrase.text, cons_append, findHoleEnd_congr start (scan_blank hblank),
      Phrase.reads_to_close rest p f opened hrest hcloses hdepth start (fuel + 1) (pos + c.utf8Size)
      (by omega), byteLength_cons, Nat.add_assoc pos]
  | .comment newlines t rest => by
    intro p f opened ⟨hcomment, hrest⟩ hcloses hdepth start fuel pos hfuel
    simp only [Phrase.text, length_append] at hfuel
    obtain _ | fuel := fuel
    · omega
    rw [Phrase.text, append_assoc, findHoleEnd_congr start (scan_comment_skip hcomment),
      Phrase.reads_to_close rest p f opened hrest hcloses hdepth start (fuel + 1)
      (pos + byteLength t) (by omega), byteLength_append, Nat.add_assoc pos]
  | .word kind t rest => by
    intro p f opened ⟨hword, hcomment, hrest⟩ hcloses hdepth start fuel pos hfuel
    have ht : 0 < t.length := length_pos_iff.2 hword.ne_nil
    simp only [Phrase.text, length_append] at hfuel
    obtain _ | fuel := fuel
    · omega
    obtain ⟨opened', hcloses', hstep⟩ := findHoleEnd_word start
      (scan_word false levels pos hword hcomment) hword.isPlain hcloses
    rw [Phrase.text, append_assoc, hstep fuel,
      Phrase.reads_to_close rest _ f opened' hrest hcloses' hdepth start fuel (pos + byteLength t)
      (by omega), byteLength_append, Nat.add_assoc pos]
  | .template body rest => by
    intro p f opened ⟨hbody, hrest⟩ hcloses hdepth start fuel pos hfuel
    simp only [Phrase.text, length_cons, length_append] at hfuel
    obtain _ | fuel := fuel
    · omega
    have hmax : body.depth ≤ levels ∧ rest.depth ≤ levels := Nat.max_le.1 hdepth
    have hread := Quote.reads body hbody hmax.1 pos
      ((body.text ++ (rest.text ++ '}' :: f)).length + 2) [] [] (pos + 1) (rest.text ++ '}' :: f)
      (by simp only [length_append]; omega)
    rw [Phrase.text, cons_append, append_assoc, findHoleEnd_template start (scan_backquote hread),
      Phrase.reads_to_close rest false f opened hrest hcloses hmax.2 start fuel _ (by omega),
      byteLength_cons, byteLength_append, utf8Size_backquote]
    simp [Nat.add_assoc]

end

/-- What a phrase starts with before `f`: the text of a token, its kind by the place it stands at,
whether a pattern can start behind it, and the phrase that stands there. -/
inductive Phrase.Leads (p : Bool) (f : List Char) : Phrase → List Char → (Nat → TokenKind) → Bool → Phrase → Prop where
  | comment {newlines : Nat} {t : List Char} {rest : Phrase} (h : Comment newlines t (rest.text ++ f)) :
    Leads p f (.comment newlines t rest) t (fun _ => .comment newlines) p rest
  | word {kind : TokenKind} {t : List Char} {rest : Phrase} (h : Word p kind t (rest.text ++ f))
    (hopens : opensComment (t ++ (rest.text ++ f)) = false) :
    Leads p f (.word kind t rest) t (fun _ => kind) kind.allowsPattern rest
  | template {body : Quote} {rest : Phrase} (h : body.Valid) (hdepth : body.depth ≤ maxNesting) :
    Leads p f (.template body rest) (backquote :: body.text)
      (fun pos => .template (body.parts true [] (pos + 1))) false rest

namespace Phrase.Leads

variable {p q : Bool} {t f : List Char} {x rest : Phrase} {kind : Nat → TokenKind}

lemma text_eq (h : x.Leads p f t kind q rest) : x.text = t ++ rest.text := by
  cases h <;> rfl

lemma ne_nil (h : x.Leads p f t kind q rest) : t ≠ [] := by
  cases h with
  | comment h | word h => exact h.ne_nil
  | template => exact cons_ne_nil _ _

lemma not_eof (h : x.Leads p f t kind q rest) (pos : Nat) : (kind pos).isEof = false := by
  cases h with
  | word h => exact h.isEof
  | _ => rfl

lemma not_blank (h : x.Leads p f t kind q rest) : ∀ c ∈ (t ++ (rest.text ++ f)).head?, isBlank c = false := by
  cases h with
  | comment h => exact not_blank_of_opensComment h.opensComment
  | word h =>
    obtain ⟨c, cs, rfl, -⟩ := h.reads
    exact h.not_blank.1
  | template =>
    simp
    decide

lemma scan (h : x.Leads p f t kind q rest) (pos : Nat) :
    Lexer.scan true maxNesting ⟨⟨pos, t ++ (rest.text ++ f)⟩, p⟩ =
      .ok (⟨kind pos, ⟨pos, pos + byteLength t⟩⟩, ⟨⟨pos + byteLength t, rest.text ++ f⟩, q⟩) := by
  cases h with
  | comment h => exact scan_comment_keep h
  | word h hopens => exact scan_word _ _ _ h hopens
  | template h hdepth =>
    rename_i body
    have hread := body.reads h hdepth pos ((body.text ++ (rest.text ++ f)).length + 2) [] []
      (pos + 1) (rest.text ++ f) (by simp only [length_append]; omega)
    rw [cons_append, scan_backquote hread, byteLength_cons, utf8Size_backquote, Nat.add_assoc]
    rfl

/-- What is enough fuel for a phrase is more than enough for what stands behind the token it starts
with. -/
theorem exists_fuel {gap : List Char} {fuel : Nat} (h : x.Leads p f t kind q rest)
    (hfuel : (gap ++ (x.text ++ f)).length < fuel) : ∃ n, fuel = n + 1 ∧ (rest.text ++ f).length < n := by
  have hpos := length_pos_iff.2 h.ne_nil
  rw [h.text_eq] at hfuel
  simp only [length_append] at hfuel ⊢
  exact ⟨fuel - 1, by omega, by omega⟩

end Phrase.Leads

end StoryMarkup.Script
