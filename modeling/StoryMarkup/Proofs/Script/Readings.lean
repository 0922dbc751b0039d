import StoryMarkup.Proofs.Script.Dissection

/-! The reading of an expression: its tokens, and for a template what the lexer reads in it. -/
namespace StoryMarkup.Script

open List Text Phrase
variable {keep : Bool} {levels : Nat} {f : List Char} {kind : TokenKind}
variable {src : List Char}

/-- What is read at one place: a token that is no template, or a part of a template. -/
inductive Mark where
  | token (kind : TokenKind)
  | template
  | text (s : String)
  | hole
  | holeEnd
  | templateEnd

structure Entry where
  mark : Mark
  /-- The text of a token. -/
  text : List Char
  /-- Whether it stands right behind the one before it. -/
  glued : Bool

def partsReading (holes : Span → Option (List Entry)) : List TemplatePart → Option (List Entry)
  | [] => some []
  | .text s :: rest => do
    let more ← partsReading holes rest
    return ⟨.text s, [], true⟩ :: more
  | .hole span :: rest => do
    let inside ← holes span
    let more ← partsReading holes rest
    return ⟨.hole, [], true⟩ :: (inside ++ ⟨.holeEnd, [], true⟩ :: more)

def readTokens (holes : Span → Option (List Entry)) (src : List Char) (keep : Bool) (stop : Nat) :
    Nat → Lexer → Option (List Entry)
  | 0, _ => none
  | fuel + 1, lx =>
    match lx.scan keep maxNesting with
    | .error _ => none
    | .ok (token, after) =>
      if stop ≤ token.span.start then some []
      else
        let glued := token.span.start == lx.cursor.pos
        match token.kind with
        | .template parts => do
          let inside ← partsReading holes parts
          let more ← readTokens holes src keep stop fuel after
          return ⟨.template, [], glued⟩ :: (inside ++ ⟨.templateEnd, [], true⟩ :: more)
        | kind => do
          let more ← readTokens holes src keep stop fuel after
          return ⟨.token kind, (token.span.extract? src).getD [], glued⟩ :: more

def readRange (src : List Char) (keep : Bool) : Nat → Nat → Nat → Option (List Entry)
  | 0, _, _ => none
  | levels + 1, start, stop =>
    let lexer := Lexer.ofOffset src start
    readTokens (fun span => readRange src keep levels span.start span.stop) src keep stop
      (lexer.cursor.rest.length + 1) lexer

/-- What is read in a whole expression, with its comments or without them. -/
def reading (keep : Bool) (src : List Char) : Option (List Entry) :=
  readRange src keep (maxNesting + 1) 0 (byteLength src)

/-! The reading of a phrase. -/

def textEntries (run : List Char) : List Entry :=
  if run.isEmpty then [] else [⟨.text (String.ofList run.reverse), [], true⟩]

mutual

/-- What is read in a phrase; `glued` says whether it stands right behind what was read before. -/
def Phrase.entries (keep : Bool) : Bool → Phrase → List Entry
  | _, .done => []
  | _, .blank _ rest => rest.entries keep false
  | glued, .comment newlines t rest =>
    if keep then ⟨.token (.comment newlines), t, glued⟩ :: rest.entries keep true else rest.entries keep false
  | glued, .word kind t rest => ⟨.token kind, t, glued⟩ :: rest.entries keep true
  | glued, .template body rest =>
    ⟨.template, [], glued⟩ :: (body.entries keep true [] ++ ⟨.templateEnd, [], true⟩ :: rest.entries keep true)

/-- What is read in the inside of a template from some place on: whether nothing was read before,
the characters read since the last hole, last one first, and what is to come. -/
def Quote.entries (keep : Bool) : Bool → List Char → Quote → List Entry
  | first, run, .done => if run.isEmpty && first then [⟨.text "", [], true⟩] else textEntries run
  | first, run, .piece value _ rest => rest.entries keep first (value ++ run)
  | _, run, .hole inner rest =>
    textEntries run ++ ⟨.hole, [], true⟩ :: (inner.entries keep true ++ ⟨.holeEnd, [], true⟩ ::
      rest.entries keep false [])

end

variable {holes : Span → Option (List Entry)} {parts : List TemplatePart} {pos : Nat} {p : Bool} {span : Span}
  {t : List Char} {x : Phrase} (pre : List Char)

lemma partsReading_textParts (run : List Char) {es : List Entry}
    (h : partsReading holes parts = some es) :
    partsReading holes (textParts run ++ parts) = some (textEntries run ++ es) := by
  unfold textParts textEntries
  split
  · exact h
  · simp [partsReading, h]

def ReadsHoles (holes : Span → Option (List Entry)) (src : List Char) (keep : Bool) (levels : Nat) : Prop :=
  ∀ (pre : List Char) (x : Phrase) (f : List Char), src = pre ++ (x.text ++ '}' :: f) → x.Valid true ('}' :: f) →
    x.depth < levels → holes ⟨byteLength pre, byteLength pre + byteLength x.text⟩ = some (x.entries keep true)

lemma Quote.partsReading_eq (hholes : ReadsHoles holes src keep levels) (q : Quote) (hq : q.Valid)
    (hdepth : q.depth ≤ levels) :
    ∀ first run pre f, src = pre ++ (q.text ++ f) →
      partsReading holes (q.parts first run (byteLength pre)) = some (q.entries keep first run) := by
  cases q with
  | done =>
    intro first run pre f _
    unfold Quote.parts Quote.entries
    split
    · rfl
    · simpa using partsReading_textParts run (show partsReading holes [] = some [] from rfl)
  | piece value raw rest =>
    obtain ⟨_, hrest⟩ := hq
    intro first run pre f hsrc
    have hread := Quote.partsReading_eq hholes rest hrest hdepth first (value ++ run) (pre ++ raw) f
      (by simp [hsrc, Quote.text])
    rwa [byteLength_append] at hread
  | hole inner rest =>
    obtain ⟨hinner, _, hrest⟩ := hq
    intro first run pre f hsrc
    obtain ⟨hinnerDepth, hrestDepth⟩ : inner.depth + 1 ≤ levels ∧ rest.depth ≤ levels := Nat.max_le.1 hdepth
    have hopen : byteLength (pre ++ ['$', '{']) = byteLength pre + 2 := byteLength_append pre ['$', '{']
    have hin := hholes (pre ++ ['$', '{']) inner (rest.text ++ f) (by simp [hsrc, Quote.text]) (hinner _) hinnerDepth
    have hread := Quote.partsReading_eq hholes rest hrest hrestDepth false [] (pre ++ ['$', '{'] ++
      inner.text ++ ['}']) f (by simp [hsrc, Quote.text])
    have hpos : byteLength (pre ++ ['$', '{'] ++ inner.text ++ ['}']) =
      byteLength pre + 2 + byteLength inner.text + 1 := by
      rw [byteLength_append, byteLength_append, hopen]
      rfl
    rw [hopen] at hin
    rw [hpos] at hread
    refine partsReading_textParts run ?_
    simp [partsReading, hin, hread]

/-- Tokens that cannot be part of an expression which started before them, outside of its
brackets. -/
def TokenKind.ends : TokenKind → Bool
  | .eof | .comma | .closing _ => true
  | _ => false

inductive IsEnd : List Char → Prop
  | nil : IsEnd []
  | comma (f : List Char) : IsEnd (',' :: f)
  | close (b : Bracket) (f : List Char) : IsEnd (b.closeChar :: f)

lemma scan_comma :
    Lexer.scan keep levels ⟨⟨pos, ',' :: f⟩, p⟩ = .ok (⟨.comma, ⟨pos, pos + 1⟩⟩, ⟨⟨pos + 1, f⟩, true⟩) :=
  scan_word keep levels pos (t := [',']) (.single (by simp [punctuation])) rfl

lemma scan_closing {b : Bracket} :
    Lexer.scan keep levels ⟨⟨pos, b.closeChar :: f⟩, p⟩ =
      .ok (⟨.closing b, ⟨pos, pos + 1⟩⟩, ⟨⟨pos + 1, f⟩, false⟩) := by
  cases b with
  | round => exact scan_word keep levels pos (t := [')']) (.single (by simp [punctuation])) rfl
  | square => exact scan_word keep levels pos (t := [']']) (.single (by simp [punctuation])) rfl
  | curly => exact scan_closing_curly

lemma IsEnd.scan (h : IsEnd f) (keep : Bool) (levels pos : Nat) (p : Bool) :
    ∃ token after, Lexer.scan keep levels ⟨⟨pos, f⟩, p⟩ = .ok (token, after) ∧ token.span.start =
      pos ∧ token.kind.ends = true := by
  cases h with
  | nil => exact ⟨_, _, scan_nil, rfl, rfl⟩
  | comma f => exact ⟨_, _, scan_comma, rfl, rfl⟩
  | close b f => exact ⟨_, _, scan_closing, rfl, rfl⟩

lemma IsEnd.not_blank (h : IsEnd f) : ∀ c ∈ f.head?, isBlank c = false := by
  cases h with
  | nil => simp
  | comma => simp [isBlank]
  | close b => cases b <;> simp [isBlank, Bracket.closeChar]

section ReadTokens

variable {holes : Span → Option (List Entry)} {src : List Char} {stop fuel : Nat} {lx after : Lexer}

lemma readTokens_stop {token : Token} (h : lx.scan keep maxNesting =
    .ok (token, after)) (hstop : stop ≤ token.span.start) :
    readTokens holes src keep stop (fuel + 1) lx = some [] := by
  simp [readTokens, h, if_pos hstop]

end ReadTokens

lemma Word.ne_template (h : Word p kind t f) (parts : List TemplatePart) : kind ≠ .template parts := by
  rintro rfl
  cases h.isPlain

lemma beq_byteLength_append (gap : List Char) : (byteLength (pre ++ gap) == byteLength pre) = gap.isEmpty := by
  cases gap with
  | nil => simp
  | cons c gap =>
    have := c.utf8Size_pos
    simp
    omega

lemma readTokens_behind_gap {stop fuel : Nat} {pre gap g : List Char} {lx after : Lexer}
    (hpos : lx.cursor.pos = byteLength pre)
    (hscan : lx.scan keep maxNesting =
      .ok (⟨kind, ⟨byteLength (pre ++ gap), byteLength (pre ++ gap) + byteLength t⟩⟩, after))
    (hkind : ∀ parts, kind ≠ .template parts) (hstop : byteLength (pre ++ gap) < stop)
    (hmore : readTokens holes (pre ++ (gap ++ (t ++ g))) keep stop fuel after = some more) :
    readTokens holes (pre ++ (gap ++ (t ++ g))) keep stop (fuel + 1) lx =
      some (⟨.token kind, t, gap.isEmpty⟩ :: more) := by
  have htext : Span.extract? ⟨byteLength (pre ++ gap), byteLength (pre ++ gap) + byteLength t⟩
      (pre ++ (gap ++ (t ++ g))) = some t := by
    rw [← append_assoc]
    exact extract?_append (pre ++ gap) t g
  simp only [readTokens, hscan, if_neg (Nat.not_le.2 hstop), hmore]
  rw [htext, hpos, beq_byteLength_append]
  cases kind with
  | template parts => exact absurd rfl (hkind parts)
  | _ => rfl

lemma Phrase.readTokens_eq {keep : Bool} {levels : Nat} (hlevels : levels ≤ maxNesting)
    (hholes : ReadsHoles holes src keep levels) (x : Phrase) :
    ∀ (fuel stop : Nat) (pre gap f : List Char) (p : Bool) (lx : Lexer), src = pre ++ (gap ++ (x.text ++ f)) →
      stop = byteLength (pre ++ gap) + byteLength x.text → lx.cursor.pos = byteLength pre →
      lx.scan keep maxNesting = Lexer.scan keep maxNesting ⟨⟨byteLength (pre ++ gap), x.text ++ f⟩, p⟩ →
      x.Valid p f → x.depth ≤ levels → IsEnd f → x.text.length < fuel →
      readTokens holes src keep stop fuel lx = some (x.entries keep gap.isEmpty) := by
  -- the induction is on the phrase; blanks and skipped comments in front of it move into the gap
  cases x with
  | done =>
    intro fuel stop pre gap f p lx _ hstop _ hscan _ _ hend hfuel
    obtain _ | fuel := fuel
    · omega
    obtain ⟨token, after, htoken, hstart, -⟩ := hend.scan keep maxNesting (byteLength (pre ++ gap)) p
    exact readTokens_stop (hscan.trans htoken) (by simp [hstart, hstop, text])
  | blank c rest =>
    rintro fuel stop pre gap f p lx hsrc hstop hpos hscan ⟨hblank, hrest⟩ hdepth hend hfuel
    simp only [text, length_cons] at hfuel
    rw [text, cons_append, scan_blank hblank] at hscan
    have hread := readTokens_eq hlevels hholes rest fuel stop pre (gap ++ [c]) f p lx
      (by simp [hsrc, text]) (by simp [hstop, text, Nat.add_assoc]) hpos
      (by simpa [Nat.add_assoc] using hscan) hrest hdepth hend (by omega)
    have hgap : (gap ++ [c]).isEmpty = false := by simp
    rwa [hgap] at hread
  | comment newlines t rest =>
    rintro fuel stop pre gap f p lx hsrc hstop hpos hscan ⟨hcomment, hrest⟩ hdepth hend hfuel
    have ht : 0 < t.length := length_pos_iff.2 hcomment.ne_nil
    have hbytes := length_le_byteLength t
    simp only [text, length_append] at hfuel
    rw [text, append_assoc] at hscan hsrc
    rw [text, byteLength_append t] at hstop
    cases keep with
    | false =>
      rw [scan_comment_skip hcomment] at hscan
      have hread := readTokens_eq hlevels hholes rest fuel stop pre (gap ++ t) f p lx
        (by simp [hsrc]) (by simp [hstop, Nat.add_assoc]) hpos
        (by simpa [Nat.add_assoc] using hscan) hrest hdepth hend (by omega)
      have hgap : (gap ++ t).isEmpty = false := by simp [hcomment.ne_nil]
      rwa [hgap] at hread
    | true =>
      obtain _ | fuel := fuel
      · omega
      rw [scan_comment_keep hcomment] at hscan
      have hmore := readTokens_eq hlevels hholes rest fuel stop (pre ++ gap ++ t) [] f p
        ⟨⟨byteLength (pre ++ gap) + byteLength t, rest.text ++ f⟩, p⟩ (by simp [hsrc])
        (by simp [hstop, Nat.add_assoc]) (by simp [Nat.add_assoc]) (by simp [Nat.add_assoc]) hrest
          hdepth hend (by omega)
      subst hsrc
      exact readTokens_behind_gap hpos hscan (by simp) (by omega) hmore
  | word kind t rest =>
    rintro fuel stop pre gap f p lx hsrc hstop hpos hscan ⟨hword, hcomment, hrest⟩ hdepth hend hfuel
    have ht : 0 < t.length := length_pos_iff.2 hword.ne_nil
    have hbytes := length_le_byteLength t
    simp only [text, length_append] at hfuel
    obtain _ | fuel := fuel
    · omega
    rw [text, append_assoc] at hscan hsrc
    rw [text, byteLength_append t] at hstop
    rw [scan_word _ _ _ hword hcomment] at hscan
    have hmore := readTokens_eq hlevels hholes rest fuel stop (pre ++ gap ++ t) [] f kind.allowsPattern
      ⟨⟨byteLength (pre ++ gap) + byteLength t, rest.text ++ f⟩, kind.allowsPattern⟩ (by simp [hsrc])
      (by simp [hstop, Nat.add_assoc]) (by simp [Nat.add_assoc]) (by simp [Nat.add_assoc]) hrest hdepth hend (by omega)
    subst hsrc
    exact readTokens_behind_gap hpos hscan hword.ne_template (by omega) hmore
  | template body rest =>
    rintro fuel stop pre gap f p lx hsrc hstop hpos hscan ⟨hbody, hrest⟩ hdepth hend hfuel
    obtain ⟨hbodyDepth, hrestDepth⟩ : body.depth ≤ levels ∧ rest.depth ≤ levels := Nat.max_le.1 hdepth
    simp only [text, length_append, length_cons] at hfuel
    obtain _ | fuel := fuel
    · omega
    rw [text, cons_append, append_assoc] at hscan hsrc
    rw [text, byteLength_cons, byteLength_append body.text, utf8Size_backquote] at hstop
    have hread := body.reads hbody (Nat.le_trans hbodyDepth hlevels) (byteLength (pre ++ gap))
      ((body.text ++ (rest.text ++ f)).length + 2) [] [] (byteLength (pre ++ gap) + 1) (rest.text ++ f) (by simp; omega)
    rw [scan_backquote hread] at hscan
    have hparts := body.partsReading_eq hholes hbody hbodyDepth true [] (pre ++ gap ++ [backquote])
      (rest.text ++ f) (by simp [hsrc])
    rw [byteLength_append _ [backquote], show byteLength [backquote] = 1 from rfl] at hparts
    have hmore := readTokens_eq hlevels hholes rest fuel stop (pre ++ gap ++ [backquote] ++ body.text) [] f false
      ⟨⟨byteLength (pre ++ gap) + 1 + byteLength body.text, rest.text ++ f⟩, false⟩ (by simp [hsrc])
      (by simp [hstop, Nat.add_assoc]) (by simp [Nat.add_assoc]) (by simp [Nat.add_assoc]) hrest
        hrestDepth hend (by omega)
    have hbelow : ¬stop ≤ byteLength (pre ++ gap) := by omega
    simp only [readTokens, hscan, if_neg hbelow, reverse_nil, nil_append, isEmpty_nil, hparts, hmore]
    rw [hpos, beq_byteLength_append]
    rfl

lemma Phrase.readRange_eq (hlevels : levels ≤ maxNesting)
    (hholes : ReadsHoles (fun span => readRange src keep levels span.start span.stop) src keep levels)
    (pre : List Char) (hsrc : src = pre ++ (x.text ++ f)) (hx : x.Valid true f) (hdepth : x.depth ≤ levels)
    (hend : IsEnd f) :
    readRange src keep (levels + 1) (byteLength pre) (byteLength pre + byteLength x.text) =
      some (x.entries keep true) := by
  have hlexer : Lexer.ofOffset src (byteLength pre) = ⟨⟨byteLength pre, x.text ++ f⟩, true⟩ := by
    rw [hsrc, Lexer.ofOffset, Cursor.ofOffset_append]
  rw [readRange, hlexer]
  refine x.readTokens_eq hlevels hholes _ _ pre [] f true _ hsrc ?_ rfl ?_ hx hdepth hend ?_
  · rw [append_nil]
  · rw [append_nil]
  · simp only [length_append]
    omega

lemma readsHoles_readRange (src : List Char) (keep : Bool) (hlevels : levels ≤ maxNesting) :
    ReadsHoles (fun span => readRange src keep levels span.start span.stop) src keep levels := by
  induction levels with
  | zero => intro pre x f _ _ hdepth; omega
  | succ levels ih =>
    intro pre x f hsrc hx hdepth
    exact x.readRange_eq (by omega) (ih (by omega)) pre hsrc hx (by omega) (.close .curly f)

lemma Phrase.reading_eq (hx : x.Valid true []) (hdepth : x.depth ≤ maxNesting) (keep : Bool) :
    reading keep x.text = some (x.entries keep true) := by
  have hread := x.readRange_eq (Nat.le_refl maxNesting) (readsHoles_readRange x.text keep
    (Nat.le_refl maxNesting)) [] (by simp) hx hdepth .nil
  rwa [byteLength_nil, Nat.zero_add] at hread

end StoryMarkup.Script
