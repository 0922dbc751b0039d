import StoryMarkup.Proofs.Script.Readings

/-! The brackets of a phrase match exactly if those of its tokens do, in the holes of templates
too. -/
namespace StoryMarkup.Script

open TokenKind List Text Phrase

def openBehind : List Bracket → List Token → Option (List Bracket)
  | opened, [] => some opened
  | opened, token :: rest =>
    match token.kind with
    | .opening b => openBehind (b :: opened) rest
    | .closing b =>
      match opened with
      | c :: outer => if b == c then openBehind outer rest else none
      | [] => none
    | _ => openBehind opened rest

def tokensWithin (src : List Char) (span : Span) : List Token :=
  ((Lexer.ofOffset src span.start).tokens true).1.takeWhile (·.span.start < span.stop)

def Token.holes (token : Token) : List Span :=
  match token.kind with
  | .template parts => parts.filterMap TemplatePart.hole?
  | _ => []

/-- The brackets match in all holes of the templates among some tokens, and in the holes of
templates there. -/
inductive HolesMatch (src : List Char) : List Token → Prop
  | intro {tokens : List Token}
    (hmatch : ∀ token ∈ tokens, ∀ span ∈ token.holes, openBehind [] (tokensWithin src span) = some [])
    (hinside : ∀ token ∈ tokens, ∀ span ∈ token.holes, HolesMatch src (tokensWithin src span)) : HolesMatch src tokens

/-! Reading all tokens. -/

variable {t f g src : List Char} {fuel pos : Nat} {lx after : Lexer} {token : Token} {p : Bool} {x rest : Phrase}
  {kind : TokenKind} {b : Bracket} {tokens : List Token} {span : Span} {opened : List Bracket} (pre : List Char)

lemma tokensFrom_of_scan (h : lx.scan true maxNesting = .ok (token, after)) (hkind : token.kind.isEof = false) :
    (lx.tokensFrom true (fuel + 1)).1 = token :: (after.tokensFrom true fuel).1 := by
  obtain ⟨kind, span⟩ := token
  rw [Lexer.tokensFrom]
  cases kind with
  | eof => cases hkind
  | _ => simp only [h]

lemma tokensFrom_congr {lx' : Lexer} (h : lx.scan true maxNesting = lx'.scan true maxNesting) :
    (lx.tokensFrom true (fuel + 1)).1 = (lx'.tokensFrom true (fuel + 1)).1 := by
  simp only [Lexer.tokensFrom, h]
  cases lx'.scan true maxNesting <;> rfl

lemma Phrase.Leads.tokens_eq {q : Bool} {kind : Nat → TokenKind} (h : x.Leads p f t kind q rest) (pos : Nat) :
    x.tokens pos = ⟨kind pos, ⟨pos, pos + byteLength t⟩⟩ :: rest.tokens (pos + byteLength t) := by
  cases h with
  | template => simp [tokens, Nat.add_assoc]
  | _ => rfl

/-- The tokens of a phrase are read first, whatever is read behind it. -/
def Phrase.ReadOut (x : Phrase) (f : List Char) (p : Bool) (pos fuel : Nat) : Prop :=
  ∃ fuel' p', (Lexer.tokensFrom true fuel ⟨⟨pos, x.text ++ f⟩, p⟩).1 =
    x.tokens pos ++ (Lexer.tokensFrom true (fuel' + 1) ⟨⟨pos + byteLength x.text, f⟩, p'⟩).1

lemma Phrase.Leads.tokensFrom_text {q : Bool} {kind : Nat → TokenKind}
    (h : x.Leads p f t kind q rest) (hfuel : x.text.length < fuel)
    (hrest : ∀ fuel, rest.text.length < fuel → rest.ReadOut f q (pos + byteLength t) fuel) :
    x.ReadOut f p pos fuel := by
  have ht := length_pos_iff.2 h.ne_nil
  rw [h.text_eq, length_append] at hfuel
  obtain _ | fuel := fuel
  · omega
  obtain ⟨fuel', p', hread⟩ := hrest fuel (by omega)
  refine ⟨fuel', p', ?_⟩
  rw [h.tokens_eq, h.text_eq, append_assoc, tokensFrom_of_scan (h.scan pos) (h.not_eof pos), hread,
    byteLength_append, Nat.add_assoc, cons_append]

lemma Phrase.tokensFrom_text : (x : Phrase) → ∀ {p : Bool} (pos fuel : Nat), x.Valid p f →
    x.depth ≤ maxNesting → x.text.length < fuel → x.ReadOut f p pos fuel
  | .done, p, pos, fuel, _, _, hfuel => by
    obtain _ | fuel := fuel
    · omega
    exact ⟨fuel, p, rfl⟩
  | .blank c rest, p, pos, fuel, ⟨hc, hrest⟩, hdepth, hfuel => by
    simp only [text, length_cons] at hfuel
    obtain _ | fuel := fuel
    · omega
    obtain ⟨fuel', p', hread⟩ := rest.tokensFrom_text (pos + c.utf8Size) (fuel + 1) hrest hdepth (by omega)
    refine ⟨fuel', p', ?_⟩
    rw [text, cons_append, tokensFrom_congr (scan_blank hc), hread, byteLength_cons, Nat.add_assoc]
    rfl
  | .comment _ _ rest, _, _, _, ⟨hcomment, hrest⟩, hdepth, hfuel =>
    (Leads.comment hcomment).tokensFrom_text hfuel fun fuel => rest.tokensFrom_text _ fuel hrest hdepth
  | .word _ _ rest, _, _, _, ⟨hword, hopens, hrest⟩, hdepth, hfuel =>
    (Leads.word hword hopens).tokensFrom_text hfuel fun fuel => rest.tokensFrom_text _ fuel hrest hdepth
  | .template _ rest, _, _, _, ⟨hbody, hrest⟩, hdepth, hfuel =>
    (Leads.template hbody (Nat.max_le.1 hdepth).1).tokensFrom_text hfuel fun fuel =>
      rest.tokensFrom_text _ fuel hrest (Nat.max_le.1 hdepth).2

lemma Phrase.tokens_before_closing (hx : x.Valid true (b.closeChar :: g)) (hdepth : x.depth ≤ maxNesting) :
    ∃ after, ((Lexer.ofOffset (pre ++ (x.text ++ b.closeChar :: g)) (byteLength pre)).tokens true).1
      = x.tokens (byteLength pre) ++ ⟨.closing b,
        ⟨byteLength pre + byteLength x.text, byteLength pre + byteLength x.text + 1⟩⟩ ::
        after := by
  have hfuel : x.text.length < (x.text ++ b.closeChar :: g).length + 1 := by
    simp only [length_append]
    omega
  obtain ⟨fuel', p', hread⟩ := x.tokensFrom_text (byteLength pre) _ hx hdepth hfuel
  rw [tokensFrom_of_scan scan_closing rfl] at hread
  refine ⟨(Lexer.tokensFrom true fuel' ⟨⟨byteLength pre + byteLength x.text + 1, g⟩, false⟩).1, ?_⟩
  rw [← hread, Lexer.ofOffset, Cursor.ofOffset_append]
  rfl

lemma closeChar_mem_punctuation (b : Bracket) : (b.closeChar, closing b) ∈ punctuation := by
  cases b <;> simp [punctuation, Bracket.closeChar]

lemma readAs_of_tokensFrom {before after : List Token} : ∀ {fuel : Nat} {lx : Lexer},
    (lx.tokensFrom true fuel).1 = before ++ ⟨.closing b, span⟩ :: after →
    ∃ g, ReadAs maxNesting before (b.closeChar :: g) lx ∧
      span.start + byteLength (b.closeChar :: g) = lx.cursor.pos + byteLength lx.cursor.rest := by
  induction before with
  | nil =>
    intro fuel lx h
    cases fuel with
    | zero => cases h
    | succ fuel =>
      rw [Lexer.tokensFrom] at h
      split at h
      · cases h
      · rename_i token next hscan
        have hscans := (holesRead maxNesting).scans hscan
        obtain rfl : token = ⟨.closing b, span⟩ := by
          split at h
          · exact (cons.inj h).1
          · exact (cons.inj h).1
        exact hscans.readAs_nil (closeChar_mem_punctuation b)
  | cons first before ih =>
    intro fuel lx h
    cases fuel with
    | zero => cases h
    | succ fuel =>
      rw [Lexer.tokensFrom] at h
      split at h
      · cases h
      · rename_i token next hscan
        have hscans := (holesRead maxNesting).scans hscan
        split at h
        · -- the end of the text is the last token
          simp at h
        · rename_i hkind
          obtain ⟨rfl, hrest⟩ := cons.inj h
          have hmore : token.kind.isEof = false := by
            cases hkind' : token.kind with
            | eof => exact absurd hkind' hkind
            | _ => rfl
          obtain ⟨g, hread, hend⟩ := ih hrest
          exact ⟨g, hscans.readAs hmore hread, by rw [hend, hscans.end_eq]⟩

/-! Brackets that match. -/

lemma openBehind_word :
    openBehind opened (⟨kind, span⟩ :: tokens) = some [] ↔
      kind.Fits true opened ∧ openBehind (kind.openedAfter opened) tokens = some [] := by
  cases kind with
  | closing b =>
    cases opened with
    | nil => simp [openBehind, Fits]
    | cons c outer =>
      by_cases hsame : b = c
      · subst hsame
        simp [openBehind, Fits, openedAfter]
      · simp [openBehind, Fits, hsame, Ne.symm hsame]
  | _ => simp [openBehind, Fits, openedAfter]

def RangeMatches (src : List Char) (span : Span) : Prop :=
  openBehind [] (tokensWithin src span) = some [] ∧ HolesMatch src (tokensWithin src span)

lemma holesMatch_iff :
    HolesMatch src tokens ↔ ∀ token ∈ tokens, ∀ span ∈ token.holes, RangeMatches src span := by
  constructor
  · rintro ⟨hmatch, hinside⟩ token htoken span hspan
    exact ⟨hmatch token htoken span hspan, hinside token htoken span hspan⟩
  · exact fun h => .intro (fun token htoken span hspan => (h token htoken span hspan).1)
      fun token htoken span hspan => (h token htoken span hspan).2

lemma holesMatch_cons :
    HolesMatch src (token :: tokens) ↔ (∀ span ∈ token.holes, RangeMatches src span) ∧
      HolesMatch src tokens := by
  simp [holesMatch_iff]

lemma Token.holes_of_isPlain (h : kind.isPlain = true) : Token.holes ⟨kind, span⟩ = [] := by
  cases kind with
  | template => cases h
  | _ => rfl

lemma Phrase.start_lt_of_mem_tokens : (x : Phrase) → ∀ {p : Bool} {pos : Nat}, x.Valid p f →
    token ∈ x.tokens pos → token.span.start < pos + byteLength x.text
  | .done, _, _, _, h => by cases h
  | .blank c rest, p, pos, ⟨_, hrest⟩, h => by
    have := rest.start_lt_of_mem_tokens hrest h
    rw [text, byteLength_cons]
    omega
  | .comment newlines t rest, p, pos, ⟨hcomment, hrest⟩, h => by
    have ht := byteLength_pos hcomment.ne_nil
    rw [text, byteLength_append]
    obtain rfl | h := mem_cons.1 h
    · simp only
      omega
    · have := rest.start_lt_of_mem_tokens hrest h
      omega
  | .word kind t rest, p, pos, ⟨hword, _, hrest⟩, h => by
    have ht := byteLength_pos hword.ne_nil
    rw [text, byteLength_append]
    obtain rfl | h := mem_cons.1 h
    · simp only
      omega
    · have := rest.start_lt_of_mem_tokens hrest h
      omega
  | .template body rest, p, pos, ⟨_, hrest⟩, h => by
    rw [text, byteLength_cons, byteLength_append, utf8Size_backquote]
    obtain rfl | h := mem_cons.1 h
    · simp only
      omega
    · have := rest.start_lt_of_mem_tokens hrest h
      omega

lemma tokensWithin_phrase (hx : x.Valid true (b.closeChar :: g)) (hdepth : x.depth ≤ maxNesting) :
    tokensWithin (pre ++ (x.text ++ b.closeChar :: g)) ⟨byteLength pre, byteLength pre + byteLength
      x.text⟩ = x.tokens (byteLength pre) := by
  obtain ⟨after, hread⟩ := tokens_before_closing pre hx hdepth
  rw [tokensWithin, hread, takeWhile_append_of_pos fun token htoken => by
    simpa using x.start_lt_of_mem_tokens hx htoken]
  simp

mutual

theorem Phrase.nested_iff (src : List Char) : (x : Phrase) → ∀ (pre : List Char) {f : List Char} {p : Bool}
    (opened : List Bracket), src = pre ++ (x.text ++ f) → x.Valid p f → x.depth ≤ maxNesting →
    (x.Nested true opened ↔
      openBehind opened (x.tokens (byteLength pre)) = some [] ∧ HolesMatch src (x.tokens (byteLength pre)))
  | .done, pre, f, p, opened, _, _, _ => by
    simp [Nested, tokens, openBehind, holesMatch_iff]
  | .blank c rest, pre, f, p, opened, hsrc, ⟨_, hrest⟩, hdepth => by
    have h := rest.nested_iff src (pre ++ [c]) opened (by simp [hsrc, text]) hrest hdepth
    rw [Nested, tokens, h]
    simp
  | .comment newlines t rest, pre, f, p, opened, hsrc, ⟨_, hrest⟩, hdepth => by
    have h := rest.nested_iff src (pre ++ t) opened (by simp [hsrc, text]) hrest hdepth
    rw [byteLength_append] at h
    rw [Nested, tokens, h, openBehind_word, holesMatch_cons]
    simp [Fits, openedAfter, Token.holes]
  | .word kind t rest, pre, f, p, opened, hsrc, ⟨hword, _, hrest⟩, hdepth => by
    have h := rest.nested_iff src (pre ++ t) (kind.openedAfter opened) (by simp [hsrc, text]) hrest hdepth
    rw [byteLength_append] at h
    rw [nested_word, tokens, h, openBehind_word, holesMatch_cons, Token.holes_of_isPlain hword.isPlain]
    simp [and_assoc]
  | .template body rest, pre, f, p, opened, hsrc, ⟨hbody, hrest⟩, hdepth => by
    have hmax : body.depth ≤ maxNesting ∧ rest.depth ≤ maxNesting := Nat.max_le.1 hdepth
    have hinside := body.nested_iff src (pre ++ [backquote]) true [] (f := rest.text ++ f)
      (by simp [hsrc, text])
      hbody hmax.1
    have h := rest.nested_iff src (pre ++ [backquote] ++ body.text) opened (by simp [hsrc,
      text]) hrest hmax.2
    rw [byteLength_append, byteLength_append _ [backquote], show byteLength [backquote] = 1 from rfl] at h
    rw [byteLength_append _ [backquote], show byteLength [backquote] = 1 from rfl] at hinside
    rw [Nested, tokens, h, hinside, openBehind_word, holesMatch_cons]
    simp only [Fits, openedAfter, Token.holes]
    simp [and_left_comm]

theorem Quote.nested_iff (src : List Char) : (q : Quote) → ∀ (pre : List Char) (first : Bool)
    (run : List Char) {f : List Char}, src = pre ++ (q.text ++ f) → q.Valid → q.depth ≤ maxNesting →
    (q.Nested ↔ ∀ span ∈ (q.parts first run (byteLength pre)).filterMap TemplatePart.hole?, RangeMatches src span)
  | .done, pre, first, run, f, _, _, _ => by
    simp [Quote.Nested, Quote.done_holes]
  | .piece value raw rest, pre, first, run, f, hsrc, ⟨_, hrest⟩, hdepth => by
    have h := rest.nested_iff src (pre ++ raw) first (value ++ run) (f := f) (by simp [hsrc, Quote.text]) hrest hdepth
    rw [byteLength_append] at h
    rw [Quote.Nested, Quote.parts, h]
  | .hole inner rest, pre, first, run, f, hsrc, ⟨hinner, _, hrest⟩, hdepth => by
    have hmax : inner.depth + 1 ≤ maxNesting ∧ rest.depth ≤ maxNesting := Nat.max_le.1 hdepth
    have hinnerDepth : inner.depth ≤ maxNesting := by omega
    have hopen : byteLength (pre ++ ['$', '{']) = byteLength pre + 2 := byteLength_append _ ['$', '{']
    have hend : byteLength (pre ++ ['$', '{'] ++ inner.text ++ ['}']) =
      byteLength pre + 2 + byteLength inner.text + 1 := by
      rw [byteLength_append _ ['}'], byteLength_append _ inner.text, hopen]
      rfl
    have hspan : src = pre ++ ['$', '{'] ++ (inner.text ++ Bracket.curly.closeChar :: (rest.text ++ f)) := by
      simp [hsrc, Quote.text, Bracket.closeChar]
    have hinside := inner.nested_iff src (pre ++ ['$', '{']) [] hspan (hinner _) hinnerDepth
    have hwithin := tokensWithin_phrase (b := .curly) (pre ++ ['$', '{']) (hinner (rest.text ++ f)) hinnerDepth
    rw [← hspan] at hwithin
    rw [← hwithin, hopen] at hinside
    have h := rest.nested_iff src (pre ++ ['$', '{'] ++ inner.text ++ ['}']) false [] (f := f)
      (by simp [hsrc, Quote.text]) hrest hmax.2
    rw [hend] at h
    rw [Quote.Nested, Quote.parts, filterMap_append, textParts_holes, nil_append, h, hinside]
    simp [TemplatePart.hole?, RangeMatches]

end

end StoryMarkup.Script
