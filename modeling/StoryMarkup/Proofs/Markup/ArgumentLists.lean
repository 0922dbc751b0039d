import StoryMarkup.Proofs.Markup.Fragments
import StoryMarkup.Proofs.Script.OnePass

/-! Lists of expressions in brackets: read one by one, but delimited as one pass of the lexer
says. -/
open List

namespace StoryMarkup.Script

open Text

structure Stretch where
  span : Span
  tokens : List Token

namespace Stretch

def isFilled (s : Stretch) : Bool := s.tokens.any (!·.kind.isComment)

def raw (source : List Char) (s : Stretch) : Option String :=
  (s.span.extract? source).map fun cs => String.ofList (trimChars cs)

end Stretch

/-- Tokens up to `stop` divided at the commas outside of all brackets. The tokens since `start` come
last one first, and then the brackets that are still open. -/
def stretchesFrom (stop : Nat) : Nat → List Token → List Bracket → List Token → List Stretch
  | start, done, _, [] => [⟨⟨start, stop⟩, done.reverse⟩]
  | start, done, opened, token :: rest =>
    if token.kind.isComma && opened.isEmpty then
      ⟨⟨start, token.span.start⟩, done.reverse⟩ :: stretchesFrom stop token.span.stop [] [] rest
    else stretchesFrom stop start (token :: done) (token.kind.openedAfter opened) rest

def stretches (start stop : Nat) (tokens : List Token) : List Stretch := stretchesFrom stop start [] [] tokens

/-- One pass of the lexer from `start` on reads some tokens whose brackets match and then comes to a
bracket at `stop` that closes none of them. Each stretch between their commas has a token in it, the
last one aside. -/
structure Delimits (source : List Char) (start : Nat) (close : Bracket) (stop : Nat) (before : List Token) : Prop where
  lexed : ∃ after, ((Lexer.ofOffset source start).tokens true).1 = before ++ ⟨.closing close, ⟨stop, stop + 1⟩⟩ :: after
  matched : openBehind [] before = some []
  filled : ∀ s ∈ (stretches start stop before).dropLast, s.isFilled = true

lemma Phrase.tokens_append (y : Phrase) : (x : Phrase) → ∀ pos,
    (x.append y).tokens pos = x.tokens pos ++ y.tokens (pos + byteLength x.text)
  | .done, pos => rfl
  | .blank c rest, pos => by
    rw [Phrase.append, Phrase.tokens, Phrase.tokens_append y rest, Phrase.tokens, Phrase.text,
      byteLength_cons, Nat.add_assoc]
  | .comment newlines t rest, pos => by
    rw [Phrase.append, Phrase.tokens, Phrase.tokens_append y rest, Phrase.tokens, Phrase.text,
      byteLength_append, Nat.add_assoc,
      cons_append]
  | .word kind t rest, pos => by
    rw [Phrase.append, Phrase.tokens, Phrase.tokens_append y rest, Phrase.tokens, Phrase.text,
      byteLength_append, Nat.add_assoc,
      cons_append]
  | .template body rest, pos => by
    rw [Phrase.append, Phrase.tokens, Phrase.tokens_append y rest, Phrase.tokens, Phrase.text,
      byteLength_cons, byteLength_append,
      utf8Size_backquote, cons_append]
    simp [Nat.add_assoc]

lemma stretchesFrom_phrase (stop start : Nat) (rest : List Token) : (y : Phrase) → ∀ (pos : Nat) (done : List Token)
    {opened : List Bracket}, y.Nested false opened →
    stretchesFrom stop start done opened (y.tokens pos ++ rest) =
      stretchesFrom stop start ((y.tokens pos).reverse ++ done) [] rest
  | .done, pos, done, opened, h => by
    obtain rfl : opened = [] := h
    rfl
  | .blank c y, pos, done, opened, h => stretchesFrom_phrase stop start rest y (pos + c.utf8Size) done h
  | .comment newlines t y, pos, done, opened, h => by
    rw [Phrase.tokens, cons_append, stretchesFrom, if_neg (by simp [TokenKind.isComma]),
      reverse_cons, append_assoc]
    exact stretchesFrom_phrase stop start rest y (pos + byteLength t) _ h
  | .template body y, pos, done, opened, h => by
    rw [Phrase.tokens, cons_append, stretchesFrom, if_neg (by simp [TokenKind.isComma]),
      reverse_cons, append_assoc]
    exact stretchesFrom_phrase stop start rest y (pos + 1 + byteLength body.text) _ h.2
  | .word kind t y, pos, done, opened, h => by
    have hcomma : ¬(kind.isComma && opened.isEmpty) = true := by
      cases kind with
      | comma =>
        intro hfree
        simp only [TokenKind.isComma, Bool.true_and, List.isEmpty_iff] at hfree
        cases h.1 hfree
      | _ => simp [TokenKind.isComma]
    rw [Phrase.tokens, cons_append, stretchesFrom, if_neg hcomma, reverse_cons, append_assoc]
    exact stretchesFrom_phrase stop start rest y (pos + byteLength t) _ (Phrase.nested_word.1 h).2

end StoryMarkup.Script

namespace StoryMarkup.Markup

open Script Text
variable {f t source : List Char} {y : Phrase} {close : Bracket} {ys : List Phrase} {p : Bool} {exprs : List ExprSource}
  {g : List Char} (pre : List Char)

def phraseStretches : Nat → Phrase → List Phrase → List Stretch
  | pos, y, [] => [⟨⟨pos, pos + byteLength y.text⟩, y.tokens pos⟩]
  | pos, y, z :: ys =>
    ⟨⟨pos, pos + byteLength y.text⟩, y.tokens pos⟩ :: phraseStretches (pos + byteLength y.text + 1) z ys

lemma phraseStretches_ne_nil (pos : Nat) (y : Phrase) (ys : List Phrase) : phraseStretches pos y ys ≠ [] := by
  cases ys <;> exact cons_ne_nil _ _

lemma byteLength_separated (y z : Phrase) (ys : List Phrase) :
    byteLength (separated y (z :: ys)).text = byteLength y.text + 1 + byteLength (separated z ys).text := by
  simp only [separated, Phrase.text_append, Phrase.text, byteLength_append, byteLength_cons, byteLength_nil]
  rw [show ','.utf8Size = 1 from rfl]
  omega

lemma byteLength_comma (t : List Char) : byteLength (pre ++ (t ++ [','])) = byteLength pre + byteLength t + 1 := by
  rw [← append_assoc, byteLength_append _ [','], byteLength_append]
  rfl

lemma stretches_separated (y : Phrase) (ys : List Phrase) (pos : Nat) (h : ∀ z ∈ y :: ys, z.Nested false []) :
    stretches pos (pos + byteLength (separated y ys).text) ((separated y ys).tokens pos) =
      phraseStretches pos y ys := by
  induction ys generalizing y pos with
  | nil =>
    have hone := stretchesFrom_phrase (pos + byteLength y.text) pos [] y pos [] (h y mem_cons_self)
    rw [append_nil, append_nil] at hone
    rw [stretches, separated, hone, stretchesFrom, reverse_reverse, phraseStretches]
  | cons z ys ih =>
    have hmore := ih z (pos + byteLength y.text + 1) fun w hw => h w (mem_cons_of_mem _ hw)
    have hstop : pos + byteLength (separated y (z :: ys)).text =
        pos + byteLength y.text + 1 + byteLength (separated z ys).text := by
      rw [byteLength_separated]
      omega
    have hcomma : (TokenKind.comma.isComma && ([] : List Bracket).isEmpty) = true := rfl
    rw [stretches] at hmore
    rw [stretches, hstop, separated, Phrase.tokens_append, stretchesFrom_phrase _ _ _ y pos [] (h y mem_cons_self),
      Phrase.tokens, stretchesFrom, if_pos hcomma, append_nil, reverse_reverse, phraseStretches]
    exact congrArg _ hmore

/-! Phrases with commas between them. -/

structure Separates (f : List Char) (y : Phrase) (ys : List Phrase) : Prop where
  valid : (separated y ys).Valid true f
  depth : (separated y ys).depth ≤ maxNesting
  nested : ∀ z ∈ y :: ys, z.Nested false []

lemma valid_comma {x : Phrase} (hx : x.Valid true f) : (Phrase.word .comma [','] x).Valid p f :=
  ⟨.single (by simp [punctuation]), rfl, hx⟩

namespace Separates

variable {z : Phrase}

lemma head_valid (h : Separates f y (z :: ys)) : y.Valid true (',' :: ((separated z ys).text ++ f)) :=
  ((Phrase.valid_append y).1 h.valid).1

lemma head_depth (h : Separates f y (z :: ys)) : y.depth ≤ maxNesting := by
  have := h.depth
  rw [separated, Phrase.depth_append] at this
  exact (Nat.max_le.1 this).1

lemma tail (h : Separates f y (z :: ys)) : Separates f z ys where
  valid := ((Phrase.valid_append y).1 h.valid).2.2.2
  depth := by
    have := h.depth
    rw [separated, Phrase.depth_append] at this
    exact (Nat.max_le.1 this).2
  nested := fun w hw => h.nested w (mem_cons_of_mem _ hw)

lemma nested_separated (h : ∀ w ∈ y :: ys, w.Nested false []) : (separated y ys).Nested true [] := by
  induction ys generalizing y with
  | nil =>
    have hone : (y.append .done).Nested true ([] ++ []) := Phrase.nested_append (y := .done) rfl y (h y mem_cons_self)
    exact (@Phrase.nested_append_blanks true [] y []).1 hone
  | cons z ys ih =>
    have hmore : (Phrase.word .comma [','] (separated z ys)).Nested true [] :=
      ⟨fun _ => rfl, ih fun w hw => h w (mem_cons_of_mem _ hw)⟩
    exact Phrase.nested_append hmore y (h y mem_cons_self)

end Separates

lemma exists_separated : (x : Phrase) → ∀ {p : Bool} {opened : List Bracket}, x.Valid p f →
    x.Nested true opened → ∃ y ys, x = separated y ys ∧ y.Nested false opened ∧ ∀ z ∈ ys, z.Nested false []
  | .done, _, _, _, h => ⟨.done, [], rfl, h, by simp⟩
  | .blank c rest, _, _, ⟨_, hrest⟩, h => by
    obtain ⟨y, ys, rfl, hy, hys⟩ := exists_separated rest hrest h
    exact ⟨.blank c y, ys, by cases ys <;> rfl, hy, hys⟩
  | .comment newlines t rest, _, _, ⟨_, hrest⟩, h => by
    obtain ⟨y, ys, rfl, hy, hys⟩ := exists_separated rest hrest h
    exact ⟨.comment newlines t y, ys, by cases ys <;> rfl, hy, hys⟩
  | .template body rest, _, _, ⟨_, hrest⟩, ⟨hbody, h⟩ => by
    obtain ⟨y, ys, rfl, hy, hys⟩ := exists_separated rest hrest h
    exact ⟨.template body y, ys, by cases ys <;> rfl, ⟨hbody, hy⟩, hys⟩
  | .word kind t rest, p, opened, ⟨hword, _, hrest⟩, h => by
    obtain ⟨y, ys, rfl, hy, hys⟩ := exists_separated rest hrest (Phrase.nested_word.1 h).2
    by_cases hcomma : kind = .comma ∧ opened = []
    · -- a comma outside of all brackets ends the first phrase
      obtain ⟨rfl, rfl⟩ := hcomma
      obtain rfl : t = [','] := hword.eq_single (by simp [punctuation])
      exact ⟨.done, y :: ys, rfl, rfl, by simpa using ⟨hy, hys⟩⟩
    · refine ⟨.word kind t y, ys, by cases ys <;> rfl, ?_, hys⟩
      cases kind with
      | closing b =>
        obtain ⟨outer, rfl, -⟩ := h
        exact ⟨outer, rfl, hy⟩
      | comma => exact ⟨fun hopened => absurd ⟨rfl, hopened⟩ hcomma, hy⟩
      | _ => exact hy

/-! Phrases that hold nothing. -/

lemma blank_of_dropWhile (h : t.dropWhile isBlank = []) : ∀ c ∈ t, isBlank c = true := by
  have hall : (t.takeWhile isBlank).all isBlank = true := all_takeWhile
  have hsplit := takeWhile_append_dropWhile (p := isBlank) (l := t)
  rw [h, append_nil] at hsplit
  rw [hsplit] at hall
  exact all_eq_true.1 hall

lemma trimChars_eq_nil_iff : trimChars t = [] ↔ ∀ c ∈ t, isBlank c = true := by
  constructor
  · intro h
    have hrest := blank_of_dropWhile (reverse_eq_nil_iff.1 h)
    refine blank_of_dropWhile (head?_eq_none_iff.1 (Option.eq_none_iff_forall_not_mem.2 fun c hc => ?_))
    -- what is left of a text without its leading blanks starts with no blank
    have hblank := hrest c (mem_reverse.2 (mem_of_mem_head? hc))
    rw [head?_dropWhile t c hc] at hblank
    cases hblank
  · intro h
    rw [trimChars, dropWhile_blanks h]
    rfl

lemma not_blank_of_writing {kind : TokenKind} (hword : Word p kind t f) (w : Writing)
    (rest : Phrase) : ∃ c ∈ (w.phrase kind t rest).text, isBlank c = false := by
  cases w with
  | same =>
    obtain ⟨c, cs, rfl, -⟩ := hword.reads
    exact ⟨c, by simp [Writing.phrase, Phrase.text], by simpa using hword.not_blank.1⟩
  | root scope | field scope name =>
    obtain ⟨c, cs, hroot, -, -, -, -, hblank⟩ := scope.root_eq
    exact ⟨c, by simp [Writing.phrase, hroot], hblank⟩

lemma blank_written_iff : (x : Phrase) → ∀ {p : Bool} (pos : Nat) (last : Option TokenKind)
    (glued : Bool), x.Valid p f → ((∀ c ∈ (x.written last glued).text, isBlank c = true) ↔
      ∀ token ∈ x.tokens pos, token.kind.isComment = true)
  | .done, _, _, _, _, _ => by simp [Phrase.written, Phrase.text, Phrase.tokens]
  | .blank c rest, p, pos, last, _, ⟨hc, hrest⟩ => by
    rw [Phrase.written, Phrase.text, Phrase.tokens, ← blank_written_iff rest (pos + c.utf8Size) last false hrest]
    simp [hc]
  | .comment newlines t rest, p, pos, last, _, ⟨_, hrest⟩ => by
    rw [Phrase.written, Phrase.text_blanks, Phrase.tokens, forall_mem_append, forall_mem_cons,
      ← blank_written_iff rest (pos + byteLength t) (some (.comment newlines)) true hrest]
    simp only [TokenKind.isComment, true_and]
    exact and_iff_right fun c hc => isBlank_of_mem_commentText newlines hc
  | .word kind t rest, p, pos, last, glued, ⟨hword, _, _⟩ => by
    obtain ⟨c, hc, hblank⟩ := not_blank_of_writing hword
      (writing (keepsName last glued) rest.startsName kind) (rest.written (some kind) true)
    have hkind : kind.isComment = false := by
      have := hword.isPlain
      cases kind <;> trivial
    rw [Phrase.written, Phrase.tokens, forall_mem_cons, hkind]
    refine iff_of_false (fun h => ?_) (by simp)
    rw [h c hc] at hblank
    cases hblank
  | .template body rest, p, pos, _, _, _ => by
    rw [Phrase.written, Phrase.tokens, forall_mem_cons]
    refine iff_of_false (fun h => ?_) (by simp [TokenKind.isComment])
    exact absurd (h backquote (by simp [Phrase.text])) (by decide)

lemma isFilled_of_code {code : String} (hy : y.Valid p f) (hcode : code.toList = trimChars (y.written none true).text)
    (span : Span) (pos : Nat) : (Stretch.mk span (y.tokens pos)).isFilled = !code.isEmpty := by
  have h := trimChars_eq_nil_iff.trans (blank_written_iff y pos none true hy)
  rw [← hcode, String.toList_eq_nil_iff, ← String.isEmpty_iff] at h
  rw [Bool.eq_iff_iff, Bool.not_eq_true', ← Bool.not_eq_true, h]
  simp [Stretch.isFilled]

/-! Lists that are read. -/

lemma ExprSource.AreOf.separates (h : ExprSource.AreOf close y ys exprs) (g : List Char) :
    Separates (close.closeChar :: g) y ys := by
  induction h with
  | last h _ | none h _ => exact ⟨h.valid g, h.depth, by simpa using h.nested⟩
  | @more y z ys _ _ h _ _ ih =>
    refine ⟨(Phrase.valid_append y).2 ⟨h.valid _, valid_comma ih.valid⟩, ?_, forall_mem_cons.2 ⟨h.nested, ih.nested⟩⟩
    rw [separated, Phrase.depth_append]
    exact Nat.max_le.2 ⟨h.depth, ih.depth⟩

lemma ExprSource.IsOf.raw_eq {pre : List Char} {expr : ExprSource} {c : Char} (h : expr.IsOf y c)
    (hsource : source = pre ++ (y.text ++ f)) (tokens : List Token) :
    (Stretch.mk ⟨byteLength pre, byteLength pre + byteLength y.text⟩ tokens).raw source = some expr.raw := by
  rw [Stretch.raw, hsource, extract?_append, Option.map_some, ← h.raw, String.ofList_toList]

lemma ExprSource.AreOf.stretches (h : ExprSource.AreOf close y ys exprs) (pre : List Char)
    (hsource : source = pre ++ ((separated y ys).text ++ f)) :
    (∀ s ∈ (phraseStretches (byteLength pre) y ys).dropLast, s.isFilled = true) ∧
      exprs.map (some ·.raw) =
        ((phraseStretches (byteLength pre) y ys).filter Stretch.isFilled).map (Stretch.raw source) := by
  induction h generalizing pre with
  | last h hcode =>
    refine ⟨by simp [phraseStretches], ?_⟩
    rw [phraseStretches, filter_cons_of_pos (by rw [isFilled_of_code (h.valid []) h.code, hcode, Bool.not_false])]
    simp [h.raw_eq hsource]
  | none h hcode =>
    refine ⟨by simp [phraseStretches], ?_⟩
    rw [phraseStretches, filter_cons_of_neg (by simp [isFilled_of_code (h.valid []) h.code, hcode])]
    rfl
  | @more y z ys expr exprs h hcode _ ih =>
    have hrest : source = pre ++ (y.text ++ [',']) ++ ((separated z ys).text ++ f) := by
      simp [hsource, separated, Phrase.text]
    have hhere : source = pre ++ (y.text ++ (',' :: ((separated z ys).text ++ f))) := by simp [hrest]
    have hnext := byteLength_comma pre y.text
    obtain ⟨hfilled, hraw⟩ := ih (pre ++ (y.text ++ [','])) hrest
    rw [hnext] at hfilled hraw
    have hfirst := isFilled_of_code (h.valid []) h.code ⟨byteLength pre, byteLength pre + byteLength
      y.text⟩ (byteLength pre)
    rw [hcode, Bool.not_false] at hfirst
    rw [phraseStretches, dropLast_cons_of_ne_nil (phraseStretches_ne_nil _ _ _), filter_cons_of_pos hfirst]
    refine ⟨forall_mem_cons.2 ⟨hfirst, hfilled⟩, ?_⟩
    rw [map_cons, map_cons, hraw, h.raw_eq hhere]

/-! Lists that can be read. -/

lemma exists_fragment {pre : List Char} (stop : Stop) (hsource : source = pre ++ (y.text ++ stop.sign close :: g))
    (hy : y.Valid true (stop.sign close :: g)) (hdepth : y.depth ≤ maxNesting) (hnested : y.Nested false []) :
    ∃ f, fragment source (byteLength pre) close = .ok f ∧ f.stop = stop ∧ f.stopAt =
      byteLength pre + byteLength y.text ∧
      ∀ span, (Stretch.mk span (y.tokens (byteLength pre))).isFilled = !f.expr.code.isEmpty := by
  have hmeets : Meets (byteLength pre + byteLength y.text) (stop.sign close :: g) (.bracket close) stop := by
    cases stop with
    | comma => exact .comma rfl
    | close => exact .close rfl
  obtain ⟨w, hw, hstopAt, hstop, hcode⟩ := exists_write pre hsource hy hdepth hmeets hnested
  refine ⟨⟨⟨String.ofList (trimChars w.code),
    String.ofList (trimChars ((Cursor.ofOffset source (byteLength pre)).upTo w.stopAt))⟩, w.stopAt,
      w.stop⟩, ?_, hstop, hstopAt, ?_⟩
  · rw [fragment, hw]
    rfl
  · intro span
    exact isFilled_of_code hy (by rw [String.toList_ofList, hcode]) span _

lemma exists_fragmentsFrom (y : Phrase) (ys : List Phrase) :
    ∀ (pre : List Char) {fuel : Nat} (done : List ExprSource),
      source = pre ++ ((separated y ys).text ++ close.closeChar :: g) →
      Separates (close.closeChar :: g) y ys →
        (∀ s ∈ (phraseStretches (byteLength pre) y ys).dropLast, s.isFilled = true) →
      (separated y ys).text.length < fuel →
      ∃ items, fragmentsFrom source close fuel done (byteLength pre) =
        .ok (items, byteLength pre + byteLength (separated y ys).text) := by
  induction ys generalizing y with
  | nil =>
    intro pre fuel done hsource h _ hfuel
    obtain _ | fuel := fuel
    · omega
    obtain ⟨f, hread, hstop, hstopAt, -⟩ := exists_fragment .close hsource h.valid h.depth (h.nested y mem_cons_self)
    simp only [fragmentsFrom, hread, bind, Except.bind, hstop, hstopAt]
    split <;> exact ⟨_, rfl⟩
  | cons z ys ih =>
    intro pre fuel done hsource h hfilled hfuel
    obtain _ | fuel := fuel
    · omega
    have hrest : source = pre ++ (y.text ++ [',']) ++ ((separated z ys).text ++ close.closeChar :: g) := by
      simp [hsource, separated, Phrase.text]
    have hhere : source = pre ++
      (y.text ++ Stop.comma.sign close :: ((separated z ys).text ++ close.closeChar :: g)) := by
      simp [hrest, Stop.sign]
    have hnext := byteLength_comma pre y.text
    obtain ⟨f, hread, hstop, hstopAt, hcode⟩ := exists_fragment .comma hhere h.head_valid
      h.head_depth (h.nested y mem_cons_self)
    rw [phraseStretches, dropLast_cons_of_ne_nil (phraseStretches_ne_nil _ _ _), forall_mem_cons,
      hcode, ← hnext] at hfilled
    have hshorter : (separated z ys).text.length < fuel := by
      simp only [separated, Phrase.text_append, Phrase.text, length_append, length_singleton] at hfuel
      omega
    obtain ⟨items, hitems⟩ := ih z (pre ++ (y.text ++ [','])) (f.expr :: done) hrest h.tail hfilled.2 hshorter
    have hempty : f.expr.code.isEmpty = false := by simpa using hfilled.1
    refine ⟨items, ?_⟩
    rw [hnext] at hitems
    simp only [fragmentsFrom, hread, bind, Except.bind, hstop, hstopAt, hempty, Bool.false_eq_true, if_false, hitems]
    rw [byteLength_separated]
    simp [Nat.add_assoc]

/-! Lists and their brackets. -/

lemma Separates.holesMatch (h : Separates f y ys) (hsource : source = pre ++ ((separated y ys).text ++ f)) :
    openBehind [] ((separated y ys).tokens (byteLength pre)) = some [] ∧
      HolesMatch source ((separated y ys).tokens (byteLength pre)) :=
  ((separated y ys).nested_iff source pre [] hsource h.valid h.depth).1 (Separates.nested_separated h.nested)

/-- A list of expressions is delimited as one pass of the lexer says. If it is read up to an offset,
then the lexer comes there to the first bracket that closes nothing in the list, the brackets before
it match, also in the holes of templates, and the expressions were read from the stretches between
the commas outside of all brackets, one from each, but none from a last one without tokens. Every
list that the lexer delimits so is read. -/
theorem fragments_delimited {source : List Char} {start : Nat}
    (hstart : (dropBytes? source start).isSome = true) (close : Bracket) :
    (∀ items stop, fragments source start close = .ok (items, stop) → ∃ before,
      Delimits source start close stop before ∧ HolesMatch source before ∧
        items.map (some ·.raw) = ((stretches start stop before).filter Stretch.isFilled).map (Stretch.raw source)) ∧
    ∀ stop before, Delimits source start close stop before → HolesMatch source before →
      ∃ items, fragments source start close = .ok (items, stop) := by
  obtain ⟨pre, rest, rfl, rfl⟩ := exists_append_of_dropBytes? hstart
  constructor
  · intro items stop h
    obtain ⟨y, ys, g, hexprs, rfl, rfl⟩ := exists_phrases_of_fragments h
    have hseparates := hexprs.separates g
    obtain ⟨hmatched, hholes⟩ := hseparates.holesMatch pre rfl
    obtain ⟨hfilled, hraw⟩ := hexprs.stretches pre rfl
    have hcut := stretches_separated y ys (byteLength pre) hseparates.nested
    rw [byteLength_append]
    refine ⟨_, ⟨Phrase.tokens_before_closing pre hseparates.valid hseparates.depth, hmatched, ?_⟩, hholes, ?_⟩
    · rwa [hcut]
    · rw [hcut, hraw]
  · intro stop before ⟨⟨after, hlexed⟩, hmatched, hfilled⟩ hholes
    rw [Lexer.ofOffset, Cursor.ofOffset_append] at hlexed
    obtain ⟨g, ⟨x, htext, hvalid, hdepth, htokens⟩, hend⟩ := readAs_of_tokensFrom hlexed
    obtain rfl : rest = x.text ++ close.closeChar :: g := htext
    obtain rfl : stop = byteLength pre + byteLength x.text := by
      simp only [byteLength_append] at hend
      omega
    subst htokens
    have hnested := (x.nested_iff _ pre [] rfl hvalid hdepth).2 ⟨hmatched, hholes⟩
    obtain ⟨y, ys, rfl, hy, hys⟩ := exists_separated x hvalid hnested
    have hall : ∀ z ∈ y :: ys, z.Nested false [] := forall_mem_cons.2 ⟨hy, hys⟩
    rw [stretches_separated y ys (byteLength pre) hall] at hfilled
    exact exists_fragmentsFrom y ys pre [] rfl ⟨hvalid, hdepth, hall⟩ hfilled (by simp; omega)

/-- A call with commas and brackets in a string, a comment, a pattern and a template, and with a
comma at its end. -/
def callText : List Char := "f(\"a,)\", /* ] */ [b, /[,)]/], `c$\x7bg(d, e)\x7d` , ) + h".toList

theorem callText_delimited : (dropBytes? callText 2).isSome = true ∧ ∃ items before,
    fragments callText 2 .round = .ok (items, 46) ∧ Delimits callText 2 .round 46 before ∧ HolesMatch callText before ∧
      items.map (some ·.raw) = ((stretches 2 46 before).filter Stretch.isFilled).map (Stretch.raw callText) := by
  have hstart : (dropBytes? callText 2).isSome = true := by decide +kernel
  have hstop : (match fragments callText 2 .round with
      | .ok (_, stop) => stop
      | .error _ => 0) = 46 := by decide +kernel
  cases hread : fragments callText 2 .round with
  | error e =>
    rw [hread] at hstop
    cases hstop
  | ok result =>
    obtain ⟨items, stop⟩ := result
    rw [hread] at hstop
    obtain rfl : stop = 46 := hstop
    obtain ⟨before, hbefore⟩ := (fragments_delimited hstart .round).1 items 46 hread
    exact ⟨hstart, items, before, rfl, hbefore⟩

end StoryMarkup.Markup
