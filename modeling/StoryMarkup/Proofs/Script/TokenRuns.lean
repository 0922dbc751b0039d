import StoryMarkup.Proofs.Script.Productions

/-! Parsing seen from the tokens: which a parser takes and leaves, and what it makes of them. -/
namespace StoryMarkup.Script

open List Text

inductive Lexer.Spells : Lexer → List TokenKind → Prop
  | nil {lx after : Lexer} {span : Span} (h : lx.next = .ok (⟨.eof, span⟩, after)) : Spells lx []
  | cons {lx after : Lexer} {span : Span} {kind : TokenKind} {kinds : List TokenKind}
    (h : lx.next = .ok (⟨kind, span⟩, after)) (hshorter : after.cursor.rest.length < lx.cursor.rest.length)
    (hrest : Spells after kinds) : Spells lx (kind :: kinds)

namespace Lexer.Spells

variable {lx : Lexer} {kind : TokenKind} {kinds : List TokenKind}

lemma next_eq (h : lx.Spells kinds) : ∃ span after, lx.next = .ok (⟨kinds.headD .eof, span⟩, after) := by
  cases h with
  | nil hnext | cons hnext => exact ⟨_, _, hnext⟩

lemma uncons (h : lx.Spells (kind :: kinds)) :
    ∃ span after, lx.next = .ok (⟨kind, span⟩, after) ∧ after.Spells kinds := by
  cases h with
  | cons hnext hshorter hrest => exact ⟨_, _, hnext, hrest⟩

lemma length_le (h : lx.Spells kinds) : kinds.length ≤ lx.cursor.rest.length := by
  induction h with
  | nil => exact Nat.zero_le _
  | cons _ hshorter _ ih =>
    rw [length_cons]
    omega

end Lexer.Spells

structure Feed.Spells (kinds : List TokenKind) (feed : Feed) : Prop where
  lexer : feed.lexer.Spells kinds
  ahead : ∀ r, feed.ahead = some r → feed.lexer.next = .ok r

namespace Feed.Spells

variable {feed : Feed} {kind : TokenKind} {kinds : List TokenKind} {token : Token} {after : Lexer}

lemma ahead_eq (h : feed.Spells kinds) (hnext : feed.lexer.next = .ok (token, after)) :
    feed.ahead = none ∨ feed.ahead = some (token, after) := by
  cases hahead : feed.ahead with
  | none => exact .inl rfl
  | some r =>
    have hr := h.ahead r hahead
    rw [hnext] at hr
    cases hr
    exact .inr rfl

lemma next_eq (h : feed.Spells (kind :: kinds)) :
    ∃ span feed', Parser.next feed = .ok (⟨kind, span⟩, feed') ∧ feed'.Spells kinds := by
  obtain ⟨span, after, hnext, hafter⟩ := h.lexer.uncons
  refine ⟨span, ⟨after, none⟩, ?_, ⟨hafter, nofun⟩⟩
  obtain hahead | hahead := h.ahead_eq hnext <;> simp only [Parser.next, hahead, hnext]

lemma peek_eq (h : feed.Spells kinds) :
    ∃ span feed', Parser.peek feed = .ok (⟨kinds.headD .eof, span⟩, feed') ∧ feed'.Spells kinds := by
  obtain ⟨span, after, hnext⟩ := h.lexer.next_eq
  obtain hahead | hahead := h.ahead_eq hnext
  · let token : Token := ⟨kinds.headD .eof, span⟩
    have hpeek : Parser.peek feed = .ok (token, ⟨feed.lexer, some (token, after)⟩) := by
      simp only [Parser.peek, hahead, hnext]
      rfl
    exact ⟨span, _, hpeek, ⟨h.lexer, fun r hr => by cases hr; exact hnext⟩⟩
  · exact ⟨span, feed, by simp [Parser.peek, hahead], h⟩

end Feed.Spells

/-- Where tokens of the kinds `taken` and then of the kinds `rest` come, the parser takes the first
ones and comes to a result with the property. It may fail only in the given case. -/
def Parser.Takes {α : Type} (may : Prop) (taken rest : List TokenKind) (p : Parser α) (P : α → Prop) : Prop :=
  ∀ feed : Feed, feed.Spells (taken ++ rest) →
    (∃ a feed', p feed = .ok (a, feed') ∧ P a ∧ feed'.Spells rest) ∨ may ∧ ∃ e, p feed = .error e

variable {src cs text : List Char} {kind : TokenKind} {kinds : List TokenKind}

namespace Parser.Takes

variable {α β : Type} {may : Prop} {taken more rest : List TokenKind} {kind : TokenKind} {P : α → Prop} {Q : β → Prop}
variable {p : Parser α} {q : Token → Parser β}

lemma pure {a : α} (h : P a) : Takes may [] rest (pure a) P :=
  fun feed hfeed => .inl ⟨a, feed, rfl, h, hfeed⟩

lemma of_error (hmay : may) (hp : ∀ feed, ∃ e, p feed = .error e) : Takes may taken rest p P :=
  fun feed _ => .inr ⟨hmay, hp feed⟩

lemma mono {may' : Prop} {P' : α → Prop} (h : Takes may taken rest p P) (hmay : may → may')
    (hP : ∀ a, P a → P' a) : Takes may' taken rest p P' := by
  intro feed hfeed
  obtain ⟨a, feed', hp, ha, hrest⟩ | ⟨hfail, he⟩ := h feed hfeed
  · exact .inl ⟨a, feed', hp, hP a ha, hrest⟩
  · exact .inr ⟨hmay hfail, he⟩

lemma bind {q : α → Parser β} (hp : Takes may taken (more ++ rest) p P)
    (hq : ∀ a, P a → Takes may more rest (q a) Q) : Takes may (taken ++ more) rest (p >>= q) Q := by
  intro feed hfeed
  rw [append_assoc] at hfeed
  have hbind : (p >>= q) feed = p feed >>= fun r => q r.1 r.2 := rfl
  obtain ⟨a, feed', ha, hP, hrest⟩ | ⟨hmay, e, he⟩ := hp feed hfeed
  · rw [hbind, ha]
    exact hq a hP feed' hrest
  · rw [hbind, he]
    exact .inr ⟨hmay, e, rfl⟩

lemma bind_ok (more : List TokenKind) {q : α → Parser β}
    (h : ∀ feed, feed.Spells (taken ++ rest) → ∃ a feed', p feed = .ok (a, feed') ∧
    feed'.Spells (more ++ rest) ∧ Takes may more rest (q a) Q) : Takes may taken rest (p >>= q) Q := by
  intro feed hfeed
  obtain ⟨a, feed', ha, hrest, hq⟩ := h feed hfeed
  have hbind : (p >>= q) feed = p feed >>= fun r => q r.1 r.2 := rfl
  rw [hbind, ha]
  exact hq feed' hrest

lemma bind_pure {q : α → Parser β} (hp : Takes may taken rest p P)
    (hq : ∀ a, P a → Takes may [] rest (q a) Q) : Takes may taken rest (p >>= q) Q := by
  have h : Takes may (taken ++ []) rest (p >>= q) Q := bind hp hq
  rwa [append_nil] at h

lemma next (hq : ∀ span, Takes may taken rest (q ⟨kind, span⟩) Q) :
    Takes may (kind :: taken) rest (Parser.next >>= q) Q := by
  refine bind_ok taken fun feed hfeed => ?_
  obtain ⟨span, feed', hnext, hrest⟩ := hfeed.next_eq
  exact ⟨_, feed', hnext, hrest, hq span⟩

lemma peek (hq : ∀ span, Takes may taken rest (q ⟨(taken ++ rest).headD .eof, span⟩) Q) :
    Takes may taken rest (Parser.peek >>= q) Q := by
  refine bind_ok taken fun feed hfeed => ?_
  obtain ⟨span, feed', hpeek, hrest⟩ := hfeed.peek_eq
  exact ⟨_, feed', hpeek, hrest, hq span⟩

lemma remaining {q : Nat → Parser β}
    (hq : ∀ n, (taken ++ rest).length < n → Takes may taken rest (q n) Q) :
    Takes may taken rest (Parser.remaining >>= q) Q := fun feed hfeed =>
  hq _ (Nat.lt_succ_of_le hfeed.lexer.length_le) feed hfeed

lemma expect {accepts : TokenKind → Bool} {wanted : String} (haccepts : accepts kind = true)
    (hq : ∀ span, Takes may taken rest (q ⟨kind, span⟩) Q) :
    Takes may (kind :: taken) rest (Script.expect src accepts wanted >>= q) Q := by
  rw [Script.expect, bind_assoc]
  refine next fun span => ?_
  simp only [haccepts, if_true, pure_bind]
  exact hq span

lemma eatComma {q : Bool → Parser β} (hq : Takes may taken rest (q true) Q) :
    Takes may (.comma :: taken) rest (Script.eatComma >>= q) Q := by
  rw [Script.eatComma, bind_assoc]
  refine peek fun span => ?_
  simp only [cons_append, headD_cons, TokenKind.isComma, if_true, bind_assoc]
  refine next fun _ => ?_
  rw [pure_bind]
  exact hq

lemma no_comma {q : Bool → Parser β} (hcomma : ((taken ++ rest).headD .eof).isComma = false)
    (hq : Takes may taken rest (q false) Q) : Takes may taken rest (Script.eatComma >>= q) Q := by
  rw [Script.eatComma, bind_assoc]
  refine peek fun span => ?_
  simp only [hcomma, Bool.false_eq_true, if_false, pure_bind]
  exact hq

end Parser.Takes

/-! Operators behind an operand. -/

structure TokenKind.Stops (least : Nat) (kind : TokenKind) : Prop where
  updates : kind.updates = false
  accesses : kind.accesses = false
  joins : ∀ power joiner, joiner? kind = some (power, joiner) → power.left < least

lemma TokenKind.only_joins {r : Power × Joiner} (h : joiner? kind = some r) :
    kind.updates = false ∧ kind.accesses = false ∧ kind.isOp "=>" = false := by
  refine ⟨Bool.eq_false_iff.2 fun hupdates => ?_, Bool.eq_false_iff.2 fun haccesses =>
    ?_, Bool.eq_false_iff.2 fun harrow => ?_⟩
  · obtain rfl | rfl := TokenKind.updates_iff.1 hupdates <;> cases h
  · obtain rfl | rfl | rfl | rfl := TokenKind.accesses_iff.1 haccesses <;> cases h
  · obtain rfl := TokenKind.isOp_iff.1 harrow
    cases h

lemma TokenKind.stops_of_joiner? (hupdates : kind.updates = false)
    (haccesses : kind.accesses = false)
    (hnone : joiner? kind = none) (least : Nat) : kind.Stops least :=
  ⟨hupdates, haccesses, fun _ _ hsome => by simp [hnone] at hsome⟩

namespace Parser.Takes

variable {may : Prop} {taken rest : List TokenKind} {kind : TokenKind} {src : List Char} {sub : Nat → Parser Expr}
  {least fuel : Nat} {left : Expr} {Q : Expr → Prop}

lemma operators_stop (hstops : (rest.headD .eof).Stops least) (hleft : Q left) :
    Takes may [] rest (operatorsAfter src sub least fuel left) Q := by
  cases fuel with
  | zero => exact pure hleft
  | succ fuel =>
    rw [operatorsAfter_succ]
    refine peek fun span => ?_
    simp only [nil_append, extended, hstops.updates, hstops.accesses, Bool.false_eq_true, if_false]
    cases hjoiner : joiner? (rest.headD .eof) with
    | none => exact pure hleft
    | some r =>
      simp only [hstops.joins r.1 r.2 hjoiner, if_true]
      exact pure hleft

lemma operators_join {power : Power} {joiner : Joiner} (hjoiner : joiner? kind =
    some (power, joiner)) (hleast : least ≤ power.left)
    (h : Takes may taken rest (joined src sub power joiner left >>= operatorsAfter src sub least fuel) Q) :
    Takes may (kind :: taken) rest (operatorsAfter src sub least (fuel + 1) left) Q := by
  obtain ⟨hupdates, haccesses, -⟩ := TokenKind.only_joins hjoiner
  rw [operatorsAfter_succ]
  refine peek fun span => ?_
  simp only [cons_append, headD_cons, extended, hupdates, haccesses, Bool.false_eq_true, if_false,
    hjoiner, Nat.not_lt.2 hleast]
  exact next fun _ => h

lemma operators_access (haccesses : kind.accesses = true) (hleast : least ≤ Power.access)
    (h : Takes may (kind :: taken) rest (accessAfter src sub left >>= operatorsAfter src sub least
    fuel) Q) : Takes may (kind :: taken) rest (operatorsAfter src sub least (fuel + 1) left) Q := by
  have hupdates : kind.updates = false := by
    obtain rfl | rfl | rfl | rfl := TokenKind.accesses_iff.1 haccesses <;> rfl
  rw [operatorsAfter_succ]
  refine peek fun span => ?_
  simp only [cons_append, headD_cons, extended, hupdates, haccesses, Bool.false_eq_true, if_false,
    if_true, Nat.not_lt.2 hleast]
  exact h

lemma operators_update (hupdates : kind.updates = true) (hleast : least ≤ Power.access)
    (hleft : left.isAssignable = true)
    (h : ∀ span, Takes may taken rest
      (operatorsAfter src sub least fuel (.mk span (.update (kind.isOp "++") false left))) Q) :
    Takes may (kind :: taken) rest (operatorsAfter src sub least (fuel + 1) left) Q := by
  rw [operatorsAfter_succ]
  refine peek fun span => ?_
  simp only [cons_append, headD_cons, extended, hupdates, if_true, Nat.not_lt.2 hleast, if_false,
    ensureAssignable, hleft]
  exact next fun _ => h _

end Parser.Takes

/-! Texts that spell given tokens. -/

namespace Lexer.Spells

variable {lx lx' : Lexer} {kind : TokenKind} {kinds : List TokenKind} {p : Bool} {pos : Nat}

lemma of_next_eq (h : lx'.Spells kinds) (hnext : lx.next = lx'.next)
    (hle : lx'.cursor.rest.length ≤ lx.cursor.rest.length) : lx.Spells kinds := by
  cases h with
  | nil h => exact .nil (hnext.trans h)
  | cons h hshorter hrest => exact .cons (hnext.trans h) (Nat.lt_of_lt_of_le hshorter hle) hrest

lemma gap {gap : List Char} (hgap : ∀ c ∈ gap, isBlank c = true)
    (h : Spells ⟨⟨pos + byteLength gap, cs⟩, p⟩ kinds) : Spells ⟨⟨pos, gap ++ cs⟩, p⟩ kinds := by
  induction gap generalizing pos with
  | nil => exact h
  | cons c gap ih =>
    rw [byteLength_cons, ← Nat.add_assoc] at h
    have hrest := ih (fun d hd => hgap d (mem_cons_of_mem c hd)) h
    exact hrest.of_next_eq (scan_blank (hgap c mem_cons_self)) (Nat.le_succ _)

lemma word {t : List Char} (hword : Word p kind t cs) (hplain : opensComment (t ++ cs) = false)
    (h : Spells ⟨⟨pos + byteLength t, cs⟩, kind.allowsPattern⟩ kinds) : Spells ⟨⟨pos, t ++ cs⟩, p⟩ (kind :: kinds) := by
  have hlength : cs.length < (t ++ cs).length := by
    have := length_pos_iff.2 hword.ne_nil
    rw [length_append]
    omega
  exact .cons (scan_word false maxNesting pos hword hplain) hlength h

end Lexer.Spells

def Phrase.kinds? : Phrase → Option (List TokenKind)
  | .done => some []
  | .blank _ rest | .comment _ _ rest => rest.kinds?
  | .word kind _ rest => rest.kinds?.map (kind :: ·)
  | .template .. => none

lemma Phrase.spells (x : Phrase) : ∀ (p : Bool) (kinds : List TokenKind) (pos : Nat), x.Valid p [] →
    x.kinds? = some kinds → Lexer.Spells ⟨⟨pos, x.text⟩, p⟩ kinds := by
  cases x with
  | done =>
    rintro p kinds pos _ ⟨⟩
    exact .nil scan_nil
  | blank c rest =>
    rintro p kinds pos ⟨hc, hrest⟩ hkinds
    exact (rest.spells p kinds (pos + c.utf8Size) hrest hkinds).of_next_eq (scan_blank hc) (Nat.le_succ _)
  | comment newlines t rest =>
    rintro p kinds pos ⟨hcomment, hrest⟩ hkinds
    rw [append_nil] at hcomment
    exact (rest.spells p kinds (pos + byteLength t) hrest hkinds).of_next_eq
      (scan_comment_skip hcomment) (by simp [Phrase.text])
  | word kind t rest =>
    rintro p kinds pos ⟨hword, hplain, hrest⟩ hkinds
    rw [append_nil] at hword hplain
    obtain ⟨more, hmore, rfl⟩ := Option.map_eq_some_iff.1 hkinds
    exact .word hword hplain (rest.spells _ more _ hrest hmore)
  | template body rest =>
    rintro p kinds pos _ ⟨⟩

lemma Feed.Spells.start (h : Lexer.Spells ⟨⟨0, src⟩, true⟩ kinds) :
    Feed.Spells kinds { lexer := Lexer.ofOffset src 0 } := by
  have hstart : Lexer.ofOffset src 0 = ⟨⟨0, src⟩, true⟩ := by
    rw [Lexer.ofOffset, show Cursor.ofOffset src 0 = ⟨0, src⟩ from Cursor.ofOffset_append [] src]
  exact ⟨hstart ▸ h, by rintro _ ⟨⟩⟩

lemma Expr.parse_of_takes {may : Prop} {P : Expr → Prop}
    (h : Parser.Takes may kinds [] (expression src maxNesting 0) P)
    (hspells : Lexer.Spells ⟨⟨0, src⟩, true⟩ kinds) :
    (∃ e, Expr.parse src = .ok e ∧ P e) ∨ may ∧ ∃ e, Expr.parse src = .error e := by
  have hstart := Feed.Spells.start hspells
  obtain ⟨e, feed, he, hP, hrest⟩ | ⟨hmay, e, he⟩ := h _ (by rwa [append_nil])
  · refine .inl ⟨e, ?_, hP⟩
    obtain ⟨span, after, hnext⟩ := hrest.lexer.next_eq
    have hend : Parser.next feed = .ok (⟨.eof, span⟩, ⟨after, none⟩) := by
      obtain hahead | hahead := hrest.ahead_eq hnext <;> simp only [Parser.next, hahead, hnext] <;> rfl
    simp only [Expr.parse, StateT.run, he, hend, Bind.bind, Except.bind]
    rfl
  · refine .inr ⟨hmay, e, ?_⟩
    simp [Expr.parse, StateT.run, he, Bind.bind, Except.bind]

/-- The text is the given words in order, with blanks between them. -/
inductive Spaced : List (List Char) → List Char → Prop
  | nil {gap : List Char} (hgap : ∀ c ∈ gap, isBlank c = true) : Spaced [] gap
  | cons {gap word text : List Char} {words : List (List Char)} (hgap : ∀ c ∈ gap, isBlank c = true)
    (hapart : ∀ c ∈ text.head?, isBlank c = true) (h : Spaced words text) :
      Spaced (word :: words) (gap ++ (word ++ text))

def spaced : List (List Char) → List Char
  | [] => []
  | [word] => word
  | word :: words => word ++ ' ' :: spaced words

lemma Spaced.blank {words : List (List Char)} (h : Spaced words text) : Spaced words (' ' :: text) := by
  have hblanks : ∀ {gap : List Char}, (∀ c ∈ gap, isBlank c = true) → ∀ c ∈ ' ' :: gap, isBlank c = true := by
    intro gap hgap c hc
    obtain rfl | hc := mem_cons.1 hc
    · decide
    · exact hgap c hc
  cases h with
  | nil hgap => exact .nil (hblanks hgap)
  | cons hgap hapart hrest => exact .cons (hblanks hgap) hapart hrest

lemma spaced_spaced : (words : List (List Char)) → Spaced words (spaced words)
  | [] => .nil nofun
  | [word] => by
    have h : Spaced [word] ([] ++ (word ++ [])) := .cons nofun nofun (.nil nofun)
    rwa [nil_append, append_nil] at h
  | word :: next :: words => by
    have hapart : ∀ c ∈ (' ' :: spaced (next :: words)).head?, isBlank c = true := by
      rintro c ⟨⟩
      decide
    show Spaced (word :: next :: words) ([] ++ (word ++ ' ' :: spaced (next :: words)))
    exact .cons nofun hapart (spaced_spaced (next :: words)).blank

structure Lexeme (patternAllowed : Bool) (kind : TokenKind) (text : List Char) : Prop where
  word : Word patternAllowed kind text [' ']
  plain : opensComment (text ++ [' ']) = false

structure WrittenToken where
  kind : TokenKind
  text : List Char

/-- Tokens that can be written one after the other: each is read as itself behind the one before it.
Whether a slash would start a pattern is known before the first and behind the last of them. -/
inductive Lexemes : Bool → List WrittenToken → Bool → Prop
  | nil {p : Bool} : Lexemes p [] p
  | cons {p q : Bool} {x : WrittenToken} {rest : List WrittenToken} (h : Lexeme p x.kind x.text)
    (hrest : Lexemes x.kind.allowsPattern rest q) : Lexemes p (x :: rest) q

lemma Lexemes.append {p q r : Bool} {xs ys : List WrittenToken} (hxs : Lexemes p xs q)
    (hys : Lexemes q ys r) : Lexemes p (xs ++ ys) r := by
  induction hxs with
  | nil => exact hys
  | cons h _ ih => exact .cons h (ih hys)

lemma shift_of_blank {f : List Char} (hf : ∀ c ∈ f.head?, isBlank c = true) : Shift [' '] f := by
  cases f with
  | nil => exact .gone (by decide)
  | cons c f =>
    have hc := hf c rfl
    exact .head (by decide) (isTelling_eq_false_of_isBlank hc) (ne_of_isBlank hc (by decide))
      fun h => absurd h (by decide)

namespace Lexeme

variable {p : Bool} {kind : TokenKind} {t f : List Char}

lemma word_before (h : Lexeme p kind t) (hf : ∀ c ∈ f.head?, isBlank c = true) : Word p kind t f :=
  h.word.of_shift (shift_of_blank hf) (fun c hc => .inr (absorbs_of_isBlank (hf c hc))) fun _ => rfl

lemma plain_before (h : Lexeme p kind t) (hf : ∀ c ∈ f.head?, isBlank c = true) : opensComment (t ++ f) = false :=
  opensComment_of_shift h.word.ne_nil (shift_of_blank hf) h.plain

end Lexeme

lemma Lexemes.spells {p q : Bool} {tokens : List WrittenToken} (h : Lexemes p tokens q)
    (htext : Spaced (tokens.map (·.text)) text) (pos : Nat) : Lexer.Spells ⟨⟨pos, text⟩, p⟩ (tokens.map (·.kind)) := by
  induction h generalizing text pos with
  | nil =>
    cases htext with
    | nil hgap =>
      rw [← append_nil text]
      exact .gap hgap (.nil scan_nil)
  | cons hlexeme _ ih =>
    cases htext with
    | cons hgap hapart hspaced =>
      exact .gap hgap (.word (hlexeme.word_before hapart) (hlexeme.plain_before hapart) (ih hspaced _))

end StoryMarkup.Script
