import StoryMarkup.Proofs.Markup.Writable
import StoryMarkup.Proofs.Script.Tiling

/-! Comments in expressions. Blanks in their place make no difference, except between a dot and a
sigil. -/
namespace StoryMarkup

open Text Script Phrase

namespace Markup

def remains (kind : TokenKind) (t : List Char) : List Char :=
  match kind with
  | .comment newlines => commentText newlines
  | _ => t

def blankComments : List Token → Cursor → List Char
  | [], k => k.rest
  | token :: rest, k =>
    let gap := k.upTo token.span.start
    let k := k.skip gap.length
    let t := k.upTo token.span.stop
    gap ++ (remains token.kind t ++ blankComments rest (k.skip t.length))

/-- Whether a comment parts a dot from a name with a sigil. `dotted` says whether a dot stands
before the tokens, comments aside, and `parted` whether a comment does. -/
def partsProperty (dotted parted : Bool) : List Token → Bool
  | [] => false
  | token :: rest =>
    match token.kind with
    | .comment _ => partsProperty dotted true rest
    | .ident name => (dotted && parted && (fieldOf? name).isSome) || partsProperty false false rest
    | kind => partsProperty kind.leadsProperty false rest

def tokensOf (source : List Char) : List Token := (Lexer.tokens true ⟨⟨0, source⟩, true⟩).1

end Markup

def Script.Writing.text (t : List Char) : Writing → List Char
  | .same => t
  | .root scope => scope.root.toList ++ ['.']
  | .field scope name => scope.root.toList ++ '.' :: name.toList

variable {f w w' : List Char} {parts : Bool}

namespace Script.Phrase

open Markup (commentText)

def plain : Phrase → Phrase
  | .done => .done
  | .blank c rest => .blank c rest.plain
  | .comment newlines _ rest => blanks (commentText newlines) rest.plain
  | .word kind t rest => .word kind t rest.plain
  | .template body rest => .template body rest.plain

def partsProperty (dotted parted : Bool) : Phrase → Bool
  | .done => false
  | .blank _ rest => rest.partsProperty dotted parted
  | .comment _ _ rest => rest.partsProperty dotted true
  | .word (.ident name) _ rest => (dotted && parted && (fieldOf? name).isSome) || rest.partsProperty false false
  | .word kind _ rest => rest.partsProperty kind.leadsProperty false
  | .template _ rest => rest.partsProperty false false

/-! The phrase of a text with its comments blanked. -/

lemma shift_plain {p : Bool} (g : List Char) : (x : Phrase) → x.Valid p f → Shift (x.text ++ g) (x.plain.text ++ g)
  | .done, _ => .refl g
  | .blank c rest, ⟨_, hrest⟩ => .cons c (shift_plain g rest hrest)
  | .comment newlines t rest, ⟨hcomment, _⟩ => by
    obtain ⟨c, cs, hcs, hc⟩ := commentText_eq newlines
    obtain ⟨ts, rfl⟩ := hcomment.eq_cons
    rw [plain, text_blanks, hcs]
    exact .head (by decide) (isTelling_eq_false_of_isBlank hc) (ne_of_isBlank hc (by decide))
      fun h => absurd h (by decide)
  | .word kind t rest, ⟨_, _, hrest⟩ => by
    simpa [plain, text] using (shift_plain g rest hrest).append t
  | .template body rest, ⟨_, hrest⟩ => by
    simpa [plain, text] using (shift_plain g rest hrest).append (backquote :: body.text)

lemma head?_plain : (x : Phrase) → ∀ c ∈ (x.plain.text ++ f).head?, (x.text ++ f).head? = some c ∨ isBlank c = true
  | .done, _, h => .inl h
  | .blank _ _, _, h => .inl h
  | .comment newlines t rest, c, h => by
    obtain ⟨d, ds, hcs, hd⟩ := commentText_eq newlines
    rw [plain, text_blanks, hcs] at h
    cases h
    exact .inr hd
  | .word kind [] rest, c, h => head?_plain rest c h
  | .word kind (_ :: _) rest, _, h => .inl h
  | .template _ _, _, h => .inl h

lemma valid_plain : (x : Phrase) → ∀ {p : Bool}, x.Valid p f → x.plain.Valid p f
  | .done, _, _ => trivial
  | .blank _ rest, _, ⟨hc, hrest⟩ => ⟨hc, valid_plain rest hrest⟩
  | .comment newlines _ rest, _,
    ⟨_, hrest⟩ => valid_blanks (fun _ => isBlank_of_mem_commentText newlines) (valid_plain rest hrest)
  | .template _ rest, _, ⟨hbody, hrest⟩ => ⟨hbody, valid_plain rest hrest⟩
  | .word kind t rest, p, ⟨hword, hopens, hrest⟩ => by
    have hshift := shift_plain f rest hrest
    refine ⟨hword.of_shift hshift (fun c hc => ?_) fun _ => rfl, opensComment_of_shift hword.ne_nil
      hshift hopens, valid_plain rest hrest⟩
    exact (head?_plain rest c hc).imp id absorbs_of_isBlank

lemma depth_plain : (x : Phrase) → x.plain.depth = x.depth
  | .done => rfl
  | .blank _ rest | .word _ _ rest => depth_plain rest
  | .comment _ _ rest => depth_blanks.trans (depth_plain rest)
  | .template body rest => congrArg (max body.depth) (depth_plain rest)

lemma nested_plain {free : Bool} : (x : Phrase) → ∀ opened, x.plain.Nested free opened ↔ x.Nested free opened
  | .done, _ => Iff.rfl
  | .blank _ rest, opened => nested_plain rest opened
  | .comment _ _ rest, opened => nested_blanks.trans (nested_plain rest opened)
  | .template _ rest, opened => and_congr_right fun _ => nested_plain rest opened
  | .word _ _ rest, opened => nested_word_congr (nested_plain rest) opened

/-! The tokens of a phrase. -/

section

variable {p q : Bool} {pos : Nat} {kind : TokenKind} {gap t cs cs' : List Char} {ts : List Token}

lemma blankComments_cons (kind : TokenKind) (pos : Nat) (gap t cs : List Char) (ts : List Token) :
    Markup.blankComments (⟨kind, ⟨pos + byteLength gap, pos + byteLength gap + byteLength t⟩⟩ :: ts)
      ⟨pos, gap ++ (t ++ cs)⟩ =
      gap ++ (Markup.remains kind t ++ Markup.blankComments ts ⟨pos + byteLength gap + byteLength t, cs⟩) := by
  simp only [Markup.blankComments, Cursor.upTo_append, Cursor.skip_append]

lemma Leads.yields {x rest : Phrase} {kind : Nat → TokenKind} (hgap : ∀ c ∈ gap, isBlank c = true)
    (hx : x.Leads p [] t kind q rest)
    (hrest : Lexer.Yields true ⟨⟨pos + byteLength gap + byteLength t, rest.text⟩, q⟩ ts none)
    (hblank : Markup.blankComments ts ⟨pos + byteLength gap + byteLength t, rest.text⟩ = cs') :
    ∃ span, Lexer.Yields true ⟨⟨pos, gap ++ x.text⟩, p⟩ (⟨kind (pos + byteLength gap), span⟩ :: ts)
      none ∧ Markup.blankComments (⟨kind (pos + byteLength gap), span⟩ :: ts) ⟨pos, gap ++ x.text⟩ =
        gap ++ (Markup.remains (kind (pos + byteLength gap)) t ++ cs') := by
  have hscan := hx.scan (pos + byteLength gap)
  rw [List.append_nil] at hscan
  rw [hx.text_eq]
  exact ⟨_, .token ((Markup.scan_gap hgap).trans hscan) (hx.not_eof _) hrest,
    hblank ▸ blankComments_cons _ pos gap t rest.text ts⟩

end

lemma yields {p : Bool} (x : Phrase) (hx : x.Valid p []) (hdepth : x.depth ≤ maxNesting) (pos : Nat) (gap : List Char)
    (hgap : ∀ c ∈ gap, isBlank c = true) : ∃ ts, Lexer.Yields true ⟨⟨pos, gap ++ x.text⟩, p⟩ ts none
      ∧ Markup.blankComments ts ⟨pos, gap ++ x.text⟩ = gap ++ x.plain.text ∧
      ∀ dotted parted, Markup.partsProperty dotted parted ts = x.partsProperty dotted parted := by
  match x, hx with
  | .done, _ =>
    refine ⟨_, .eof ((Markup.scan_gap hgap).trans scan_nil) rfl, ?_, fun _ _ => rfl⟩
    exact blankComments_cons .eof pos gap [] [] []
  | .blank c rest, ⟨hc, hrest⟩ =>
    simpa [plain, text, partsProperty] using yields rest hrest hdepth pos (gap ++ [c]) (Markup.isBlank_snoc hgap hc)
  | .comment newlines t rest, ⟨hcomment, hrest⟩ =>
    obtain ⟨ts, hyields, hblank, hparts⟩ := yields rest hrest hdepth (pos + byteLength gap + byteLength t) [] (by simp)
    obtain ⟨span, hyields, hblank⟩ := Leads.yields hgap (.comment hcomment) hyields hblank
    exact ⟨_, hyields, by simpa [plain, text, Markup.remains] using hblank, fun dotted _ => hparts dotted true⟩
  | .word kind t rest, ⟨hword, hopens, hrest⟩ =>
    have hplain := hword.isPlain
    obtain ⟨ts, hyields, hblank, hparts⟩ := yields rest hrest hdepth (pos + byteLength gap + byteLength t) [] (by simp)
    obtain ⟨span, hyields, hblank⟩ := Leads.yields hgap (.word hword hopens) hyields hblank
    refine ⟨_, hyields, ?_, fun dotted parted => ?_⟩
    · cases kind <;> first | exact hblank | cases hplain
    · cases kind <;> simp [Markup.partsProperty, partsProperty, hparts] <;> cases hplain
  | .template body rest, ⟨hbody, hrest⟩ =>
    have hmax : body.depth ≤ maxNesting ∧ rest.depth ≤ maxNesting := Nat.max_le.1 hdepth
    obtain ⟨ts, hyields, hblank, hparts⟩ := yields rest hrest hmax.2 _ [] (by simp)
    obtain ⟨span, hyields, hblank⟩ := Leads.yields hgap (.template hbody hmax.1) hyields hblank
    exact ⟨_, hyields, by simpa [plain, text, Markup.remains] using hblank, fun _ _ => hparts false false⟩

/-! What is written for the two phrases. -/

lemma startsName_plain (x : Phrase) : x.plain.startsName = x.startsName := by
  cases x with
  | comment newlines t rest =>
    obtain ⟨c, cs, hcs, -⟩ := commentText_eq newlines
    rw [plain, hcs]
    rfl
  | word kind => cases kind <;> rfl
  | _ => rfl

lemma text_written_blanks {cs : List Char} (hcs : cs ≠ []) (x : Phrase) (last : Option TokenKind) (glued : Bool) :
    ((blanks cs x).written last glued).text = cs ++ (x.written last false).text := by
  induction cs generalizing glued with
  | nil => exact absurd rfl hcs
  | cons c cs ih =>
    cases cs with
    | nil => rfl
    | cons => exact congrArg (c :: ·) (ih (by simp) false)

def weight (cs : List Char) : Nat := cs.countP fun c => !isBlank c

@[simp] lemma weight_append (s t : List Char) : weight (s ++ t) = weight s + weight t := List.countP_append ..

lemma weight_lt_of_fieldOf? {name field : String} {scope : Scope} (h : fieldOf? name = some (scope, field)) :
    weight name.toList < weight (scope.root.toList ++ '.' :: field.toList) := by
  have hroot : weight [scope.sigil] < weight (scope.root.toList ++ ['.']) := by cases scope <;> decide
  have hname := weight_append [scope.sigil] field.toList
  have hfield := weight_append (scope.root.toList ++ ['.']) field.toList
  rw [List.append_assoc] at hfield
  rw [(fieldOf?_eq_some h).1]
  exact hname ▸ hfield ▸ Nat.add_lt_add_right hroot _

lemma keepsName_false (last : Option TokenKind) : keepsName last false = last.any TokenKind.leadsProperty := by
  cases last with
  | none => rfl
  | some kind => cases kind <;> rfl

/-- How the texts compare that are written for a phrase with its comments and without: they are the
same, or the first one is longer, blanks aside. -/
structure Compares (parts : Bool) (w w' : List Char) : Prop where
  same : parts = false → w' = w
  less : parts = true → weight w' < weight w

lemma Compares.weight_le (h : Compares parts w w') : weight w' ≤ weight w := by
  cases parts with
  | false => exact Nat.le_of_eq (congrArg weight (h.same rfl))
  | true => exact Nat.le_of_lt (h.less rfl)

lemma Compares.append (h : Compares parts w w') (s : List Char) :
    Compares parts (s ++ w) (s ++ w') where
  same hparts := by rw [h.same hparts]
  less hparts := by simpa using h.less hparts

/-- The token before a place, and whether the place is right behind it, in a phrase with its
comments and without: nothing but a comment makes a difference. -/
inductive Apart : Bool → Option TokenKind → Bool → Option TokenKind → Bool → Prop
  | same (last : Option TokenKind) (glued : Bool) : Apart false last glued last glued
  | comment (newlines : Nat) (last : Option TokenKind) (glued : Bool) :
      Apart true (some (.comment newlines)) glued last false

lemma Apart.blank {parted glued glued' : Bool} {last last' : Option TokenKind}
    (h : Apart parted last glued last' glued') : Apart parted last false last' false := by
  cases h with
  | same => exact .same last false
  | comment newlines => exact .comment newlines last' false

lemma text_phrase (kind : TokenKind) (t : List Char) (rest : Phrase) (w : Writing) :
    (w.phrase kind t rest).text = w.text t ++ rest.text := by
  cases w <;> simp [Writing.phrase, Writing.text, text]

lemma compares_plain : (x : Phrase) → ∀ {p : Bool} {f : List Char}, x.Valid p f → ∀ {parted glued glued' : Bool}
    {last last' : Option TokenKind}, Apart parted last glued last' glued' →
    Compares (x.partsProperty (last'.any TokenKind.leadsProperty) parted)
      (x.written last glued).text (x.plain.written last' glued').text
  | .done, _, _, _, _, _, _, _, _, _ => ⟨fun _ => rfl, nofun⟩
  | .blank c rest, _, _, ⟨_, hrest⟩, _, _, _, _, _, h => by
    exact (compares_plain rest hrest h.blank).append [c]
  | .comment newlines t rest, _, _, ⟨_, hrest⟩, _, _, _, _, last', _ => by
    obtain ⟨c, cs, hcs, -⟩ := commentText_eq newlines
    rw [plain, text_written_blanks (by simp [hcs]), written, text_blanks]
    exact (compares_plain rest hrest (.comment newlines last' true)).append _
  | .template body rest, _, _, ⟨_, hrest⟩, _, _, _, _, _, _ => by
    have hbehind := (compares_plain rest hrest (.same none true)).append (backquote :: body.written.text)
    simpa [plain, written, text, partsProperty] using hbehind
  | .word kind t rest, _, _, ⟨hword, _, hrest⟩, parted, glued, glued', last, last', h => by
    have hbehind := compares_plain rest hrest (.same (some kind) true)
    rw [plain, written, written, text_phrase, text_phrase, startsName_plain]
    have hsame {parts : Bool} {kept kept' : Bool} (hparts : parts = rest.partsProperty kind.leadsProperty false)
        (hkept : writing kept' rest.startsName kind = writing kept rest.startsName kind) :
        Compares parts ((writing kept rest.startsName kind).text t ++ (rest.written (some kind) true).text)
          ((writing kept' rest.startsName kind).text t ++ (rest.plain.written (some kind) true).text) := by
      rw [hkept, hparts]
      exact hbehind.append _
    cases h with
    | same => exact hsame (by cases kind <;> simp [partsProperty] <;> rfl) rfl
    | comment newlines =>
      cases kind with
      | ident name =>
        rw [keepsName_false]
        cases hdotted : last'.any TokenKind.leadsProperty with
        | false => exact hsame (by simp [partsProperty]; rfl) rfl
        | true =>
          cases hfield : fieldOf? name with
          | none => exact hsame (by simp [partsProperty, hfield]; rfl) (by simp [writing, hfield])
          | some found =>
            obtain ⟨scope, field⟩ := found
            have hleft : writing (keepsName (some (.comment newlines)) glued) rest.startsName
              (.ident name) = .field scope field := by
              simp [writing, keepsName, TokenKind.leadsProperty, TokenKind.isOp, hfield]
            have hlonger := weight_lt_of_fieldOf? hfield
            rw [hleft, hword.ident_text]
            refine ⟨fun hparts => by simp [partsProperty, hfield] at hparts, fun _ => ?_⟩
            simp only [writing, if_true, Writing.text, weight_append] at hlonger ⊢
            exact Nat.add_lt_add_of_lt_of_le hlonger hbehind.weight_le
      | _ => exact hsame (by simp [partsProperty]) rfl

lemma weight_dropWhile (cs : List Char) : weight (cs.dropWhile isBlank) = weight cs := by
  induction cs with
  | nil => rfl
  | cons c cs ih => cases hc : isBlank c <;> simp [hc, weight] at ih ⊢ <;> exact ih

lemma weight_trimChars (cs : List Char) : weight (trimChars cs) = weight cs := by
  have hreverse (s : List Char) : weight s.reverse = weight s := List.countP_reverse
  rw [trimChars, dropBlankEnd, hreverse, weight_dropWhile, hreverse, weight_dropWhile]

end Script.Phrase

namespace Markup

def withoutComments (source : List Char) : List Char := blankComments (tokensOf source) ⟨0, source⟩

/-- Where sigils can be written out, they still can when the comments are blanked, and to the same
effect exactly if no comment parts a dot from a name with a sigil. -/
theorem writeExpression_withoutComments {source : List Char} {code : String} (h : writeExpression source = .ok code) :
    ∃ code', writeExpression (withoutComments source) = .ok code' ∧
      (code' = code ↔ partsProperty false false (tokensOf source) = false) := by
  obtain ⟨x, rfl, hx, hdepth, hnested, rfl⟩ := exists_phrase_of_writeExpression h
  obtain ⟨ts, hyields, hblank, hparts⟩ := x.yields hx hdepth 0 [] (by simp)
  have htokens : tokensOf x.text = ts := congrArg (·.1) (hyields.tokensFrom_eq (Nat.lt_succ_self _))
  have hcompares := x.compares_plain hx (.same none true)
  have htext : withoutComments x.text = x.plain.text := by rw [withoutComments, htokens]; exact hblank
  have hplain := writeExpression_text (x.valid_plain hx) (by rwa [x.depth_plain]) ((x.nested_plain _).2 hnested)
  refine ⟨_, htext ▸ hplain, ?_⟩
  rw [htokens, hparts]
  cases hsame : x.partsProperty false false with
  | false => simp [hcompares.same hsame]
  | true =>
    have hless := hcompares.less hsame
    rw [← weight_trimChars, ← weight_trimChars (x.written none true).text] at hless
    refine ⟨fun heq => ?_, nofun⟩
    rw [String.ofList_inj.1 heq] at hless
    exact absurd hless (Nat.lt_irrefl _)

theorem dotted_name_behind_comment_written :
    ∃ code, writeExpression (withoutComments "$a/*of*/./* its */b // end".toList) = .ok code ∧
      code = "story.a . b" := by
  have hwrite : writeExpression "$a/*of*/./* its */b // end".toList = .ok "story.a . b" := rfl
  obtain ⟨code, hcode, hsame⟩ := writeExpression_withoutComments hwrite
  exact ⟨code, hcode, hsame.2 (by decide +kernel)⟩

/-- A comment between a dot and a name with a sigil makes a difference. -/
theorem property_behind_comment_written_as_field :
    writeExpression "$a./*c*/$b".toList = .ok "story.a. story.b" ∧
      withoutComments "$a./*c*/$b".toList = "$a. $b".toList ∧
      writeExpression "$a. $b".toList = .ok "story.a. $b" := by
  refine ⟨rfl, by decide +kernel, rfl⟩

end Markup
end StoryMarkup
