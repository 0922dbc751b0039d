import StoryMarkup.Markup.Sigil
import StoryMarkup.Proofs.Script.Readings

/-! Sigils in the reading of an expression: which names are written as fields of a scope. -/
namespace StoryMarkup.Script

open List Text

def TokenKind.leadsProperty : TokenKind → Bool
  | .dot => true
  | kind => kind.isOp "?."

namespace Entry

def kind? (e : Entry) : Option TokenKind :=
  match e.mark with
  | .token kind => some kind
  | _ => none

def isGluedName (e : Entry) : Bool :=
  match e.mark with
  | .token (.ident _) => e.glued
  | _ => false

def absorbs (e : Entry) (c : Char) : Bool :=
  match e.mark with
  | .token kind => Script.absorbs kind e.text c
  | _ => false

end Entry

/-! What becomes of the reading. -/

def fieldOf? (name : String) : Option (Scope × String) :=
  match name.toList with
  | s :: c :: rest =>
    if isAsciiDigit c then none
    else if s == '$' then some (.story, String.ofList (c :: rest))
    else if s == '_' then some (.temp, String.ofList (c :: rest))
    else none
  | _ => none

def keepsName (last : Option TokenKind) (glued : Bool) : Bool :=
  match last with
  | some .atSign => glued
  | some kind => kind.leadsProperty
  | none => false

inductive Writing where
  | same
  | root (scope : Scope)
  | field (scope : Scope) (name : String)

/-- What is written for a token; `kept` says whether it is left as it is when it is a name, and
`named` whether a name stands right behind it. -/
def writing (kept named : Bool) : TokenKind → Writing
  | .atSign => if named then .root .constants else .same
  | .ident name =>
    if kept then .same
    else match fieldOf? name with
      | some (scope, field) => .field scope field
      | none => .same
  | _ => .same

def Writing.marks (kind : TokenKind) : Writing → List Mark
  | .same => [.token kind]
  | .root scope => [.token (.ident scope.root), .token .dot]
  | .field scope name => [.token (.ident scope.root), .token .dot, .token (.ident name)]

def rewritten : Option TokenKind → List Entry → List Mark
  | _, [] => []
  | last, e :: es =>
    match e.mark with
    | .token kind =>
      (writing (keepsName last e.glued) (es.head?.any Entry.isGluedName) kind).marks kind ++ rewritten (some kind) es
    | mark => mark :: rewritten none es

/-! Where the text that is written is read as what it was written for. -/

structure Juncture where
  /-- What stands before the place. -/
  last : Option Entry
  /-- Whether the token before it, comments aside, makes a name a property. -/
  dotted : Bool
  /-- Whether the token before it, comments aside, is a name with a sigil that is written as a field
  whose name has a value follow it. -/
  leading : Bool

namespace Juncture

def start : Juncture := ⟨none, false, false⟩

def lastKind? (here : Juncture) : Option TokenKind := here.last.bind Entry.kind?

/-- Whether the name of a scope can be written in the place of an entry without being read as more
of what stands before it. -/
def hasRoom (here : Juncture) (e : Entry) (scope : Scope) : Bool :=
  !(e.glued && here.last.any fun before => scope.root.toList.head?.any before.absorbs)

def admits (here : Juncture) (e : Entry) : Writing → Bool
  | .same => !(here.leading && e.text.head? == some '/')
  | .root scope => here.hasRoom e scope
  | .field scope name => !here.dotted && name.toList.head?.any isIdentStart && here.hasRoom e scope

def past (e : Entry) (kind : TokenKind) (w : Writing) : Juncture :=
  let leading := match w with
    | .field _ name => leadingWords.contains name
    | _ => false
  ⟨some e, kind.leadsProperty, leading⟩

end Juncture

/-- Whether every token from a place on is written so that it is read as what it stands for. -/
def clear : Juncture → List Entry → Bool
  | _, [] => true
  | here, e :: es =>
    match e.mark with
    | .token (.comment _) => clear { here with last := some e } es
    | .token kind =>
      let w := writing (keepsName here.lastKind? e.glued) (es.head?.any Entry.isGluedName) kind
      here.admits e w && clear (.past e kind w) es
    | _ => clear ⟨some e, false, false⟩ es

/-! Phrases with their sigils written out. -/

namespace Phrase

def blanks : List Char → Phrase → Phrase
  | [], rest => rest
  | c :: cs, rest => .blank c (blanks cs rest)

def startsName : Phrase → Bool
  | .word (.ident _) _ _ => true
  | _ => false

def inScope (scope : Scope) (rest : Phrase) : Phrase :=
  .word (.ident scope.root) scope.root.toList (.word .dot ['.'] rest)

end Phrase

def Writing.phrase (kind : TokenKind) (t : List Char) (rest : Phrase) : Writing → Phrase
  | .same => .word kind t rest
  | .root scope => .inScope scope rest
  | .field scope name => .inScope scope (.word (.ident name) name.toList rest)

mutual

/-- A phrase with its sigils written out and its comments dropped; `last` is the token before it,
and `glued` says whether the phrase stands right behind it. -/
def Phrase.written : Option TokenKind → Bool → Phrase → Phrase
  | _, _, .done => .done
  | last, _, .blank c rest => .blank c (rest.written last false)
  | _, _, .comment newlines _ rest =>
    .blanks (Markup.commentText newlines) (rest.written (some (.comment newlines)) true)
  | last, glued, .word kind t rest =>
    (writing (keepsName last glued) rest.startsName kind).phrase kind t (rest.written (some kind) true)
  | _, _, .template body rest => .template body.written (rest.written none true)

def Quote.written : Quote → Quote
  | .done => .done
  | .piece value raw rest => .piece value raw rest.written
  | .hole inner rest => .hole (inner.written none true) rest.written

end

/-! Small facts about names, scopes and what is written for them. -/

variable {p free kept named glued : Bool} {name : String} {t f cs g : List Char} {scope : Scope} {rest x y : Phrase}
  {kind : TokenKind} {tail es : List Entry} {e : Entry} {last : Option TokenKind} (newlines : Nat)

lemma Word.ident_parts (h : Word p (.ident name) t f) : ∃ c cs, t = c :: cs ∧ name = String.ofList (c :: cs) ∧
    isIdentStart c = true ∧ (∀ d ∈ cs, isIdentPart d = true) ∧ ∀ d ∈ f.head?, isIdentPart d = false := by
  cases h with
  | single hmem => simp [punctuation] at hmem
  | string _ _ hkind =>
    obtain ⟨s, hs⟩ := hkind
    cases hs
  | ident hstart hcs hend => exact ⟨_, _, rfl, rfl, hstart, hcs, hend⟩

lemma Word.ident_text (h : Word p (.ident name) t f) : t = name.toList := by
  obtain ⟨c, cs, rfl, rfl, -⟩ := h.ident_parts
  simp

lemma Word.atSign_text (h : Word p .atSign t f) : t = ['@'] := h.eq_single (by simp [punctuation])

lemma fieldOf?_eq_some {field : String} (h : fieldOf? name = some (scope, field)) :
    name.toList = scope.sigil :: field.toList ∧ ∃ c cs, field.toList = c :: cs ∧ isAsciiDigit c = false := by
  unfold fieldOf? at h
  split at h
  · rename_i s c rest hname
    cases hdigit : isAsciiDigit c with
    | true => simp [hdigit] at h
    | false =>
      simp only [hdigit, Bool.false_eq_true, if_false] at h
      split at h
      · rename_i hs
        cases h
        exact ⟨by simp [hname, Scope.sigil, beq_iff_eq.1 hs], c, rest, by simp, hdigit⟩
      · split at h
        · rename_i hs
          cases h
          exact ⟨by simp [hname, Scope.sigil, beq_iff_eq.1 hs], c, rest, by simp, hdigit⟩
        · cases h
  · cases h

lemma Scope.root_eq (scope : Scope) : ∃ c cs, scope.root.toList = c :: cs ∧ isIdentStart c = true ∧
    (∀ d ∈ cs, isIdentPart d = true) ∧ isTelling c = false ∧ c ≠ '/' ∧ isBlank c = false := by
  cases scope with
  | constants => exact ⟨'c', "onstants".toList, by decide, by decide, all_eq_true.1 (by decide), by decide⟩
  | story => exact ⟨'s', "tory".toList, by decide, by decide, all_eq_true.1 (by decide), by decide⟩
  | temp => exact ⟨'t', "emp".toList, by decide, by decide, all_eq_true.1 (by decide), by decide⟩

lemma Scope.isTelling_sigil (scope : Scope) : isTelling scope.sigil = false := by
  cases scope <;> decide

lemma isBlank_of_mem_commentText {c : Char} (h : c ∈ Markup.commentText newlines) : isBlank c = true := by
  unfold Markup.commentText at h
  split at h
  · rw [eq_of_mem_replicate h]
    decide
  · rw [mem_singleton.1 h]
    decide

lemma commentText_eq : ∃ c cs, Markup.commentText newlines = c :: cs ∧ isBlank c = true := by
  obtain ⟨c, cs, hcs⟩ : ∃ c cs, Markup.commentText newlines = c :: cs := by
    unfold Markup.commentText
    cases newlines with
    | zero => exact ⟨' ', [], rfl⟩
    | succ n => exact ⟨'\n', replicate n '\n', rfl⟩
  exact ⟨c, cs, hcs, isBlank_of_mem_commentText newlines (by simp [hcs])⟩

namespace Phrase

@[simp]
lemma text_blanks (cs : List Char) (rest : Phrase) : (blanks cs rest).text = cs ++ rest.text := by
  induction cs with
  | nil => rfl
  | cons c cs ih => exact congrArg (c :: ·) ih

lemma valid_blanks (hcs : ∀ c ∈ cs, isBlank c = true) (hrest : rest.Valid p f) : (blanks cs rest).Valid p f := by
  induction cs with
  | nil => exact hrest
  | cons c cs ih => exact ⟨hcs c (by simp), ih fun d hd => hcs d (by simp [hd])⟩

lemma nested_word_congr (h : ∀ opened, x.Nested free opened ↔ y.Nested free opened) (opened : List Bracket) :
    (Phrase.word kind t x).Nested free opened ↔ (Phrase.word kind t y).Nested free opened := by
  cases kind <;> simp only [Phrase.Nested, h]

lemma nested_blanks {opened : List Bracket} : (blanks cs x).Nested free opened ↔ x.Nested free opened := by
  induction cs with
  | nil => rfl
  | cons c cs ih => simpa only [blanks, Phrase.Nested] using ih

@[simp]
lemma text_inScope (scope : Scope) (rest : Phrase) :
    (inScope scope rest).text = scope.root.toList ++ '.' :: rest.text := rfl

lemma valid_inScope {q : Bool} (hrest : rest.Valid true f)
    (hhead : rest.text.head?.any isIdentStart = true) : (inScope scope rest).Valid q f := by
  obtain ⟨c, cs, hroot, hstart, hcs, -, hslash, -⟩ := scope.root_eq
  obtain ⟨d, hd, hname⟩ := (Option.any_eq_true _ _).1 hhead
  obtain ⟨ds, hrestText⟩ := head?_eq_some_iff.1 hd
  have hdigit := isAsciiDigit_eq_false_of_isIdentStart hname
  have hdot : d ≠ '.' := by
    rintro rfl
    exact absurd hname (by decide)
  have hword : Word q (.ident scope.root) scope.root.toList ('.' :: (rest.text ++ f)) := by
    have hends : ∀ e ∈ ('.' :: (rest.text ++ f)).head?, isIdentPart e = false := by
      simp only [head?_cons, Option.mem_def, Option.some.injEq, forall_eq']
      decide
    have hword : Word q _ _ _ := .ident hstart hcs hends
    rwa [← hroot, String.ofList_toList] at hword
  refine ⟨hword, ?_, .dot ?_ ?_, ?_, hrest⟩
  · rw [hroot, cons_append]
    cases cs <;> simp [opensComment, hslash]
  · simp [hrestText, hdigit]
  · simp [hrestText, hdot]
  · rw [hrestText]
    rfl

end Phrase

lemma writing_eq_root (h : writing kept named kind = .root scope) :
    kind = .atSign ∧ named = true ∧ scope = .constants := by
  unfold writing at h
  split at h
  · split at h
    · rename_i hnamed
      cases h
      exact ⟨rfl, hnamed, rfl⟩
    · cases h
  · split at h
    · cases h
    · split at h <;> cases h
  · cases h

lemma writing_eq_field {field : String} (h : writing kept named kind = .field scope field) :
    ∃ name, kind = .ident name ∧ kept = false ∧ fieldOf? name = some (scope, field) := by
  unfold writing at h
  split at h
  · split at h <;> cases h
  · rename_i name
    split at h
    · cases h
    · rename_i hkept
      split at h
      · rename_i hfield
        cases h
        exact ⟨name, rfl, by simpa using hkept, hfield⟩
      · cases h
  · cases h

lemma not_leading_of_fieldOf? {field : String} (h : fieldOf? name = some (scope, field)) :
    leadingWords.contains name = false := by
  have hname := (fieldOf?_eq_some h).1
  have hall : ∀ word ∈ leadingWords, ∀ scope : Scope, word.toList.head? ≠ some scope.sigil := by
    intro word hword scope
    revert word
    cases scope <;> decide
  cases hcontains : leadingWords.contains name with
  | false => rfl
  | true => exact absurd (by rw [hname]; rfl) (hall name (contains_iff_mem.1 hcontains) scope)

/-! What stands behind a token is changed only so far that the token is read as before. -/

lemma Writing.shift {g' : List Char} (hword : Word p kind t f) (hshift : Shift g (rest.text ++ g')) :
    Shift (t ++ g) (((writing kept named kind).phrase kind t rest).text ++ g') := by
  cases hw : writing kept named kind with
  | same =>
    simp only [Writing.phrase, Phrase.text, append_assoc]
    exact hshift.append t
  | root scope =>
    obtain ⟨rfl, -, rfl⟩ := writing_eq_root hw
    rw [hword.atSign_text]
    exact .head (by decide) (by decide) (by decide) (by decide)
  | field scope field =>
    obtain ⟨name, rfl, -, hfield⟩ := writing_eq_field hw
    obtain ⟨c, cs, hroot, hstart, -, htelling, hslash, -⟩ := scope.root_eq
    rw [hword.ident_text, (fieldOf?_eq_some hfield).1, Writing.phrase, Phrase.text_inScope, hroot]
    exact .head scope.isTelling_sigil htelling hslash fun _ => hstart

lemma Phrase.shift_written {p : Bool} {f : List Char} (g : List Char) : (x : Phrase) → x.Valid p f →
    ∀ last glued, Shift (x.text ++ g) ((x.written last glued).text ++ g)
  | .done, _, _, _ => .refl g
  | .blank c rest, ⟨_, hrest⟩, last, _ => .cons c (shift_written g rest hrest last false)
  | .comment newlines t rest, ⟨hcomment, _⟩, _, _ => by
    obtain ⟨c, cs, hcs, hc⟩ := commentText_eq newlines
    obtain ⟨ts, rfl⟩ := hcomment.eq_cons
    rw [Phrase.written, Phrase.text_blanks, hcs]
    exact .head (by decide) (isTelling_eq_false_of_isBlank hc) (ne_of_isBlank hc (by decide))
      fun h => absurd h (by decide)
  | .word kind t rest, ⟨hword, _, hrest⟩, last, glued => by
    rw [Phrase.written, Phrase.text, append_assoc]
    exact Writing.shift hword (shift_written g rest hrest (some kind) true)
  | .template body rest, _, _, _ => .head (by decide) (by decide) (by decide) id

/-! Places along a phrase. -/

lemma head?_entries (keep glued : Bool) (htail : tail.head?.any Entry.isGluedName = false) (x : Phrase) :
    ((x.entries keep glued ++ tail).head?.any Entry.isGluedName) = (glued && x.startsName) := by
  cases x with
  | done => simpa [Phrase.entries, Phrase.startsName] using htail
  | blank c rest => simpa [Phrase.entries, Phrase.startsName] using head?_entries keep false htail rest
  | comment newlines t rest =>
    cases keep with
    | true => simp [Phrase.entries, Phrase.startsName, Entry.isGluedName]
    | false => simpa [Phrase.entries, Phrase.startsName] using head?_entries false false htail rest
  | word kind t rest => cases kind <;> simp [Phrase.entries, Phrase.startsName, Entry.isGluedName]
  | template body rest => simp [Phrase.entries, Phrase.startsName, Entry.isGluedName]

lemma clear_behind {here : Juncture} {front back : List Entry} {mark : Mark} (hmark : ∀ kind, mark ≠ .token kind)
    (h : clear here (front ++ ⟨mark, [], true⟩ :: back) = true) :
    clear ⟨some ⟨mark, [], true⟩, false, false⟩ back = true := by
  induction front generalizing here with
  | nil =>
    cases mark with
    | token kind => exact absurd rfl (hmark kind)
    | _ => exact h
  | cons e front ih =>
    rw [cons_append, clear] at h
    split at h
    · exact ih h
    · exact ih (Bool.and_eq_true_iff.1 h).2
    · exact ih h

lemma clear_comment {here : Juncture} {newlines : Nat} :
    clear here (⟨.token (.comment newlines), t, glued⟩ :: es) =
      clear { here with last := some ⟨.token (.comment newlines), t, glued⟩ } es := by
  rw [clear]

lemma clear_word {here : Juncture} (hword : Word p kind t f) :
    clear here (⟨.token kind, t, glued⟩ :: es) =
      (here.admits ⟨.token kind, t, glued⟩
          (writing (keepsName here.lastKind? glued) (es.head?.any Entry.isGluedName) kind) &&
        clear (.past ⟨.token kind, t, glued⟩ kind
          (writing (keepsName here.lastKind? glued) (es.head?.any Entry.isGluedName) kind)) es) := by
  cases kind with
  | comment newlines => cases hword.isPlain
  | _ => rfl

lemma Juncture.not_absorbs_of_hasRoom {here : Juncture} {before : Entry} (h : here.hasRoom e scope = true)
    (hglued : e.glued = true) (hlast : here.last = some before) {c : Char}
    (hc : scope.root.toList.head? = some c) : before.absorbs c = false := by
  simpa [hasRoom, hglued, hlast, hc] using h

/-- What stands right behind an entry in a phrase whose sigils are written out is the same as
before, or nothing that the entry would go on with. -/
theorem Phrase.head?_written {here : Juncture} (hvalid : x.Valid p f) (htail : tail.head?.any Entry.isGluedName = false)
    (hlast : here.last = some e) (h : clear here (x.entries true true ++ tail) = true) :
    ∀ c ∈ ((x.written here.lastKind? true).text ++ f).head?, (x.text ++ f).head? = some c ∨ e.absorbs c = false := by
  intro c hc
  cases x with
  | done | blank d rest | template body rest => exact .inl hc
  | comment newlines t rest =>
    obtain ⟨d, ds, hcs, hd⟩ := commentText_eq newlines
    rw [Phrase.written, Phrase.text_blanks, hcs] at hc
    cases hc
    right
    unfold Entry.absorbs
    split
    · exact absorbs_of_isBlank hd
    · rfl
  | word kind t rest =>
    obtain ⟨hword, -, -⟩ := hvalid
    obtain ⟨d, ds, rfl, -⟩ := hword.reads
    rw [Phrase.entries, cons_append, clear_word hword, head?_entries _ _ htail, Bool.true_and] at h
    have hadmits := (Bool.and_eq_true_iff.1 h).1
    rw [Phrase.written] at hc
    cases hw : writing (keepsName here.lastKind? true) rest.startsName kind with
    | same =>
      rw [hw] at hc
      exact .inl hc
    | root scope =>
      obtain ⟨b, bs, hroot, -⟩ := scope.root_eq
      rw [hw, Writing.phrase, Phrase.text_inScope, hroot] at hc
      cases hc
      rw [hw] at hadmits
      exact .inr (Juncture.not_absorbs_of_hasRoom hadmits rfl hlast (by rw [hroot]; rfl))
    | field scope field =>
      obtain ⟨b, bs, hroot, -⟩ := scope.root_eq
      rw [hw, Writing.phrase, Phrase.text_inScope, hroot] at hc
      cases hc
      rw [hw] at hadmits
      exact .inr (Juncture.not_absorbs_of_hasRoom (Bool.and_eq_true_iff.1 hadmits).2 rfl hlast (by rw [hroot]; rfl))

/-! A clear phrase is well-formed with its sigils written out. -/

lemma Quote.head?_written : (q : Quote) → q.written.text.head? = q.text.head?
  | .done => rfl
  | .piece _ _ rest => head?_append_congr rest.head?_written
  | .hole _ _ => rfl

lemma Piece.of_head {value raw : List Char} (h : Piece value raw f) (hhead : g.head? = f.head?) :
    Piece value raw g := by
  cases h with
  | plain hquote hslash hhole => exact .plain hquote hslash (hhead ▸ hhole)
  | escape h => exact .escape h

lemma Phrase.head?_written_behind_atSign (hvalid : x.Valid p f) (h : x.startsName = true) :
    (x.written (some .atSign) true).text.head?.any isIdentStart = true := by
  match x, h with
  | .word (.ident name) t rest, _ =>
    obtain ⟨hword, -, -⟩ := hvalid
    obtain ⟨c, cs, rfl, -, hstart, -⟩ := hword.ident_parts
    exact hstart

lemma Word.field {field : String} (h : Word p (.ident name) t f) (hfield : fieldOf? name = some (scope, field))
    (hstart : field.toList.head?.any isIdentStart = true) (q : Bool) : Word q (.ident field) field.toList f := by
  have hname := (fieldOf?_eq_some hfield).1
  obtain ⟨c, cs, -, rfl, -, hcs, hend⟩ := h.ident_parts
  obtain ⟨-, rfl⟩ : c = scope.sigil ∧ cs = field.toList := by simpa using hname
  cases hfirst : field.toList with
  | nil => simp [hfirst] at hstart
  | cons d ds =>
    rw [hfirst] at hcs hstart
    have hds : ∀ e ∈ ds, isIdentPart e = true := fun e he => hcs e (by simp [he])
    have hword : Word q _ _ _ := .ident (show isIdentStart d = true by simpa using hstart) hds hend
    rwa [← hfirst, String.ofList_toList, hfirst] at hword

lemma Phrase.closes_word_congr (h : ∀ n, x.Closes n ↔ y.Closes n) (opened : Nat) :
    (Phrase.word kind t x).Closes opened ↔ (Phrase.word kind t y).Closes opened := by
  cases kind with
  | opening b | closing b => cases b <;> simp only [Phrase.Closes, h]
  | _ => simp only [Phrase.Closes, h]

lemma Phrase.closes_blanks {opened : Nat} : (blanks cs rest).Closes opened ↔ rest.Closes opened := by
  induction cs with
  | nil => rfl
  | cons c cs ih => simpa only [blanks, Phrase.Closes] using ih

lemma Phrase.closes_written : (x : Phrase) → ∀ last glued opened, (x.written last glued).Closes opened ↔ x.Closes opened
  | .done, _, _, _ => Iff.rfl
  | .blank _ rest, last, _, opened => rest.closes_written last false opened
  | .comment newlines _ rest, _, _, opened => closes_blanks.trans (rest.closes_written _ true opened)
  | .template _ rest, _, _, opened => rest.closes_written none true opened
  | .word kind t rest, last, glued, opened => by
    have hrest := rest.closes_written (some kind) true
    rw [Phrase.written]
    cases hw : writing (keepsName last glued) rest.startsName kind with
    | same => exact closes_word_congr hrest opened
    | root scope =>
      obtain ⟨rfl, -, -⟩ := writing_eq_root hw
      exact hrest opened
    | field scope field =>
      obtain ⟨name, rfl, -, -⟩ := writing_eq_field hw
      exact hrest opened

section Word

variable {here : Juncture} {p q glued : Bool} {kind : TokenKind} {t f : List Char} {rest : Phrase} {tail : List Entry}

lemma Word.before_written {w : Writing} (hword : Word p kind t (rest.text ++ f))
    (hcomment : opensComment (t ++ (rest.text ++ f)) = false) (hrest : rest.Valid kind.allowsPattern
    f) (htail : tail.head?.any Entry.isGluedName = false) (he : e = ⟨.token kind, t, glued⟩)
    (hclear : clear (.past e kind w) (rest.entries true true ++ tail) = true) (hslash : t.head? = some '/' → q = p) :
    Word q kind t ((rest.written (some kind) true).text ++ f) ∧
      opensComment (t ++ ((rest.written (some kind) true).text ++ f)) = false := by
  have hshift := rest.shift_written f hrest (some kind) true
  have hheads := Phrase.head?_written hrest htail (show (Juncture.past e kind w).last = some e from rfl) hclear
  subst he
  exact ⟨hword.of_shift hshift hheads hslash, opensComment_of_shift hword.ne_nil hshift hcomment⟩

end Word

mutual

theorem Phrase.valid_written : (x : Phrase) → ∀ ⦃here : Juncture⦄ ⦃p q glued : Bool⦄ ⦃f :
    List Char⦄ ⦃tail : List Entry⦄,
    x.Valid p f → tail.head?.any Entry.isGluedName = false → clear here (x.entries true glued ++
      tail) = true → (here.leading = false → q = p) → (x.written here.lastKind? glued).Valid q f
  | .done => fun _ _ _ _ _ _ _ _ _ _ => trivial
  | .blank c rest => by
    intro here p q glued f tail ⟨hc, hrest⟩ htail hclear hleading
    exact ⟨hc, Phrase.valid_written rest hrest htail hclear hleading⟩
  | .comment newlines t rest => by
    intro here p q glued f tail ⟨_, hrest⟩ htail hclear hleading
    rw [Phrase.entries, if_pos rfl, cons_append, clear_comment] at hclear
    have hwritten := Phrase.valid_written rest hrest htail hclear (q := q) hleading
    exact Phrase.valid_blanks (fun c => isBlank_of_mem_commentText newlines) hwritten
  | .word kind t rest => by
    intro here p q glued f tail ⟨hword, hcomment, hrest⟩ htail hclear hleading
    rw [Phrase.entries, cons_append, clear_word hword, head?_entries _ _ htail, Bool.true_and,
      Bool.and_eq_true_iff] at hclear
    obtain ⟨hadmits, hclear⟩ := hclear
    rw [Phrase.written]
    cases hw : writing (keepsName here.lastKind? glued) rest.startsName kind with
    | same =>
      rw [hw] at hadmits hclear
      have hslash : t.head? = some '/' → q = p := by
        intro ht
        exact hleading (by simpa [Juncture.admits, ht] using hadmits)
      have hread := hword.before_written (q := q) hcomment hrest htail rfl hclear hslash
      exact ⟨hread.1, hread.2, Phrase.valid_written rest hrest htail hclear fun _ => rfl⟩
    | root scope =>
      obtain ⟨rfl, hnamed, rfl⟩ := writing_eq_root hw
      rw [hw] at hclear
      have hwritten := Phrase.valid_written rest hrest htail hclear (q := true) fun _ => rfl
      exact Phrase.valid_inScope hwritten (Phrase.head?_written_behind_atSign hrest hnamed)
    | field scope field =>
      obtain ⟨name, rfl, -, hfield⟩ := writing_eq_field hw
      rw [hw] at hadmits hclear
      have hread := hword.before_written (q := p) hcomment hrest htail rfl hclear fun _ => rfl
      have hwritten := Phrase.valid_written rest hrest htail hclear
        (q := leadingWords.contains field) fun h => h.trans (not_leading_of_fieldOf? hfield).symm
      simp only [Juncture.admits, Bool.and_eq_true_iff] at hadmits
      have hstart := hadmits.1.2
      have hname := hread.1.field hfield hstart true
      refine Phrase.valid_inScope ⟨hname, opensComment_of_startsName hstart, hwritten⟩ ?_
      rw [Phrase.text, head?_append]
      obtain ⟨c, hc, -⟩ := (Option.any_eq_true _ _).1 hstart
      rwa [hc, Option.some_or, ← hc]
  | .template body rest => by
    intro here p q glued f tail ⟨hbody, hrest⟩ htail hclear _
    rw [Phrase.entries, cons_append, append_assoc, clear] at hclear
    exact ⟨Quote.valid_written body hbody hclear,
      Phrase.valid_written rest hrest htail (clear_behind (by simp) hclear) fun _ => rfl⟩

theorem Quote.valid_written : (q : Quote) → ∀ ⦃here : Juncture⦄ ⦃first : Bool⦄ ⦃run : List Char⦄ ⦃tail : List Entry⦄,
    q.Valid → clear here (q.entries true first run ++ tail) = true → q.written.Valid
  | .done => fun _ _ _ _ _ _ => trivial
  | .piece value raw rest => by
    intro here first run tail ⟨hpiece, hrest⟩ hclear
    exact ⟨hpiece.of_head rest.head?_written, Quote.valid_written rest hrest hclear⟩
  | .hole inner rest => by
    intro here first run tail ⟨hinner, hcloses, hrest⟩ hclear
    rw [Quote.entries, append_assoc, cons_append, append_assoc] at hclear
    have hinside := clear_behind (by simp) hclear
    refine ⟨fun f => ?_, (inner.closes_written _ _ _).2 hcloses, ?_⟩
    · exact Phrase.valid_written inner (hinner f) rfl hinside fun _ => rfl
    · exact Quote.valid_written rest hrest (clear_behind (by simp) hinside)

end

lemma Phrase.depth_blanks : (blanks cs rest).depth = rest.depth := by
  induction cs with
  | nil => rfl
  | cons c cs ih => exact ih

mutual

theorem Phrase.depth_written : (x : Phrase) → ∀ last glued, (x.written last glued).depth = x.depth
  | .done, _, _ => rfl
  | .blank _ rest, last, _ => rest.depth_written last false
  | .comment _ _ rest, _, _ => Phrase.depth_blanks.trans (rest.depth_written _ true)
  | .word kind t rest, last, glued => by
    rw [Phrase.written]
    cases writing (keepsName last glued) rest.startsName kind <;> exact rest.depth_written (some kind) true
  | .template body rest, _, _ => by
    rw [Phrase.written, Phrase.depth, Phrase.depth, body.depth_written, rest.depth_written]

theorem Quote.depth_written : (q : Quote) → q.written.depth = q.depth
  | .done => rfl
  | .piece _ _ rest => rest.depth_written
  | .hole inner rest => by
    rw [Quote.written, Quote.depth, Quote.depth, inner.depth_written, rest.depth_written]

end

/-! The reading of a clear phrase with its sigils written out. -/

/-- A place in the reading with comments, and the token before the same place in the reading without
them. -/
structure Agree (here : Juncture) (glued : Bool) (prev : Option TokenKind) (glued' : Bool) : Prop where
  dotted : prev.any TokenKind.leadsProperty = here.dotted
  property : here.lastKind?.any TokenKind.leadsProperty = true → here.dotted = true
  sign : here.lastKind? = some .atSign ∧ glued = true ↔ prev = some .atSign ∧ glued' = true

lemma keepsName_iff :
    keepsName last glued = true ↔ last.any TokenKind.leadsProperty = true ∨ last = some .atSign ∧ glued = true := by
  cases last with
  | none => simp [keepsName]
  | some kind => cases kind <;> simp [keepsName, TokenKind.leadsProperty, TokenKind.isOp]

lemma Agree.writing_eq {here : Juncture} {prev : Option TokenKind} {glued' : Bool} (h : Agree here glued prev glued')
    (hadmits : here.admits e (writing (keepsName here.lastKind? glued) named kind) = true) :
    writing (keepsName prev glued') named kind = writing (keepsName here.lastKind? glued) named kind := by
  cases kind with
  | ident name =>
    cases hfield : fieldOf? name with
    | none => simp [writing, hfield]
    | some field =>
      cases hkept : keepsName here.lastKind? glued with
      | true =>
        have hprev : keepsName prev glued' = true := by
          rw [keepsName_iff, h.dotted, ← h.sign]
          exact (keepsName_iff.1 hkept).imp_left h.property
        rw [hprev]
      | false =>
        -- here the name is written out, and that is clear only where no dot stands before it
        have hdotted : here.dotted = false := by
          simp only [hkept, writing, hfield, Bool.false_eq_true, if_false, Juncture.admits,
            Bool.and_eq_true_iff, Bool.not_eq_true'] at hadmits
          exact hadmits.1.1
        have hprev : keepsName prev glued' = false := by
          rw [← Bool.not_eq_true, keepsName_iff, h.dotted, ← h.sign]
          rintro (hdot | hsign)
          · simp [hdotted] at hdot
          · simp [keepsName_iff.2 (.inr hsign)] at hkept
        rw [hprev]
  | _ => rfl

def Breaks (es : List Entry) : Prop := ∀ e ∈ es.head?, e.kind? = none

lemma Breaks.not_glued (h : Breaks es) : es.head?.any Entry.isGluedName = false := by
  cases es with
  | nil => rfl
  | cons e es =>
    have he : e.kind? = none := h e rfl
    unfold Entry.kind? at he
    unfold Entry.isGluedName
    cases hmark : e.mark with
    | token kind => simp [hmark] at he
    | _ => simp [hmark]

lemma Breaks.rewritten_eq (h : Breaks es) (last : Option TokenKind) : rewritten last es = rewritten none es := by
  cases es with
  | nil => rfl
  | cons e es =>
    have he : e.kind? = none := h e rfl
    unfold Entry.kind? at he
    cases hmark : e.mark with
    | token kind => simp [hmark] at he
    | _ => simp [rewritten, hmark]

lemma breaks_mark (mark : Mark) (hmark : ∀ kind, mark ≠ .token kind) (es : List Entry) :
    Breaks (⟨mark, [], true⟩ :: es) := by
  rintro e ⟨⟩
  unfold Entry.kind?
  split
  · rename_i kind hkind
    exact absurd hkind (hmark kind)
  · rfl

lemma entries_blanks {keep : Bool} (glued : Bool) (c : Char) :
    (Phrase.blanks (c :: cs) rest).entries keep glued = rest.entries keep false := by
  induction cs generalizing c glued with
  | nil => rfl
  | cons d cs ih => exact ih false d

lemma Writing.map_mark_entries (w : Writing) :
    ((w.phrase kind t rest).entries false glued).map Entry.mark =
      w.marks kind ++ (rest.entries false true).map Entry.mark := by
  cases w <;> rfl

lemma rewritten_textEntries (run : List Char) (es : List Entry) :
    rewritten none (textEntries run ++ es) = (textEntries run).map Entry.mark ++ rewritten none es := by
  unfold textEntries
  split <;> rfl

lemma rewritten_token :
    rewritten last (⟨.token kind, t, glued⟩ :: es) =
      (writing (keepsName last glued) (es.head?.any Entry.isGluedName) kind).marks kind ++
        rewritten (some kind) es := by
  rw [rewritten]

mutual

theorem Phrase.rewritten_entries : (x : Phrase) → ∀ ⦃here : Juncture⦄ ⦃p glued glued' : Bool⦄ ⦃prev : Option TokenKind⦄
    ⦃f : List Char⦄ ⦃tail tail' : List Entry⦄, x.Valid p f → Breaks tail → Breaks tail' →
      clear here (x.entries true glued ++ tail) = true → Agree here glued prev glued' → ∀ flag,
        rewritten prev (x.entries false glued' ++ tail') =
          ((x.written here.lastKind? glued).entries false flag).map Entry.mark ++ rewritten none tail'
  | .done => by
    intro here p glued glued' prev f tail tail' _ _ htail' _ _ flag
    exact htail'.rewritten_eq prev
  | .blank c rest => by
    intro here p glued glued' prev f tail tail' ⟨_, hrest⟩ htail htail' hclear hagree flag
    have hagree : Agree here false prev false := ⟨hagree.dotted, hagree.property, by simp⟩
    exact Phrase.rewritten_entries rest hrest htail htail' hclear hagree false
  | .comment newlines t rest => by
    intro here p glued glued' prev f tail tail' ⟨_, hrest⟩ htail htail' hclear hagree flag
    rw [Phrase.entries, if_pos rfl, cons_append, clear_comment] at hclear
    have hagree : Agree { here with last := some ⟨.token (.comment newlines), t, glued⟩ } true prev false :=
      ⟨hagree.dotted, fun h =>
        absurd h (by simp [Juncture.lastKind?, Entry.kind?, TokenKind.leadsProperty, TokenKind.isOp]),
        by simp [Juncture.lastKind?, Entry.kind?]⟩
    have hwritten := Phrase.rewritten_entries rest hrest htail htail' hclear hagree false
    obtain ⟨c, cs, hcs, -⟩ := commentText_eq newlines
    rw [Phrase.written, hcs, entries_blanks]
    exact hwritten
  | .word kind t rest => by
    intro here p glued glued' prev f tail tail' ⟨hword, _, hrest⟩ htail htail' hclear hagree flag
    rw [Phrase.entries, cons_append, clear_word hword, head?_entries _ _ htail.not_glued,
      Bool.true_and, Bool.and_eq_true_iff] at hclear
    obtain ⟨hadmits, hclear⟩ := hclear
    have hsame := hagree.writing_eq hadmits
    have hwritten := Phrase.rewritten_entries rest hrest htail htail' hclear
      (show Agree _ true (some kind) true from ⟨rfl, id, Iff.rfl⟩) true
    rw [Phrase.entries, cons_append, rewritten_token, head?_entries _ _ htail'.not_glued,
      Bool.true_and, hsame, hwritten, Phrase.written, Writing.map_mark_entries, append_assoc]
    rfl
  | .template body rest => by
    intro here p glued glued' prev f tail tail' ⟨hbody, hrest⟩ htail htail' hclear _ flag
    rw [Phrase.entries, cons_append, append_assoc, clear] at hclear
    have hquote := Quote.rewritten_entries body hbody
      (breaks_mark .templateEnd (by simp) (rest.entries false true ++ tail')) hclear
    have hwritten := Phrase.rewritten_entries rest hrest htail htail' (clear_behind (by simp) hclear)
      (show Agree _ true none true from ⟨rfl, id, by simp [Juncture.lastKind?, Entry.kind?]⟩) true
    simp only [Phrase.entries, cons_append, append_assoc, rewritten, Phrase.written, map_cons,
      map_append] at hquote ⊢
    rw [hquote, hwritten]
    rfl

theorem Quote.rewritten_entries : (q : Quote) →
    ∀ ⦃here : Juncture⦄ ⦃first : Bool⦄ ⦃run : List Char⦄ ⦃tail tail' : List Entry⦄,
    q.Valid → Breaks tail' → clear here (q.entries true first run ++ tail) = true →
      rewritten none (q.entries false first run ++ tail') =
        (q.written.entries false first run).map Entry.mark ++ rewritten none tail'
  | .done => by
    intro here first run tail tail' _ _ _
    unfold Quote.written Quote.entries
    split
    · rfl
    · exact rewritten_textEntries run tail'
  | .piece value raw rest => by
    intro here first run tail tail' ⟨_, hrest⟩ htail' hclear
    exact Quote.rewritten_entries rest hrest htail' hclear
  | .hole inner rest => by
    intro here first run tail tail' ⟨hinner, _, hrest⟩ htail' hclear
    rw [Quote.entries, append_assoc, cons_append, append_assoc] at hclear
    have hinside := clear_behind (by simp) hclear
    have hwritten := Phrase.rewritten_entries inner (hinner []) (breaks_mark .holeEnd (by simp) _)
      (breaks_mark .holeEnd (by simp) (rest.entries false false [] ++ tail')) hinside
      (show Agree _ true none true from ⟨rfl, id, by simp [Juncture.lastKind?, Entry.kind?]⟩) true
    have hquote := Quote.rewritten_entries rest hrest htail' (clear_behind (by simp) hinside)
    simp only [Quote.entries, append_assoc, cons_append, rewritten_textEntries, Quote.written,
      map_append, map_cons, rewritten] at hwritten ⊢
    rw [hwritten, hquote]
    rfl

end

end StoryMarkup.Script
