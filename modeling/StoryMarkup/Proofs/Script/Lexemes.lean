import Mathlib.Data.List.Find
import StoryMarkup.Proofs.Script.Numerals

/-! The tokens other than templates, each with its text and what must not follow it. -/
namespace StoryMarkup.Script

open List Text Cursor
variable {f g t : List Char} {p : Bool} {c : Char} {kind : TokenKind} {k after : Cursor} {cs : List Char}
  {sign : String}

/-! Operators. -/

/-- The operator at the head of a text; a question mark before a fraction stands alone. -/
def operatorAt? (cs : List Char) : Option String :=
  match operatorSigns.find? fun sign => sign.toList.isPrefixOf cs with
  | some sign => if sign == "?." && (cs.drop 2).head?.any isAsciiDigit then some "?" else some sign
  | none => none

lemma isPrefixOf_of_shift {sign : List Char} (hsign : ∀ c ∈ sign, isTelling c = true)
    (h : Shift f g) : sign.isPrefixOf g = sign.isPrefixOf f := by
  induction sign generalizing f g with
  | nil => simp
  | cons c sign ih =>
    have htail : ∀ d ∈ sign, isTelling d = true := fun d hd => hsign d (by simp [hd])
    have hne : ∀ {a}, isTelling a = false → (c == a) = false := by
      rintro a ha
      rw [beq_eq_false_iff_ne]
      rintro rfl
      simp [hsign c (by simp)] at ha
    cases h with
    | refl => rfl
    | cons d h => simp only [isPrefixOf_cons_cons, ih htail h]
    | head ha hb => simp only [isPrefixOf_cons_cons, hne ha, hne hb, Bool.false_and]
    | gone ha => simp [isPrefixOf_cons_cons, hne (isTelling_eq_false_of_isBlank ha)]

lemma isTelling_of_mem_operatorSigns : ∀ sign ∈ operatorSigns, ∀ c ∈ sign.toList.tail, isTelling c = true := by
  have hall : ∀ sign ∈ operatorSigns, sign.toList.tail.all isTelling = true := by decide
  exact fun sign hsign => all_eq_true.1 (hall sign hsign)

lemma operatorAt?_of_shift (h : Shift f g) : operatorAt? (c :: (t ++ g)) = operatorAt? (c :: (t ++ f)) := by
  have hrest : Shift (t ++ f) (t ++ g) := h.append t
  have hsame : ∀ sign ∈ operatorSigns, sign.toList.isPrefixOf (c :: (t ++ g)) =
    sign.toList.isPrefixOf (c :: (t ++ f)) := by
    intro sign hsign
    have htail := isTelling_of_mem_operatorSigns sign hsign
    cases hs : sign.toList with
    | nil => rfl
    | cons d ds =>
      rw [hs, tail_cons] at htail
      rw [isPrefixOf_cons_cons, isPrefixOf_cons_cons, isPrefixOf_of_shift htail hrest]
  simp only [operatorAt?, find?_congr hsame]
  cases hsign : operatorSigns.find? fun sign => sign.toList.isPrefixOf (c :: (t ++ f)) with
  | none => rfl
  | some sign =>
    by_cases hopt : sign = "?."
    · -- Both of its characters are telling, so a change comes behind them.
      subst hopt
      have hopt := find?_some hsign
      obtain ⟨r, hr⟩ : ∃ r, t ++ f = '.' :: r := by
        rw [ isPrefixOf_iff_prefix] at hopt
        obtain ⟨r, hr⟩ := hopt
        exact ⟨r, (cons.inj hr).2.symm⟩
      rw [hr] at hrest
      obtain ⟨r', hr', hrest⟩ := hrest.of_telling (by decide)
      rw [hr, hr']
      simp [hrest.any_digit]
    · simp [hopt]

lemma scanOperator_ok_iff (hk : k.rest ≠ []) :
    scanOperator k = .ok (kind, after) ↔
      ∃ sign, operatorAt? k.rest = some sign ∧ kind = .op sign ∧ after = k.skip sign.length := by
  have hstarts : k.startsWith = fun sign => sign.toList.isPrefixOf k.rest := rfl
  simp only [scanOperator, operatorAt?, hstarts]
  cases operatorSigns.find? fun sign => sign.toList.isPrefixOf k.rest with
  | none =>
    cases hrest : k.rest with
    | nil => exact absurd hrest hk
    | cons c cs => simp [Cursor.next?, hrest, fail]
  | some sign =>
    have hiff : ∀ sign : String, Except.ok (.op sign, k.skip sign.length) = (.ok (kind, after) : Scan TokenKind) ↔
        ∃ sign', some sign = some sign' ∧ kind = .op sign' ∧ after = k.skip sign'.length := by
      intro sign
      constructor
      · intro h
        cases h
        exact ⟨sign, rfl, rfl, rfl⟩
      · rintro ⟨sign', h, rfl, rfl⟩
        cases h
        rfl
    by_cases hopt : (sign == "?." && (k.rest.drop 2).head?.any isAsciiDigit) = true
    · have hpeek : (sign == "?." && (k.peekAt? 2).any isAsciiDigit) = true := hopt
      simp only [if_pos hopt, if_pos hpeek]
      exact hiff "?"
    · have hpeek : ¬ (sign == "?." && (k.peekAt? 2).any isAsciiDigit) = true := hopt
      simp only [if_neg hopt, if_neg hpeek]
      exact hiff sign

lemma operatorAt?_eq_some (h : operatorAt? cs = some sign) : sign ∈ operatorSigns ∧ sign.toList <+: cs := by
  unfold operatorAt? at h
  split at h
  · rename_i s hs
    have hmem := mem_of_find?_eq_some hs
    have hprefix := find?_some hs
    simp only [ isPrefixOf_iff_prefix] at hprefix
    split at h
    · rename_i hopt
      cases h
      simp only [Bool.and_eq_true, beq_iff_eq] at hopt
      obtain ⟨rest, hrest⟩ := hopt.1 ▸ hprefix
      exact ⟨by decide, '.' :: rest, hrest⟩
    · cases h
      exact ⟨hmem, hprefix⟩
  · cases h

/-! Words. -/

def punctuation : List (Char × TokenKind) :=
  [('(', .opening .round), (')', .closing .round), ('[', .opening .square), (']', .closing .square),
   ('{', .opening .curly), ('}', .closing .curly), (',', .comma), ('@', .atSign)]

inductive Word (patternAllowed : Bool) : TokenKind → List Char → List Char → Prop
  | single {c : Char} {kind : TokenKind} {f : List Char} (h : (c, kind) ∈ punctuation) :
    Word patternAllowed kind [c] f
  | string {quote : Char} {kind : TokenKind} {body f : List Char} (hquote : quote = '"' ∨ quote = '\'')
    (h : ∀ start fuel f, body.length < fuel → Reads (scanStringBody quote start fuel []) kind (body ++ [quote]) f)
    (hkind : ∃ s, kind = .string s) : Word patternAllowed kind (quote :: (body ++ [quote])) f
  | number {x : Float} {t f : List Char} (hstart : startsNumber (t ++ f) = true) (ht : t ≠ [])
    (h : numeral (t ++ f) = t) (hx : numeralValue? t = some x) : Word patternAllowed (.number x) t f
  | dot {f : List Char} (hdigit : f.head?.any isAsciiDigit = false)
    (hdots : ¬ (f.head? = some '.' ∧ (f.drop 1).head? = some '.')) : Word patternAllowed .dot ['.'] f
  | pattern {source body flags f : List Char} (hallowed : patternAllowed = true)
    (h : ∀ start fuel f, body.length < fuel → Reads (scanPatternBody start fuel false []) source (body ++ ['/']) f)
    (hflags : ∀ c ∈ flags, isAsciiLetter c = true) (hend : ∀ c ∈ f.head?, isAsciiLetter c = false) :
    Word patternAllowed (.pattern (String.ofList source) (String.ofList flags)) ('/' :: (body ++ '/' :: flags)) f
  | ident {c : Char} {cs f : List Char} (hstart : isIdentStart c = true) (hcs : ∀ d ∈ cs, isIdentPart d = true)
    (hend : ∀ d ∈ f.head?, isIdentPart d = false) : Word patternAllowed (.ident (String.ofList (c :: cs))) (c :: cs) f
  | op {sign : String} {f : List Char} (h : operatorAt? (sign.toList ++ f) = some sign)
    (hslash : sign.toList.head? = some '/' → patternAllowed = false) : Word patternAllowed (.op sign) sign.toList f

lemma exists_word_of_scanKind {holeEnd : Nat → Cursor → Except ScriptError Cursor}
    (hk : k.rest = c :: cs)
    (hc : c ≠ Char.ofNat 96) (h : scanKind holeEnd p c k = .ok (kind, after)) :
    ∃ t, Between k t after ∧ Word p kind t after.rest := by
  have hone : ∀ {kind'}, (c, kind') ∈ punctuation →
      Except.ok (kind', k.skip 1) = (Except.ok (kind, after) : Scan TokenKind) →
      ∃ t, Between k t after ∧ Word p kind t after.rest := by
    intro kind' hmem h
    cases h
    exact ⟨[c], .skip (t := [c]) hk, .single hmem⟩
  have hstring : c = '"' ∨ c = '\'' → scanStringBody c k.pos (k.rest.length + 1) [] (k.skip 1) =
      .ok (kind, after) → ∃ t, Between k t after ∧ Word p kind t after.rest := by
    intro hquote h
    obtain ⟨body, hbetween, ⟨s, hkind, -⟩, hreads⟩ := exists_reads_scanStringBody h
    exact ⟨_, (Between.skip (t := [c]) hk).trans hbetween, .string hquote hreads ⟨s, hkind⟩⟩
  have hnumber : startsNumber k.rest = true → scanNumber k = .ok (kind, after) →
      ∃ t, Between k t after ∧ Word p kind t after.rest := by
    intro hstart h
    obtain ⟨x, hx, rfl, rfl⟩ := scanNumber_ok_iff.1 h
    obtain ⟨rest, hrest⟩ := numeral_isPrefix k.rest
    have hbetween := Between.skip hrest.symm
    refine ⟨_, hbetween, .number ?_ (numeral_ne_nil hstart) ?_ hx⟩
    · rw [← hbetween.rest]
      exact hstart
    · rw [← hbetween.rest]
  unfold scanKind at h
  split at h
  iterate 8
    · exact hone (by simp [punctuation]) h
  · exact hstring (.inl rfl) h
  · exact hstring (.inr rfl) h
  · rw [if_neg (by simpa using hc)] at h
    simp only [peekAt?, hk, drop_succ_cons, drop_zero] at h
    split at h
    · rename_i hnum
      exact hnumber (by rw [hk, startsNumber, hnum, Bool.or_true]) h
    rename_i hnum
    split at h
    · rename_i hdots
      simp only [Bool.and_eq_true, beq_iff_eq, Bool.not_eq_true', Bool.and_eq_false_iff, beq_eq_false_iff_ne] at hdots
      obtain ⟨rfl, hdots⟩ := hdots
      cases h
      have hbetween := Between.skip (t := ['.']) hk
      obtain rfl : cs = (k.skip 1).rest := (cons.inj (hk.symm.trans hbetween.rest)).2
      refine ⟨['.'], hbetween, .dot (by simpa using hnum) ?_⟩
      rintro ⟨hfirst, hsecond⟩
      exact hdots.elim (fun h => h hfirst) fun h => h hsecond
    split at h
    · rename_i hdigit
      exact hnumber (by rw [hk, startsNumber, hdigit, Bool.true_or]) h
    split at h
    · rename_i hslash
      simp only [Bool.and_eq_true, beq_iff_eq] at hslash
      obtain ⟨rfl, hp⟩ := hslash
      unfold scanPattern at h
      split at h
      · cases h
      · rename_i source after' hbody
        cases h
        obtain ⟨body, hbetween, -, hreads⟩ := exists_reads_scanPatternBody hbody
        refine ⟨_, (Between.skip (t := ['/']) hk).trans (hbetween.trans (.skipWhile isAsciiLetter after')), ?_⟩
        have htext : ['/'] ++ (body ++ ['/'] ++ after'.runWhile isAsciiLetter) =
          '/' :: (body ++ '/' :: after'.runWhile isAsciiLetter) := by simp
        rw [htext]
        exact .pattern hp hreads (fun c hc => mem_runWhile hc) (head?_dropWhile _)
    split at h
    · rename_i hslash hstart
      cases h
      refine ⟨_, .skipWhile isIdentPart k, ?_⟩
      have hrun : k.runWhile isIdentPart = c :: cs.takeWhile isIdentPart := by
        rw [runWhile, hk, takeWhile_cons_of_pos (isIdentPart_of_isIdentStart hstart)]
      rw [hrun]
      exact .ident hstart (fun d hd => all_eq_true.1 all_takeWhile d hd) (head?_dropWhile _)
    · rename_i hslash hstart
      obtain ⟨sign, hsign, rfl, rfl⟩ := (scanOperator_ok_iff (by simp [hk])).1 h
      obtain ⟨-, rest, hrest⟩ := operatorAt?_eq_some hsign
      have hbetween := Between.skip hrest.symm
      rw [String.length_toList] at hbetween
      refine ⟨_, hbetween, .op (by rw [← hbetween.rest]; exact hsign) fun hhead => ?_⟩
      obtain rfl : c = '/' := by
        have := congrArg head? (hk.symm.trans hbetween.rest)
        rw [head?_append, hhead] at this
        simpa using this
      simpa using hslash

/-- The characters that each start one kind of token. -/
def openers : List Char := ['(', ')', '[', ']', '{', '}', ',', '@', '"', '\'', Char.ofNat 96]

lemma scanKind_of_not_mem {holeEnd : Nat → Cursor → Except ScriptError Cursor} (hc : c ∉ openers) :
    scanKind holeEnd p c k =
      if c == '.' && (k.peekAt? 1).any isAsciiDigit then scanNumber k
      else if c == '.' && !(k.peekAt? 1 == some '.' && k.peekAt? 2 == some '.') then .ok (.dot, k.skip 1)
      else if isAsciiDigit c then scanNumber k
      else if c == '/' && p then scanPattern k
      else if isIdentStart c then .ok (.ident (String.ofList (k.runWhile isIdentPart)), k.skipWhile isIdentPart)
      else scanOperator k := by
  simp only [openers, List.mem_cons, List.not_mem_nil, or_false, not_or] at hc
  unfold scanKind
  split
  iterate 10 simp at hc
  rw [if_neg (by simpa using hc.2.2.2.2.2.2.2.2.2.2)]

lemma not_mem_of_isIdentPart (h : isIdentPart c = true) : c ∉ openers := by
  intro hmem
  have hc := (@List.all_eq_true _ (!isIdentPart ·) _).1 (by decide) c hmem
  simp [h] at hc

lemma isAsciiDigit_eq_false_of_isIdentStart (h : isIdentStart c = true) : isAsciiDigit c = false := by
  cases hdigit : isAsciiDigit c with
  | false => rfl
  | true =>
    have hrange : 48 ≤ c.toNat ∧ c.toNat ≤ 57 := by
      simp only [isAsciiDigit, Bool.and_eq_true, decide_eq_true_eq, Char.le_def, UInt32.le_iff_toNat_le] at hdigit
      exact hdigit
    have hascii : isAscii c = true := by
      simp only [isAscii, decide_eq_true_eq]
      omega
    have hletter : isAsciiLetter c = false := by
      simp only [isAsciiLetter, Bool.or_eq_false_iff, Bool.and_eq_false_iff,
        decide_eq_false_iff_not, Char.le_def, UInt32.le_iff_toNat_le]
      simp only [Char.toNat] at hrange
      simp only [Char.reduceVal, UInt32.reduceToNat]
      omega
    have hunder : c ≠ '_' := by
      rintro rfl
      simp at hrange
    have hdollar : c ≠ '$' := by
      rintro rfl
      simp at hrange
    simp [isIdentStart, isAlphabetic, hascii, hletter, hunder, hdollar] at h

lemma head_of_mem_operatorSigns (h : sign ∈ operatorSigns) :
    ∃ c cs, sign.toList = c :: cs ∧ c ∉ openers ∧
      isAsciiDigit c = false ∧ isIdentStart c = false ∧ isBlank c = false ∧ (c = '.' → sign = "...") := by
  have hall : ∀ sign ∈ operatorSigns, (sign.toList.head?.any fun c => decide (c ∉ openers ∧
      isAsciiDigit c = false ∧ isIdentStart c = false ∧ isBlank c = false ∧ (c = '.' → sign = "..."))) = true := by
    decide
  have hhead := hall sign h
  cases hsign : sign.toList with
  | nil =>
    rw [hsign] at hhead
    cases hhead
  | cons c cs =>
    rw [hsign] at hhead
    exact ⟨c, cs, rfl, of_decide_eq_true hhead⟩

lemma Word.reads (h : Word p kind t f) :
    ∃ c cs, t = c :: cs ∧ c ≠ Char.ofNat 96 ∧ ∀ holeEnd, Reads (scanKind holeEnd p c) kind t f := by
  cases h with
  | @single c kind f hmem =>
    have hall : ∀ e ∈ punctuation, e.1 ≠ Char.ofNat 96 := by decide
    refine ⟨c, [], rfl, hall _ hmem, fun holeEnd pos => ?_⟩
    simp only [punctuation, mem_cons, Prod.mk.injEq, not_mem_nil, or_false] at hmem
    rcases hmem with ⟨rfl, rfl⟩ | ⟨rfl, rfl⟩ | ⟨rfl, rfl⟩ | ⟨rfl, rfl⟩ | ⟨rfl, rfl⟩ | ⟨rfl,
      rfl⟩ | ⟨rfl, rfl⟩ | ⟨rfl, rfl⟩ <;> simp [scanKind, skip_one]
  | @string quote kind body f hquote hreads hkind =>
    refine ⟨quote, _, rfl, ?_, fun holeEnd pos => ?_⟩
    · rcases hquote with rfl | rfl <;> decide
    · have hread := hreads pos ((quote :: (body ++ [quote]) ++ f).length + 1) f (by simp; omega) (pos + quote.utf8Size)
      rw [Nat.add_assoc, ← byteLength_cons] at hread
      rw [← hread, ← skip_one]
      rcases hquote with rfl | rfl <;> rfl
  | @number x t f hstart ht h hx =>
    cases t with
    | nil => exact absurd rfl ht
    | cons c t =>
      have hscan : ∀ pos, scanNumber ⟨pos, c :: t ++ f⟩ = .ok (.number x, ⟨pos + byteLength (c :: t), f⟩) := by
        intro pos
        refine scanNumber_ok_iff.2 ⟨x, ?_, rfl, ?_⟩
        · simp only [h, hx]
        · simp only [h, skip_append]
      refine ⟨c, t, rfl, ?_, fun holeEnd pos => ?_⟩
      · rintro rfl
        simp [startsNumber, isAsciiDigit] at hstart
      have hc : c ∉ openers := by
        intro hmem
        have hc := (@List.all_eq_true _ (fun c => !isAsciiDigit c && c != '.') _).1 (by decide) c hmem
        simp only [Bool.and_eq_true, Bool.not_eq_true', bne_iff_ne] at hc
        simp [startsNumber, hc] at hstart
      rw [scanKind_of_not_mem hc]
      rw [cons_append, startsNumber] at hstart
      by_cases hdigit : isAsciiDigit c = true
      · have hdot : (c == '.') = false := by
          rw [beq_eq_false_iff_ne]
          rintro rfl
          simp [isAsciiDigit] at hdigit
        simp only [hdot, Bool.false_and, Bool.false_eq_true, if_false, hdigit, if_true, hscan]
      · rw [if_pos]
        · exact hscan pos
        · simpa [hdigit, peekAt?] using hstart
  | @dot f hdigit hdots =>
    refine ⟨'.', [], rfl, by decide, fun holeEnd pos => ?_⟩
    rw [scanKind_of_not_mem (by decide), if_neg, if_pos]
    · rw [singleton_append, skip_one]
      rfl
    · have hdots := Decidable.not_and_iff_not_or_not.1 hdots
      simpa [peekAt?] using hdots
    · simpa [peekAt?] using hdigit
  | @pattern source body flags f hallowed h hflags hend =>
    refine ⟨'/', _, rfl, by decide, fun holeEnd pos => ?_⟩
    have htext : '/' :: (body ++ '/' :: flags) ++ f = '/' :: (body ++ ['/'] ++ (flags ++ f)) := by simp
    have hread := h pos (('/' :: (body ++ ['/'] ++ (flags ++ f))).length + 1) (flags ++ f)
      (by simp; omega) (pos + ('/' : Char).utf8Size)
    rw [scanKind_of_not_mem (by decide), hallowed, htext]
    have hdigit : isAsciiDigit '/' = false := by decide
    simp only [show (('/' : Char) == '.') = false from by decide, Bool.false_and, Bool.false_eq_true, if_false, hdigit,
      beq_self_eq_true, Bool.and_self, if_true, scanPattern, skip_one, hread,
      runWhile_append _ hflags hend, skipWhile_append _ hflags hend]
    simp only [byteLength_cons, byteLength_append, byteLength_nil, Nat.add_zero, Nat.add_assoc]
  | @ident c cs f hstart hcs hend =>
    have hpart : ∀ d ∈ c :: cs, isIdentPart d = true := by
      intro d hd
      rcases mem_cons.1 hd with rfl | hd
      · exact isIdentPart_of_isIdentStart hstart
      · exact hcs d hd
    have hnot := not_mem_of_isIdentPart (hpart c (by simp))
    refine ⟨c, cs, rfl, fun hc => hnot (by simp [openers, hc]), fun holeEnd pos => ?_⟩
    have hne : ∀ {d}, isIdentStart d = false → (c == d) = false := fun hd =>
      beq_eq_false_iff_ne.2 fun he => Bool.eq_false_iff.1 hd (he ▸ hstart)
    have hdot : (c == '.') = false := hne (by decide)
    have hslash : (c == '/') = false := hne (by decide)
    have hdigit := isAsciiDigit_eq_false_of_isIdentStart hstart
    simp only [scanKind_of_not_mem hnot, hdot, hslash, hdigit, hstart, Bool.false_and,
      Bool.false_eq_true, if_false, if_true,
      runWhile_append _ hpart hend, skipWhile_append _ hpart hend]
  | @op sign f h hslash =>
    obtain ⟨hmem, -⟩ := operatorAt?_eq_some h
    obtain ⟨c, cs, hsign, hnot, hdigit, hstart, -, hdots⟩ := head_of_mem_operatorSigns hmem
    refine ⟨c, cs, hsign, fun hc => hnot (by simp [openers, hc]), fun holeEnd pos => ?_⟩
    have hscan : scanOperator ⟨pos, sign.toList ++ f⟩ = .ok (.op sign, ⟨pos + byteLength sign.toList, f⟩) := by
      refine (scanOperator_ok_iff (by simp [hsign])).2 ⟨sign, h, rfl, ?_⟩
      rw [← String.length_toList, skip_append]
    have hpattern : (c == '/' && p) = false := by
      cases hc : c == '/' with
      | false => rfl
      | true => simpa using hslash (by simpa [hsign] using hc)
    have hdot : c = '.' → sign.toList ++ f = '.' :: '.' :: '.' :: f := by
      intro hc
      rw [hdots hc]
      rfl
    rw [scanKind_of_not_mem hnot, if_neg, if_neg, if_neg (by simp [hdigit]), if_neg
      (by simp [hpattern]), if_neg (by simp [hstart])]
    · exact hscan
    · intro h
      simp only [Bool.and_eq_true, beq_iff_eq] at h
      simp [peekAt?, hdot h.1] at h
    · intro h
      simp only [Bool.and_eq_true, beq_iff_eq] at h
      simp [peekAt?, hdot h.1, isAsciiDigit] at h

def absorbs (kind : TokenKind) (t : List Char) (c : Char) : Bool :=
  match kind with
  | .ident _ => isIdentPart c
  | .pattern .. => isAsciiLetter c
  | .number _ => t.getLast? == some '.' && isIdentStart c || isHexNumeral t && isAsciiHexDigit c
  | _ => false

lemma absorbs_of_isBlank (hc : isBlank c = true) : absorbs kind t c = false := by
  have hpart := eq_false_of_isBlank isBlank_eq_false_of_isIdentPart hc
  have hstart := eq_false_of_isBlank (fun h => isBlank_eq_false_of_isIdentPart (isIdentPart_of_isIdentStart h)) hc
  have hletter := eq_false_of_isBlank isBlank_eq_false_of_isAsciiLetter hc
  have hhex := eq_false_of_isBlank isBlank_eq_false_of_isAsciiHexDigit hc
  unfold absorbs
  split <;> simp [hpart, hstart, hletter, hhex]

lemma Shift.telling_back (h : Shift f (c :: g)) (hc : isTelling c = true) : ∃ f', f = c :: f' ∧ Shift f' g := by
  cases h with
  | refl => exact ⟨g, rfl, .refl g⟩
  | cons _ h => exact ⟨_, rfl, h⟩
  | head _ hb => simp [hb] at hc

lemma Word.of_shift {q : Bool} (h : Word p kind t f) (hshift : Shift f g)
    (habsorbs : ∀ c ∈ g.head?, f.head? = some c ∨ absorbs kind t c = false) (hp : t.head? =
    some '/' → q = p) : Word q kind t g := by
  cases h with
  | single hmem => exact .single hmem
  | string hquote hreads hkind => exact .string hquote hreads hkind
  | number hstart ht h hx =>
    refine .number ?_ ht (numeral_of_shift h ht hshift (fun hlast c hc => ?_) fun hhex c hc => ?_) hx
    · cases t with
      | nil => exact absurd rfl ht
      | cons c t =>
        rw [cons_append, startsNumber] at hstart ⊢
        rw [(hshift.append t).any_digit]
        exact hstart
    · refine (habsorbs c hc).imp_right fun hnot => ?_
      simpa [hlast] using (Bool.or_eq_false_iff.1 hnot).1
    · refine (habsorbs c hc).imp_right fun hnot => ?_
      simpa [hhex] using (Bool.or_eq_false_iff.1 hnot).2
  | dot hdigit hdots =>
    refine .dot (hshift.any_digit.trans hdigit) ?_
    rintro ⟨hfirst, hsecond⟩
    obtain ⟨g, rfl⟩ := head?_eq_some_iff.1 hfirst
    obtain ⟨f, rfl, hrest⟩ := hshift.telling_back (by decide)
    obtain ⟨g, hg⟩ := head?_eq_some_iff.1 hsecond
    rw [drop_succ_cons, drop_zero] at hg
    subst hg
    obtain ⟨f, rfl, -⟩ := hrest.telling_back (by decide)
    exact hdots ⟨rfl, rfl⟩
  | pattern hallowed h hflags hend =>
    exact .pattern ((hp rfl).trans hallowed) h hflags fun c hc => (habsorbs c hc).elim (hend c) id
  | ident hstart hcs hend => exact .ident hstart hcs fun c hc => (habsorbs c hc).elim (hend c) id
  | @op sign f h hslash =>
    obtain ⟨c, cs, hsign, -⟩ := head_of_mem_operatorSigns (operatorAt?_eq_some h).1
    refine .op ?_ fun hhead => (hp hhead).trans (hslash hhead)
    rw [hsign, cons_append] at h ⊢
    rw [operatorAt?_of_shift hshift, h]

lemma Word.not_blank (h : Word p kind t f) :
    (∀ c ∈ t.head?, isBlank c = false) ∧ ∀ c ∈ t.getLast?, isBlank c = false := by
  cases h with
  | @single c kind f hmem =>
    have hall : ∀ e ∈ punctuation, isBlank e.1 = false := by decide
    simp [hall _ hmem]
  | @string quote kind body f hquote hreads hkind =>
    have hq : isBlank quote = false := by rcases hquote with rfl | rfl <;> decide
    simp [hq, getLast?_cons]
  | number hstart ht h hx =>
    have hall : ∀ c ∈ t, isBlank c = false := fun c hc => isBlank_eq_false_of_mem_numeral (h.symm ▸ hc)
    exact ⟨fun c hc => hall c (mem_of_mem_head? hc), fun c hc => hall c (mem_of_mem_getLast? hc)⟩
  | dot hdigit hdots => simp [isBlank]
  | @pattern source body flags f hallowed h hflags hend =>
    refine ⟨by simp [isBlank], fun c hc => ?_⟩
    have hmem : c ∈ '/' :: flags := by
      rw [← cons_append, getLast?_append] at hc
      exact mem_of_mem_getLast? (by simpa using hc)
    rcases mem_cons.1 hmem with rfl | hmem
    · decide
    · exact isBlank_eq_false_of_isAsciiLetter (hflags c hmem)
  | @ident c cs f hstart hcs hend =>
    have hpart : ∀ d ∈ c :: cs, isBlank d = false := by
      intro d hd
      apply isBlank_eq_false_of_isIdentPart
      rcases mem_cons.1 hd with rfl | hd
      · exact isIdentPart_of_isIdentStart hstart
      · exact hcs d hd
    exact ⟨fun d hd => hpart d (mem_of_mem_head? hd), fun d hd => hpart d (mem_of_mem_getLast? hd)⟩
  | @op sign f h hslash =>
    have hall : ∀ sign ∈ operatorSigns, (sign.toList.any isBlank) = false := by decide
    have hsign : ∀ c ∈ sign.toList, isBlank c = false := fun c hc =>
      Bool.eq_false_iff.2 (any_eq_false.1 (hall sign (operatorAt?_eq_some h).1) c hc)
    exact ⟨fun c hc => hsign c (mem_of_mem_head? hc), fun c hc => hsign c (mem_of_mem_getLast? hc)⟩

end StoryMarkup.Script
