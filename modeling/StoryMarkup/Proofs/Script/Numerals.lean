import StoryMarkup.Proofs.Script.Scanners

/-! Numbers as texts. What follows a number may be changed while the number would not go on with
it. -/
namespace StoryMarkup.Script

open List Text Bool
variable {c : Char} {f g cs t : List Char} {p : Char → Bool}

/-! What may change behind a token. -/

def isTelling (c : Char) : Bool :=
  isAsciiDigit c || ['.', 'e', 'E', 'x', 'X', '=', '*', '&', '|', '?', '>', '+', '-'].contains c

/-- The second text differs from the first from a place on where both have a character that is not
telling, or where the first has a blank and the second ends. -/
inductive Shift : List Char → List Char → Prop
  | refl (f : List Char) : Shift f f
  | cons (c : Char) {f g : List Char} (h : Shift f g) : Shift (c :: f) (c :: g)
  | head {a b : Char} {f g : List Char} (ha : isTelling a = false) (hb : isTelling b = false) (hslash : b ≠ '/')
    (hstart : isIdentStart a = true → isIdentStart b = true) : Shift (a :: f) (b :: g)
  | gone {a : Char} {f : List Char} (ha : isBlank a = true) : Shift (a :: f) []

lemma isTelling_of_isAsciiDigit (h : isAsciiDigit c = true) : isTelling c = true := by
  simp [isTelling, h]

lemma isBlank_eq_false_of_range (h : 32 < c.toNat ∧ c.toNat < 127) : isBlank c = false := by
  simp only [isBlank, or_eq_false_iff, and_eq_false_iff, decide_eq_false_iff_not, beq_eq_false_iff_ne]
  omega

lemma isBlank_eq_false_of_isAsciiLetter (h : isAsciiLetter c = true) : isBlank c = false := by
  simp only [isAsciiLetter, or_eq_true, and_eq_true, decide_eq_true_eq, Char.le_def,
    UInt32.le_iff_toNat_le, Char.reduceVal, UInt32.reduceToNat] at h
  exact isBlank_eq_false_of_range (by rw [Char.toNat]; omega)

lemma isBlank_eq_false_of_isAsciiHexDigit (h : isAsciiHexDigit c = true) : isBlank c = false := by
  simp only [isAsciiHexDigit, isAsciiDigit, or_eq_true, and_eq_true, decide_eq_true_eq, Char.le_def,
    UInt32.le_iff_toNat_le, Char.reduceVal, UInt32.reduceToNat] at h
  exact isBlank_eq_false_of_range (by rw [Char.toNat]; omega)

lemma isBlank_eq_false_of_isTelling (h : isTelling c = true) : isBlank c = false := by
  rw [isTelling, or_eq_true, contains_iff_mem] at h
  rcases h with h | h
  · exact isBlank_eq_false_of_isAsciiHexDigit (by simp [isAsciiHexDigit, h])
  · simpa using (@List.all_eq_true _ (!isBlank ·) _).1 (by decide) c h

lemma eq_false_of_isBlank (hp : p c = true → isBlank c = false) (h : isBlank c = true) : p c = false :=
  eq_false_iff.2 fun hc => eq_false_iff.1 (hp hc) h

lemma ne_of_isBlank {d : Char} (hc : isBlank c = true) (hd : isBlank d = false) : c ≠ d := by
  rintro rfl
  simp [hc] at hd

lemma isTelling_eq_false_of_isBlank (h : isBlank c = true) : isTelling c = false :=
  eq_false_of_isBlank isBlank_eq_false_of_isTelling h

lemma isAsciiDigit_eq_false_of_isBlank (h : isBlank c = true) : isAsciiDigit c = false :=
  eq_false_of_isBlank (fun hc => isBlank_eq_false_of_isTelling (isTelling_of_isAsciiDigit hc)) h

lemma isBlank_eq_false_of_isIdentPart (h : isIdentPart c = true) : isBlank c = false := by
  refine eq_false_iff.2 fun hblank => ?_
  have hdigit := isAsciiDigit_eq_false_of_isBlank hblank
  have hletter := eq_false_of_isBlank isBlank_eq_false_of_isAsciiLetter hblank
  have hunder : c ≠ '_' := ne_of_isBlank hblank (by decide)
  have hdollar : c ≠ '$' := ne_of_isBlank hblank (by decide)
  simp [isIdentPart, isAlphanumeric, isAlphabetic, isNumeric, hdigit, hletter, hunder, hdollar, hblank] at h

lemma isIdentPart_of_isIdentStart (h : isIdentStart c = true) : isIdentPart c = true := by
  simp only [isIdentStart, isIdentPart, isAlphanumeric, or_eq_true] at h ⊢
  rcases h with (h | h) | h
  · exact .inl (.inl (.inl h))
  · exact .inl (.inr h)
  · exact .inr h

namespace Shift

lemma append (t : List Char) (h : Shift f g) : Shift (t ++ f) (t ++ g) := by
  induction t with
  | nil => exact h
  | cons c t ih => exact .cons c ih

lemma of_telling (h : Shift (c :: f) g) (hc : isTelling c = true) : ∃ g', g = c :: g' ∧ Shift f g' := by
  cases h with
  | refl => exact ⟨f, rfl, .refl f⟩
  | cons _ h => exact ⟨_, rfl, h⟩
  | head ha => simp [ha] at hc
  | gone ha => simp [isTelling_eq_false_of_isBlank ha] at hc

lemma drop (h : Shift f g) (ht : t <+: f) (hall : ∀ c ∈ t, isTelling c = true) :
    Shift (f.drop t.length) (g.drop t.length) := by
  induction t generalizing f g with
  | nil => exact h
  | cons c t ih =>
    obtain ⟨rest, rfl⟩ := ht
    obtain ⟨g, rfl, hrest⟩ := h.of_telling (hall c (by simp))
    exact ih hrest (prefix_append t rest) fun d hd => hall d (by simp [hd])

lemma take_one (h : Shift f g) : Shift (f.take 1) (g.take 1) := by
  cases h with
  | refl => exact .refl _
  | cons c => exact .refl [c]
  | head ha hb hslash hstart => exact .head ha hb hslash hstart
  | gone ha => exact .gone ha

section

variable (hp : ∀ c, p c = true → isTelling c = true)
include hp

lemma takeWhile (h : Shift f g) : g.takeWhile p = f.takeWhile p := by
  have hnot : ∀ {c}, isTelling c = false → p c = false := fun hc =>
    eq_false_iff.2 fun hpc => eq_false_iff.1 hc (hp _ hpc)
  induction h with
  | refl => rfl
  | cons c h ih => simp only [takeWhile_cons, ih]
  | head ha hb => simp [hnot ha, hnot hb]
  | gone ha => simp [hnot (isTelling_eq_false_of_isBlank ha)]

lemma any_head (h : Shift f g) : g.head?.any p = f.head?.any p := by
  have hany : ∀ cs : List Char, cs.head?.any p = !(cs.takeWhile p).isEmpty := by
    intro cs
    cases cs with
    | nil => rfl
    | cons c cs => cases hc : p c <;> simp [hc]
  rw [hany, hany, h.takeWhile hp]

end

lemma any_digit (h : Shift f g) : g.head?.any isAsciiDigit = f.head?.any isAsciiDigit :=
  h.any_head fun _ => isTelling_of_isAsciiDigit

end Shift

/-! Numerals. -/

lemma append_isPrefix {s : List Char} (hs : s <+: cs) (ht : t <+: cs.drop s.length) : s ++ t <+: cs := by
  obtain ⟨rest, rfl⟩ := hs
  rw [drop_left] at ht
  exact (prefix_append_right_inj s).2 ht

lemma mem_takeWhile (h : c ∈ cs.takeWhile p) : p c = true := all_eq_true.1 all_takeWhile c h

def isExponentLetter (c : Char) : Bool := c == 'e' || c == 'E'

def isSign (c : Char) : Bool := c == '+' || c == '-'

def signAt (cs : List Char) : List Char := (cs.take 1).takeWhile isSign

lemma isTelling_of_isExponentLetter (h : isExponentLetter c = true) : isTelling c = true := by
  simp only [isExponentLetter, or_eq_true, beq_iff_eq] at h
  rcases h with rfl | rfl <;> decide

lemma isTelling_of_isSign (h : isSign c = true) : isTelling c = true := by
  simp only [isSign, or_eq_true, beq_iff_eq] at h
  rcases h with rfl | rfl <;> decide

lemma signAt_isPrefix (cs : List Char) : signAt cs <+: cs :=
  ( takeWhile_prefix isSign).trans ( take_prefix 1 cs)

lemma exponentRun_cons (e : Char) (cs : List Char) :
    exponentRun (e :: cs) =
      let digits := (cs.drop (signAt cs).length).takeWhile isAsciiDigit
      if isExponentLetter e && !digits.isEmpty then e :: (signAt cs ++ digits) else [] := by
  have hletter : (e == 'e' || e == 'E') = isExponentLetter e := rfl
  cases cs with
  | nil => simp [exponentRun, signAt]
  | cons s cs =>
    have hsign : (s == '+' || s == '-') = isSign s := rfl
    cases hs : isSign s with
    | false => cases hd : (s :: cs).takeWhile isAsciiDigit <;> simp [exponentRun, signAt, hletter, hsign, hs, hd]
    | true => cases hd : cs.takeWhile isAsciiDigit <;> simp [exponentRun, signAt, hletter, hsign, hs, hd]

lemma exponentRun_of_shift (h : Shift f g) : exponentRun g = exponentRun f := by
  have hnot : ∀ {c : Char} {cs : List Char}, isTelling c = false → exponentRun (c :: cs) = [] := by
    intro c cs hc
    have he : isExponentLetter c = false :=
      eq_false_iff.2 fun he => eq_false_iff.1 hc (isTelling_of_isExponentLetter he)
    simp [exponentRun_cons, he]
  cases h with
  | refl => rfl
  | @cons e f g h =>
    have hsign : signAt g = signAt f := h.take_one.takeWhile fun _ => isTelling_of_isSign
    have hrest : Shift (f.drop (signAt f).length) (g.drop (signAt f).length) :=
      h.drop (signAt_isPrefix f) fun c hc => isTelling_of_isSign (mem_takeWhile hc)
    rw [exponentRun_cons, exponentRun_cons, hsign, hrest.takeWhile fun _ => isTelling_of_isAsciiDigit]
  | head ha hb => rw [hnot ha, hnot hb]
  | gone ha =>
    rw [hnot (isTelling_eq_false_of_isBlank ha)]
    rfl

lemma exponentRun_isPrefix (cs : List Char) : exponentRun cs <+: cs := by
  cases cs with
  | nil => exact prefix_rfl
  | cons e cs =>
    rw [exponentRun_cons]
    dsimp only
    split
    · exact cons_prefix_cons.2 ⟨rfl, append_isPrefix (signAt_isPrefix cs) ( takeWhile_prefix _)⟩
    · exact nil_prefix

lemma isTelling_of_mem_exponentRun (h : c ∈ exponentRun cs) : isTelling c = true := by
  cases cs with
  | nil => cases h
  | cons e cs =>
    rw [exponentRun_cons] at h
    dsimp only at h
    split at h
    · rename_i he
      rw [and_eq_true] at he
      rcases mem_cons.1 h with rfl | h
      · exact isTelling_of_isExponentLetter he.1
      rcases mem_append.1 h with h | h
      · exact isTelling_of_isSign (mem_takeWhile h)
      · exact isTelling_of_isAsciiDigit (mem_takeWhile h)
    · cases h

lemma fractionRun_isPrefix (cs : List Char) : fractionRun cs <+: cs := by
  fun_cases fractionRun cs with
  | case1 c cs => exact cons_prefix_cons.2 ⟨rfl, takeWhile_prefix _⟩
  | case3 c cs => exact cons_prefix_cons.2 ⟨rfl, nil_prefix⟩
  | case4 => exact prefix_rfl
  | _ => exact nil_prefix

lemma isTelling_of_mem_fractionRun (h : c ∈ fractionRun cs) : isTelling c = true := by
  have hpoint : isTelling '.' = true := by decide
  revert h
  fun_cases fractionRun cs with
  | case1 d cs hd =>
    intro h
    rcases mem_cons.1 h with rfl | h
    · exact hpoint
    · exact isTelling_of_isAsciiDigit (mem_takeWhile h)
  | _ => simp +contextual [hpoint]

/-- The places of a number are read the same before whatever is no digit; a lone point belongs to
the number as long as no name follows it. -/
theorem fractionRun_of_shift (h : Shift f g)
    (hpoint : fractionRun f = ['.'] → ∀ c ∈ (g.drop 1).head?, (f.drop 1).head? = some c ∨
    isIdentStart c = false) : fractionRun g = fractionRun f := by
  have hother : ∀ {c : Char} {cs : List Char}, c ≠ '.' → fractionRun (c :: cs) = [] := by
    intro c cs hc
    unfold fractionRun
    split
    · rename_i heq
      exact absurd (cons.inj heq).1 hc
    · rfl
  have hnot : ∀ {c : Char}, isTelling c = false → c ≠ '.' ∧ isAsciiDigit c = false := by
    intro c hc
    simp only [isTelling, or_eq_false_iff, contains_cons, beq_eq_false_iff_ne] at hc
    exact ⟨hc.2.1, hc.1⟩
  cases h with
  | refl => rfl
  | head ha hb => rw [hother (hnot ha).1, hother (hnot hb).1]
  | gone ha =>
    rw [hother (ne_of_isBlank ha (by decide))]
    rfl
  | @cons c f g h =>
    by_cases hc : c = '.'
    · subst hc
      cases h with
      | refl => rfl
      | @cons d f g h => simp only [fractionRun, (h.cons d).takeWhile fun _ => isTelling_of_isAsciiDigit]
      | @head a b f g ha hb _ hstart =>
        obtain ⟨hapoint, hadigit⟩ := hnot ha
        obtain ⟨hbpoint, hbdigit⟩ := hnot hb
        cases hname : isIdentStart a with
        | true => simp [fractionRun, hadigit, hbdigit, hname, hstart hname]
        | false =>
          have hlone : fractionRun ('.' :: a :: f) = ['.'] := by simp [fractionRun, hadigit, hname, hapoint]
          have hbname : isIdentStart b = false := by
            rcases hpoint hlone b rfl with hsame | hbname
            · obtain rfl : a = b := by simpa using hsame
              exact hname
            · exact hbname
          rw [hlone]
          simp [fractionRun, hbdigit, hbname, hbpoint]
      | @gone a f ha =>
        have hname : isIdentStart a = false :=
          eq_false_of_isBlank (fun h => isBlank_eq_false_of_isIdentPart (isIdentPart_of_isIdentStart h)) ha
        simp [fractionRun, isAsciiDigit_eq_false_of_isBlank ha, hname, ne_of_isBlank ha
          (show isBlank '.' = false by decide)]
    · rw [hother hc, hother hc]

def decimalNumeral (cs : List Char) : List Char :=
  let whole := cs.takeWhile isAsciiDigit
  let fraction := fractionRun (cs.drop whole.length)
  whole ++ fraction ++ exponentRun (cs.drop (whole.length + fraction.length))

lemma decimalNumeral_append {w fr rest : List Char} (hw : ∀ c ∈ w, isAsciiDigit c = true)
    (hhead : ∀ c ∈ (fr ++ rest).head?, isAsciiDigit c = false) (hfr : fractionRun (fr ++ rest) =
    fr) : decimalNumeral (w ++ (fr ++ rest)) = w ++ fr ++ exponentRun rest := by
  have hwhole : (w ++ (fr ++ rest)).takeWhile isAsciiDigit = w := takeWhile_append_of_head hw hhead
  have hdrop : (w ++ (fr ++ rest)).drop (w.length + fr.length) = rest := by
    rw [← append_assoc, ← length_append, drop_left]
  simp only [decimalNumeral, hwhole, drop_left, hfr, hdrop]

lemma decimalNumeral_isPrefix (cs : List Char) : decimalNumeral cs <+: cs := by
  refine append_isPrefix (append_isPrefix ( takeWhile_prefix _) (fractionRun_isPrefix _)) ?_
  rw [length_append]
  exact exponentRun_isPrefix _

lemma decimalNumeral_of_shift (h : decimalNumeral (t ++ f) = t) (hshift : Shift f g)
    (hpoint : t.getLast? = some '.' → ∀ c ∈ g.head?, f.head? = some c ∨ isIdentStart c = false) :
    decimalNumeral (t ++ g) = t := by
  have hall : Shift (t ++ f) (t ++ g) := hshift.append t
  obtain ⟨w, hw⟩ : ∃ w, (t ++ f).takeWhile isAsciiDigit = w := ⟨_, rfl⟩
  have hw' : (t ++ g).takeWhile isAsciiDigit = w := (hall.takeWhile fun _ => isTelling_of_isAsciiDigit).trans hw
  have hrest : Shift ((t ++ f).drop w.length) ((t ++ g).drop w.length) :=
    hall.drop (hw ▸ takeWhile_prefix _) fun c hc => isTelling_of_isAsciiDigit (mem_takeWhile (hw ▸ hc))
  obtain ⟨fr, hfr⟩ : ∃ fr, fractionRun ((t ++ f).drop w.length) = fr := ⟨_, rfl⟩
  obtain ⟨ex, hex⟩ : ∃ ex, exponentRun ((t ++ f).drop (w.length + fr.length)) = ex := ⟨_, rfl⟩
  have ht : w ++ fr ++ ex = t := by simpa only [decimalNumeral, hw, hfr, hex] using h
  have hfr' : fractionRun ((t ++ g).drop w.length) = fr := by
    refine (fractionRun_of_shift hrest fun hlone => ?_).trans hfr
    obtain rfl : fr = ['.'] := hfr.symm.trans hlone
    have hdrop : ∀ cs, ((t ++ cs).drop w.length).drop 1 = ex ++ cs := by
      intro cs
      simp [← ht]
    rw [hdrop, hdrop]
    cases ex with
    | nil => exact hpoint (by simp [← ht])
    | cons e ex => exact fun c hc => .inl hc
  have hexponent := hrest.drop (hfr ▸ fractionRun_isPrefix _) fun c hc => isTelling_of_mem_fractionRun (hfr ▸ hc)
  rw [drop_drop, drop_drop] at hexponent
  simpa only [decimalNumeral, hw', hfr', exponentRun_of_shift hexponent, hex] using ht

def isHexLetter (c : Char) : Bool := c == 'x' || c == 'X'

lemma isTelling_of_isHexLetter (h : isHexLetter c = true) : isTelling c = true := by
  simp only [isHexLetter, or_eq_true, beq_iff_eq] at h
  rcases h with rfl | rfl <;> decide

def isHexNumeral (cs : List Char) : Bool := cs.head? == some '0' && (cs.drop 1).head?.any isHexLetter

def numeral (cs : List Char) : List Char :=
  if isHexNumeral cs then cs.take 2 ++ (cs.drop 2).takeWhile isAsciiHexDigit else decimalNumeral cs

def numeralValue? (t : List Char) : Option Float :=
  if isHexNumeral t then (Decimal.readWord? 16 (t.drop 2)).map fun n => Decimal.ofInt n else Decimal.readUnsigned? t

lemma isHexNumeral_append (ht : t ≠ []) (hf : ∀ c ∈ f.head?, isHexLetter c = false) :
    isHexNumeral (t ++ f) = isHexNumeral t := by
  match t, f with
  | [c], [] => rw [append_nil]
  | [c], d :: f => simp [isHexNumeral, hf d rfl]
  | c :: d :: t, f => simp [isHexNumeral]

lemma exists_of_isHexNumeral (h : isHexNumeral cs = true) : ∃ x more, cs = '0' :: x :: more ∧ isHexLetter x = true := by
  match cs with
  | [] | [c] => simp [isHexNumeral] at h
  | c :: x :: more =>
    obtain ⟨rfl, hx⟩ : c = '0' ∧ isHexLetter x = true := by simpa [isHexNumeral] using h
    exact ⟨x, more, rfl, hx⟩

lemma numeral_hex {x : Char} (hx : isHexLetter x = true) (more : List Char) :
    numeral ('0' :: x :: more) = '0' :: x :: more.takeWhile isAsciiHexDigit := by
  simp [numeral, isHexNumeral, hx]

lemma numeral_of_shift (h : numeral (t ++ f) = t) (ht : t ≠ []) (hshift : Shift f g)
    (hpoint : t.getLast? = some '.' → ∀ c ∈ g.head?, f.head? = some c ∨ isIdentStart c = false)
    (hhex : isHexNumeral t = true → ∀ c ∈ g.head?, f.head? = some c ∨ isAsciiHexDigit c = false) :
    numeral (t ++ g) = t := by
  cases hform : isHexNumeral (t ++ f) with
  | true =>
    obtain ⟨x, more, hcs, hx⟩ := exists_of_isHexNumeral hform
    rw [hcs, numeral_hex hx] at h
    subst h
    have hmore : more.takeWhile isAsciiHexDigit ++ f = more := by simpa using hcs
    rw [cons_append, cons_append, numeral_hex hx]
    refine congrArg (fun ds => '0' :: x :: ds) (takeWhile_append_of_head (fun c hc => mem_takeWhile hc) fun c hc => ?_)
    refine (hhex (by simp [isHexNumeral, hx]) c hc).elim (fun hsame => ?_) id
    have hend : f = more.dropWhile isAsciiHexDigit :=
      append_cancel_left (hmore.trans takeWhile_append_dropWhile.symm)
    exact head?_dropWhile more c (hend ▸ hsame)
  | false =>
    have hform' : isHexNumeral (t ++ g) = false := by
      cases t with
      | nil => exact absurd rfl ht
      | cons c t => exact (congrArg _ ((hshift.append t).any_head fun _ => isTelling_of_isHexLetter)).trans hform
    rw [numeral, hform] at h
    rw [numeral, hform']
    exact decimalNumeral_of_shift h hshift hpoint

lemma numeral_isPrefix (cs : List Char) : numeral cs <+: cs := by
  cases hform : isHexNumeral cs with
  | true =>
    obtain ⟨x, more, rfl, hx⟩ := exists_of_isHexNumeral hform
    simpa [numeral_hex hx] using takeWhile_prefix _
  | false =>
    rw [numeral, hform]
    exact decimalNumeral_isPrefix cs

lemma scanNumber_ok_iff {k after : Cursor} {kind : TokenKind} :
    scanNumber k = .ok (kind, after) ↔
      ∃ x, numeralValue? (numeral k.rest) = some x ∧ kind = .number x ∧ after = k.skip (numeral k.rest).length := by
  obtain ⟨pos, cs⟩ := k
  cases hform : isHexNumeral cs with
  | true =>
    obtain ⟨x, more, rfl, hx⟩ := exists_of_isHexNumeral hform
    have hvalue : numeralValue? ('0' :: x :: more.takeWhile isAsciiHexDigit) =
        (Decimal.readWord? 16 (more.takeWhile isAsciiHexDigit)).map fun n => Decimal.ofInt n := by
      simp [numeralValue?, isHexNumeral, hx]
    simp only [numeral_hex hx, hvalue]
    simp only [scanNumber, show (x == 'x' || x == 'X') = true from hx, if_true]
    cases Decimal.readWord? 16 (more.takeWhile isAsciiHexDigit) with
    | none => simp [fail]
    | some n => simp [eq_comm]
  | false =>
    have hdecimal : scanNumber ⟨pos, cs⟩ = scanNumber.decimal ⟨pos, cs⟩ := by
      unfold scanNumber
      split
      · rename_i x more heq
        subst heq
        have hx : (x == 'x' || x == 'X') = false := by simpa [isHexNumeral, isHexLetter] using hform
        simp [hx]
      · rfl
    have hnot : isHexNumeral (decimalNumeral cs) = false := by
      refine eq_false_iff.2 fun hhex => ?_
      obtain ⟨x, more, heq, hx⟩ := exists_of_isHexNumeral hhex
      obtain ⟨rest, rfl⟩ := heq ▸ decimalNumeral_isPrefix cs
      simp [isHexNumeral, hx] at hform
    rw [hdecimal, numeral, hform]
    simp only [false_eq_true, if_false, numeralValue?, hnot]
    unfold scanNumber.decimal decimalNumeral
    dsimp only
    generalize Decimal.readUnsigned? _ = value
    cases value with
    | none => simp [fail]
    | some x => simp [eq_comm]

def startsNumber : List Char → Bool
  | [] => false
  | c :: cs => isAsciiDigit c || c == '.' && cs.head?.any isAsciiDigit

lemma numeral_ne_nil (h : startsNumber cs = true) : numeral cs ≠ [] := by
  cases hform : isHexNumeral cs with
  | true =>
    obtain ⟨x, more, rfl, hx⟩ := exists_of_isHexNumeral hform
    simp [numeral_hex hx]
  | false =>
    match cs with
    | c :: cs =>
      rw [startsNumber, or_eq_true, and_eq_true, beq_iff_eq] at h
      rcases h with hdigit | ⟨rfl, hdigit⟩
      · simp [numeral, hform, decimalNumeral, hdigit]
      · cases cs with
        | nil => cases hdigit
        | cons d cs =>
          have hd : isAsciiDigit d = true := hdigit
          simp [numeral, hform, decimalNumeral, fractionRun, hd, show isAsciiDigit '.' = false by decide]

lemma isBlank_eq_false_of_mem_numeral (h : c ∈ numeral cs) : isBlank c = false := by
  cases hform : isHexNumeral cs with
  | true =>
    obtain ⟨x, more, rfl, hx⟩ := exists_of_isHexNumeral hform
    rw [numeral_hex hx] at h
    rcases mem_cons.1 h with rfl | h
    · decide
    rcases mem_cons.1 h with rfl | h
    · exact isBlank_eq_false_of_isTelling (isTelling_of_isHexLetter hx)
    · exact isBlank_eq_false_of_isAsciiHexDigit (mem_takeWhile h)
  | false =>
    rw [numeral, hform] at h
    apply isBlank_eq_false_of_isTelling
    rcases mem_append.1 h with h | h
    · rcases mem_append.1 h with h | h
      · exact isTelling_of_isAsciiDigit (mem_takeWhile h)
      · exact isTelling_of_mem_fractionRun h
    · exact isTelling_of_mem_exponentRun h

end StoryMarkup.Script
