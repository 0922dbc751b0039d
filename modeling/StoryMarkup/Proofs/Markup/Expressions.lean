import StoryMarkup.Proofs.Markup.Writable

/-! An expression reads as it does once its sigils are written out, where what is written is
clear. -/
namespace StoryMarkup.Script

open List Text Phrase

/-! Blanks around a phrase. -/

variable {p : Bool} {f : List Char} {x : Phrase}

namespace Phrase

def dropBlanks : Phrase → Phrase
  | .blank _ rest => rest.dropBlanks
  | x => x

@[simp]
def dropBlanksEnd : Phrase → Phrase
  | .done => .done
  | .blank c rest => if rest.dropBlanksEnd.text.isEmpty then .done else .blank c rest.dropBlanksEnd
  | .comment newlines t rest => .comment newlines t rest.dropBlanksEnd
  | .word kind t rest => .word kind t rest.dropBlanksEnd
  | .template body rest => .template body rest.dropBlanksEnd

def Uncommented : Phrase → Prop
  | .done => True
  | .comment .. => False
  | .blank _ rest | .word _ _ rest | .template _ rest => rest.Uncommented

lemma uncommented_blanks {cs : List Char} {rest : Phrase} (h : rest.Uncommented) : (blanks cs rest).Uncommented := by
  induction cs with
  | nil => exact h
  | cons c cs ih => exact ih

lemma uncommented_written (x : Phrase) (last : Option TokenKind) (glued : Bool) :
    (x.written last glued).Uncommented := by
  cases x with
  | done => trivial
  | blank _ rest => exact rest.uncommented_written last false
  | comment _ _ rest => exact uncommented_blanks (rest.uncommented_written _ true)
  | word kind t rest =>
    rw [written]
    cases writing (keepsName last glued) rest.startsName kind <;> exact rest.uncommented_written (some kind) true
  | template _ rest => exact rest.uncommented_written none true

lemma text_dropBlanks : (x : Phrase) → x.Valid p f → x.Uncommented →
    x.dropBlanks.text = x.text.dropWhile isBlank
  | .done, _, _ => rfl
  | .blank c rest, ⟨hc, hrest⟩, hx => by
    rw [dropBlanks, text_dropBlanks rest hrest hx, text, dropWhile_cons_of_pos hc]
  | .word kind t rest, ⟨hword, _, _⟩, _ => by
    obtain ⟨c, cs, rfl, -⟩ := hword.reads
    have hc : isBlank c = false := hword.not_blank.1 c rfl
    exact (dropWhile_cons_of_neg (by simp [hc])).symm
  | .template body rest, _, _ => (dropWhile_cons_of_neg (by decide)).symm

lemma valid_dropBlanks : (x : Phrase) → x.Valid p f → x.dropBlanks.Valid p f
  | .blank _ rest, ⟨_, hrest⟩ => rest.valid_dropBlanks hrest
  | .done, h | .comment .., h | .word .., h | .template .., h => h

lemma uncommented_dropBlanks : (x : Phrase) → x.Uncommented → x.dropBlanks.Uncommented
  | .blank _ rest, h => rest.uncommented_dropBlanks h
  | .done, h | .word .., h | .template .., h => h

lemma depth_dropBlanks : (x : Phrase) → x.dropBlanks.depth = x.depth
  | .blank _ rest => rest.depth_dropBlanks
  | .done | .comment .. | .word .. | .template .. => rfl

lemma entries_dropBlanks (keep glued glued' : Bool) : (x : Phrase) →
    (x.dropBlanks.entries keep glued).map Entry.mark = (x.entries keep glued').map Entry.mark
  | .blank _ rest => rest.entries_dropBlanks keep glued false
  | .done | .word .. | .template .. => rfl
  | .comment .. => by cases keep <;> rfl

end Phrase

lemma dropBlankEnd_append {s : List Char} (hs : ∀ c ∈ s.getLast?, isBlank c = false)
    (t : List Char) : dropBlankEnd (s ++ t) = s ++ dropBlankEnd t := by
  have hhead : s.reverse.dropWhile isBlank = s.reverse := by
    have := dropWhile_append_of_head (p := isBlank) (s := []) (t := s.reverse) (by simp) (by simpa using hs)
    exact this
  rw [dropBlankEnd, dropBlankEnd, reverse_append, dropWhile_append, hhead]
  split
  · rename_i hempty
    rw [reverse_reverse, isEmpty_iff.1 hempty]
    simp
  · simp

lemma dropBlankEnd_blank {c : Char} (hc : isBlank c = true) (cs : List Char) :
    dropBlankEnd (c :: cs) = if (dropBlankEnd cs).isEmpty then [] else c :: dropBlankEnd cs := by
  simp only [dropBlankEnd, reverse_cons, dropWhile_append, isEmpty_reverse]
  split
  · simp [hc]
  · simp

lemma Quote.getLast?_text (q : Quote) : q.text.getLast? = some backquote := by
  cases q with
  | done => rfl
  | piece _ raw rest => rw [Quote.text, getLast?_append, rest.getLast?_text, Option.some_or]
  | hole inner rest =>
    have hsplit : (Quote.hole inner rest).text = ('$' :: '{' :: (inner.text ++ ['}'])) ++
      rest.text := by simp [Quote.text]
    rw [hsplit, getLast?_append, rest.getLast?_text, Option.some_or]

namespace Phrase

lemma eq_done_of_text (hx : x.Valid p f) (h : x.text = []) : x = .done := by
  cases x with
  | done => rfl
  | blank => cases h
  | comment | word => exact absurd (append_eq_nil_iff.1 h).1 hx.1.ne_nil
  | template => cases h

lemma text_dropBlanksEnd {p : Bool} {f : List Char} : (x : Phrase) → x.Valid p f → x.Uncommented →
    x.dropBlanksEnd.text = dropBlankEnd x.text
  | .done, _, _ => rfl
  | .blank c rest, ⟨hc, hrest⟩, hx => by
    rw [dropBlanksEnd, text, dropBlankEnd_blank hc, ← text_dropBlanksEnd rest hrest hx]
    split <;> rfl
  | .word kind t rest, ⟨hword, _, hrest⟩, hx => by
    rw [dropBlanksEnd, text, text, text_dropBlanksEnd rest hrest hx, dropBlankEnd_append hword.not_blank.2]
  | .template body rest, ⟨_, hrest⟩, hx => by
    have hquote : ∀ c ∈ (backquote :: body.text).getLast?, isBlank c = false := by
      rw [getLast?_cons, body.getLast?_text]
      rintro c ⟨⟩
      decide
    rw [dropBlanksEnd, text, text, text_dropBlanksEnd rest hrest hx, ← cons_append, ← cons_append,
      dropBlankEnd_append hquote]

lemma shift_dropBlanksEnd {p : Bool} {f : List Char} : (x : Phrase) → x.Valid p f → Shift x.text x.dropBlanksEnd.text
  | .done, _ => .refl []
  | .blank c rest, ⟨hc, hrest⟩ => by
    rw [dropBlanksEnd]
    split
    · exact .gone hc
    · exact .cons c (rest.shift_dropBlanksEnd hrest)
  | .comment _ t rest, ⟨_, hrest⟩ => (rest.shift_dropBlanksEnd hrest).append t
  | .word _ t rest, ⟨_, _, hrest⟩ => (rest.shift_dropBlanksEnd hrest).append t
  | .template body rest, ⟨_, hrest⟩ => .cons backquote ((rest.shift_dropBlanksEnd hrest).append body.text)

lemma head?_dropBlanksEnd : (x : Phrase) → ∀ c ∈ x.dropBlanksEnd.text.head?, x.text.head? = some c
  | .done, _, h => h
  | .blank c rest, d, h => by
    rw [dropBlanksEnd] at h
    split at h
    · cases h
    · exact h
  | .comment _ t rest, d, h => by
    cases t with
    | nil => exact rest.head?_dropBlanksEnd d h
    | cons => exact h
  | .word _ t rest, d, h => by
    cases t with
    | nil => exact rest.head?_dropBlanksEnd d h
    | cons => exact h
  | .template _ _, _, h => h

lemma valid_dropBlanksEnd {p : Bool} : (x : Phrase) → x.Valid p [] → x.Uncommented → x.dropBlanksEnd.Valid p []
  | .done, _, _ => trivial
  | .blank c rest, ⟨hc, hrest⟩, hx => by
    rw [dropBlanksEnd]
    split
    · trivial
    · exact ⟨hc, rest.valid_dropBlanksEnd hrest hx⟩
  | .word kind t rest, ⟨hword, hcomment, hrest⟩, hx => by
    have hshift := rest.shift_dropBlanksEnd hrest
    rw [append_nil] at hword hcomment
    refine ⟨?_, ?_, rest.valid_dropBlanksEnd hrest hx⟩
    · rw [append_nil]
      exact hword.of_shift hshift (fun c hc => .inl (rest.head?_dropBlanksEnd c hc)) fun _ => rfl
    · rw [append_nil]
      exact opensComment_of_shift hword.ne_nil hshift hcomment
  | .template body rest, ⟨hbody, hrest⟩, hx => ⟨hbody, rest.valid_dropBlanksEnd hrest hx⟩

lemma entries_dropBlanksEnd {p : Bool} (keep : Bool) : (x : Phrase) → x.Valid p [] → x.Uncommented →
    ∀ glued, x.dropBlanksEnd.entries keep glued = x.entries keep glued
  | .done, _, _, _ => rfl
  | .blank c rest, ⟨_, hrest⟩, hx, glued => by
    have hentries := entries_dropBlanksEnd keep rest hrest hx false
    rw [dropBlanksEnd]
    split
    · rename_i hempty
      have hdone := eq_done_of_text (rest.valid_dropBlanksEnd hrest hx) (isEmpty_iff.1 hempty)
      rw [hdone] at hentries
      exact hentries
    · exact hentries
  | .word kind t rest, ⟨_, _, hrest⟩, hx, glued => by
    rw [dropBlanksEnd, entries, entries, entries_dropBlanksEnd keep rest hrest hx true]
  | .template body rest, ⟨_, hrest⟩, hx, glued => by
    rw [dropBlanksEnd, entries, entries, entries_dropBlanksEnd keep rest hrest hx true]

lemma depth_dropBlanksEnd (x : Phrase) : x.dropBlanksEnd.depth ≤ x.depth := by
  cases x with
  | done => exact Nat.le_refl 0
  | blank c rest =>
    rw [dropBlanksEnd]
    split
    · exact Nat.zero_le _
    · exact rest.depth_dropBlanksEnd
  | comment _ _ rest | word _ _ rest => exact rest.depth_dropBlanksEnd
  | template body rest =>
    exact Nat.max_le.2 ⟨Nat.le_max_left _ _, Nat.le_trans rest.depth_dropBlanksEnd (Nat.le_max_right _ _)⟩

lemma exists_trimmed (hx : x.Valid true []) (hdepth : x.depth ≤ maxNesting) (hplain : x.Uncommented) :
    ∃ es, reading false (trimChars x.text) = some es ∧ es.map Entry.mark = (x.entries false true).map Entry.mark := by
  have hstart := x.valid_dropBlanks hx
  have hplainStart := x.uncommented_dropBlanks hplain
  have htext : x.dropBlanks.dropBlanksEnd.text = trimChars x.text := by
    rw [text_dropBlanksEnd _ hstart hplainStart, text_dropBlanks _ hx hplain, trimChars]
  refine ⟨x.dropBlanks.dropBlanksEnd.entries false true, ?_, ?_⟩
  · rw [← htext]
    refine reading_eq (x.dropBlanks.valid_dropBlanksEnd hstart hplainStart) ?_ false
    exact Nat.le_trans (depth_dropBlanksEnd _) (x.depth_dropBlanks.symm ▸ hdepth)
  · rw [entries_dropBlanksEnd false _ hstart hplainStart]
    exact x.entries_dropBlanks false true true

end Phrase
end StoryMarkup.Script

namespace StoryMarkup.Markup

open Script Text

/-- An expression that is written out reads as its reading with the sigils written out, when that is
clear. -/
theorem writeExpression_reads_rewritten {source : List Char} {code : String} (h : writeExpression source = .ok code) :
    ∃ all es, reading true source = some all ∧ reading false source = some es ∧
      (clear .start all = true → ∃ es', reading false code.toList = some es' ∧
      es'.map Entry.mark = rewritten none es) := by
  obtain ⟨x, rfl, hx, hdepth, -, rfl⟩ := exists_phrase_of_writeExpression h
  refine ⟨_, _, x.reading_eq hx hdepth true, x.reading_eq hx hdepth false, fun hclear => ?_⟩
  have hclear' : clear .start (x.entries true true ++ []) = true := by rwa [List.append_nil]
  have hvalid := x.valid_written hx rfl hclear' fun _ => rfl
  have hend : Breaks [] := by simp [Breaks]
  have hmarks := x.rewritten_entries hx hend hend hclear'
    (show Agree _ true none true from ⟨rfl, id, by simp [Juncture.lastKind?, Juncture.start]⟩) true
  obtain ⟨es, hread, hes⟩ := Phrase.exists_trimmed hvalid (by rwa [x.depth_written]) (x.uncommented_written _ _)
  refine ⟨es, ?_, ?_⟩
  · rw [String.toList_ofList]
    exact hread
  · rw [hes]
    simpa [rewritten] using hmarks.symm

theorem division_by_field_reads_rewritten :
    ∃ all es es', reading true "$a / _b + `${@c}`".toList = some all ∧ clear .start all = true ∧
      reading false "$a / _b + `${@c}`".toList = some es ∧
      reading false "story.a / temp.b + `${constants.c}`".toList = some es' ∧ es'.map Entry.mark =
        rewritten none es := by
  have hwrite : writeExpression "$a / _b + `${@c}`".toList = .ok "story.a / temp.b + `${constants.c}`" := rfl
  obtain ⟨all, es, hall, hes, hread⟩ := writeExpression_reads_rewritten hwrite
  have hclear : (reading true "$a / _b + `${@c}`".toList).map (clear .start) = some true := by decide +kernel
  rw [hall, Option.map_some, Option.some.injEq] at hclear
  obtain ⟨es', hes', hmarks⟩ := hread hclear
  exact ⟨all, es, es', hall, hclear, hes, hes', hmarks⟩

/-- The name of a field can be a word that has a value follow it, and a slash behind it then starts
a pattern. -/
theorem division_behind_leading_field_not_read :
    writeExpression "$of / 2".toList = .ok "story.of / 2" ∧ (reading false "$of / 2".toList).isSome
      = true ∧ reading false "story.of / 2".toList = none := by
  refine ⟨rfl, by decide +kernel, ?_⟩
  rw [← Option.isNone_iff_eq_none]
  decide +kernel

end StoryMarkup.Markup
