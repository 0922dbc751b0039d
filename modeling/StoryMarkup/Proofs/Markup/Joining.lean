import StoryMarkup.Proofs.Markup.Expressions

/-!
Phrases one behind the other. Sigils are written out in each of two phrases on its own.
-/
namespace StoryMarkup.Script

open Text

variable {y : Phrase} {free : Bool} {cs : List Char}

namespace Phrase

@[simp]
def append : Phrase → Phrase → Phrase
  | .done, y => y
  | .blank c rest, y => .blank c (rest.append y)
  | .comment newlines t rest, y => .comment newlines t (rest.append y)
  | .word kind t rest, y => .word kind t (rest.append y)
  | .template body rest, y => .template body (rest.append y)

def patternBehind (p : Bool) : Phrase → Bool
  | .done => p
  | .blank _ rest | .comment _ _ rest => rest.patternBehind p
  | .word kind _ rest => rest.patternBehind kind.allowsPattern
  | .template _ rest => rest.patternBehind false

@[simp]
lemma text_append (y x : Phrase) : (x.append y).text = x.text ++ y.text := by
  cases x with
  | done => rfl
  | blank c rest => exact congrArg (c :: ·) (text_append y rest)
  | comment _ _ rest | word _ _ rest | template _ rest => simp [append, text, text_append y rest]

lemma valid_append {f : List Char} : (x : Phrase) → ∀ {p : Bool},
    (x.append y).Valid p f ↔ x.Valid p (y.text ++ f) ∧ y.Valid (x.patternBehind p) f
  | .done, p => by simp [append, Valid, patternBehind]
  | .blank _ rest, p | .comment _ _ rest, p | .word _ _ rest, p | .template _ rest, p => by
    simp [append, Valid, patternBehind, valid_append rest, text_append, and_assoc]

lemma depth_append (y x : Phrase) : (x.append y).depth = max x.depth y.depth := by
  cases x with
  | done => exact (Nat.zero_max _).symm
  | blank _ rest | comment _ _ rest | word _ _ rest => exact depth_append y rest
  | template _ rest => simp only [append, depth, depth_append y rest, Nat.max_assoc]

lemma nested_append {outer : List Bracket} (hy : y.Nested true outer) : (x : Phrase) →
    ∀ {opened : List Bracket}, x.Nested free opened → (x.append y).Nested true (opened ++ outer)
  | .done, opened, hx => by
    obtain rfl : opened = [] := hx
    exact hy
  | .blank _ rest, _, hx => nested_append hy rest hx
  | .comment _ _ rest, _, hx => nested_append hy rest hx
  | .template _ rest, _, hx => ⟨hx.1, nested_append hy rest hx.2⟩
  | .word kind _ rest, opened, hx => by
    cases kind with
    | opening b => exact nested_append hy rest hx
    | closing b =>
      obtain ⟨inner, rfl, hrest⟩ := hx
      exact ⟨inner ++ outer, rfl, nested_append hy rest hrest⟩
    | comma => exact ⟨fun _ => rfl, nested_append hy rest hx.2⟩
    | _ => exact nested_append hy rest hx

lemma nested_append_blanks : (x : Phrase) → ∀ opened,
    (x.append (blanks cs .done)).Nested free opened ↔ x.Nested free opened
  | .done, _ => nested_blanks
  | .blank _ rest, opened | .comment _ _ rest, opened => nested_append_blanks rest opened
  | .word _ _ rest, opened => nested_word_congr (nested_append_blanks rest) opened
  | .template _ rest, opened => and_congr_right fun _ => nested_append_blanks rest opened

end Phrase

lemma dropWhile_blanks (hcs : ∀ c ∈ cs, isBlank c = true) : cs.dropWhile isBlank = [] := by
  have := dropWhile_append_of_head (s := cs) (t := []) hcs (by simp)
  rwa [List.append_nil] at this

/-! What may stand behind a phrase. -/

structure Divides (c : Char) : Prop where
  telling : isTelling c = false
  slash : c ≠ '/'
  start : isIdentStart c = false
  absorbs : ∀ kind t, absorbs kind t c = false

lemma absorbs_eq_false {c : Char} (hpart : isIdentPart c = false) (hstart : isIdentStart c = false)
    (hletter : isAsciiLetter c = false) (hhex : isAsciiHexDigit c = false) (kind : TokenKind)
    (t : List Char) : absorbs kind t c = false := by
  unfold absorbs
  split <;> simp [*]

lemma divides_comma : Divides ',' where
  telling := by decide
  slash := by decide
  start := by decide
  absorbs := absorbs_eq_false (by decide) (by decide) (by decide) (by decide)

lemma divides_closeChar (b : Bracket) : Divides b.closeChar where
  telling := by cases b <;> decide
  slash := by cases b <;> decide
  start := by cases b <;> decide
  absorbs := absorbs_eq_false (by cases b <;> decide) (by cases b <;> decide)
    (by cases b <;> decide) (by cases b <;> decide)

end StoryMarkup.Script
