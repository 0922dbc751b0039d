import Mathlib.Tactic.Lemma
import StoryMarkup.Text.Blank
import StoryMarkup.Text.Span

/-! Cursors between two parts of a text. Moving past the first part leads to the second. -/
namespace StoryMarkup.Text

open List

variable {t s : List Char} {p : Char → Bool} {n : Nat} (pos : Nat) (cs : List Char)

lemma foldl_utf8Size (n : Nat) : cs.foldl (fun n c => n + c.utf8Size) n = n + byteLength cs := by
  induction cs generalizing n with
  | nil => rfl
  | cons c cs ih =>
    have h : byteLength (c :: cs) = 0 + c.utf8Size + byteLength cs := ih (0 + c.utf8Size)
    rw [foldl_cons, ih, h]
    omega

@[simp]
lemma byteLength_nil : byteLength [] = 0 := rfl

@[simp]
lemma byteLength_cons (c : Char) (cs : List Char) : byteLength (c :: cs) = c.utf8Size + byteLength cs := by
  have h : byteLength (c :: cs) = 0 + c.utf8Size + byteLength cs := foldl_utf8Size cs (0 + c.utf8Size)
  omega

@[simp]
lemma byteLength_append (s t : List Char) : byteLength (s ++ t) = byteLength s + byteLength t := by
  induction s with
  | nil => simp
  | cons c s ih =>
    rw [cons_append, byteLength_cons, byteLength_cons, ih]
    omega

lemma length_le_byteLength : cs.length ≤ byteLength cs := by
  induction cs with
  | nil => exact Nat.le_refl 0
  | cons c cs ih =>
    have := c.utf8Size_pos
    rw [byteLength_cons, length_cons]
    omega

lemma byteLength_pos {cs : List Char} (h : cs ≠ []) : 0 < byteLength cs :=
  Nat.lt_of_lt_of_le (length_pos_iff.2 h) (length_le_byteLength cs)

lemma dropBytes?_cons (c : Char) (n : Nat) : dropBytes? (c :: cs) (c.utf8Size + n) = dropBytes? cs n := by
  obtain ⟨m, hm⟩ := Nat.exists_eq_add_one.2 c.utf8Size_pos
  simp [hm, Nat.add_right_comm m, dropBytes?]

lemma takeBytes?_cons (c : Char) (n : Nat) : takeBytes? (c :: cs) (c.utf8Size + n) =
    (takeBytes? cs n).map (c :: ·) := by
  obtain ⟨m, hm⟩ := Nat.exists_eq_add_one.2 c.utf8Size_pos
  simp [hm, Nat.add_right_comm m, takeBytes?]

lemma dropBytes?_append (s t : List Char) : dropBytes? (s ++ t) (byteLength s) = some t := by
  induction s with
  | nil => cases t <;> rfl
  | cons c s ih => rw [cons_append, byteLength_cons, dropBytes?_cons, ih]

lemma exists_append_of_dropBytes? {src : List Char} (h : (dropBytes? src n).isSome = true) :
    ∃ pre rest, src = pre ++ rest ∧ n = byteLength pre := by
  fun_induction dropBytes? src n with
  | case1 cs => exact ⟨[], cs, rfl, rfl⟩
  | case2 => cases h
  | case3 c cs n hle ih =>
    obtain ⟨pre, rest, rfl, hn⟩ := ih h
    refine ⟨c :: pre, rest, rfl, ?_⟩
    rw [byteLength_cons]
    omega
  | case4 => cases h

lemma exists_append_of_le {pre rest : List Char} (h : (dropBytes? (pre ++ rest) n).isSome = true)
    (hle : byteLength pre ≤ n) : ∃ s t, rest = s ++ t ∧ n = byteLength pre + byteLength s := by
  obtain ⟨pre', rest', hsplit, rfl⟩ := exists_append_of_dropBytes? h
  obtain ⟨s, rfl, hs⟩ | ⟨s, rfl, hs⟩ := append_eq_append_iff.1 hsplit
  · exact ⟨s, rest', hs, byteLength_append _ _⟩
  · rw [byteLength_append] at hle ⊢
    exact ⟨[], rest, rfl, by rw [byteLength_nil]; omega⟩

lemma takeBytes?_append (s t : List Char) : takeBytes? (s ++ t) (byteLength s) = some s := by
  induction s with
  | nil => cases t <;> rfl
  | cons c s ih =>
    rw [cons_append, byteLength_cons, takeBytes?_cons, ih]
    rfl

lemma extract?_append (pre t f : List Char) :
    Span.extract? ⟨byteLength pre, byteLength pre + byteLength t⟩ (pre ++ (t ++ f)) = some t := by
  simp [Span.extract?, dropBytes?_append, takeBytes?_append]

lemma eq_append_of_takeBytes? {cs : List Char} (h : takeBytes? cs n = some t) :
    ∃ rest, cs = t ++ rest ∧ byteLength t = n := by
  fun_induction takeBytes? cs n generalizing t with
  | case1 cs =>
    cases h
    exact ⟨cs, rfl, rfl⟩
  | case3 c cs n hle ih =>
    obtain ⟨t, ht, rfl⟩ := Option.map_eq_some_iff.1 h
    obtain ⟨rest, rfl, hlength⟩ := ih ht
    refine ⟨rest, rfl, ?_⟩
    rw [byteLength_cons, hlength]
    omega
  | _ => cases h

lemma takeWhile_append_of_head (hs : ∀ c ∈ s, p c = true) (ht : ∀ c ∈ t.head?, p c = false) :
    (s ++ t).takeWhile p = s := by
  rw [takeWhile_append_of_pos hs]
  cases t with
  | nil => simp
  | cons c t => rw [takeWhile_cons_of_neg (by simp [ht c rfl]), append_nil]

lemma dropWhile_append_of_head (hs : ∀ c ∈ s, p c = true) (ht : ∀ c ∈ t.head?, p c = false) :
    (s ++ t).dropWhile p = t := by
  rw [dropWhile_append_of_pos hs]
  cases t with
  | nil => rfl
  | cons c t => exact dropWhile_cons_of_neg (by simp [ht c rfl])

lemma head?_dropWhile : ∀ c ∈ (cs.dropWhile p).head?, p c = false := by
  intro c hc
  have := head?_dropWhile_not p cs
  rw [hc] at this
  simpa using this

namespace Cursor

lemma ofOffset_append (s t : List Char) : ofOffset (s ++ t) (byteLength s) = ⟨byteLength s, t⟩ := by
  rw [ofOffset, dropBytes?_append]
  rfl

lemma upTo_append (s t : List Char) : upTo ⟨pos, s ++ t⟩ (pos + byteLength s) = s := by
  rw [upTo, Nat.add_sub_cancel_left, takeBytes?_append]
  rfl

lemma skip_append (s t : List Char) : skip ⟨pos, s ++ t⟩ s.length = ⟨pos + byteLength s, t⟩ := by
  rw [skip, take_left, drop_left]

lemma skip_one (c : Char) (cs : List Char) : skip ⟨pos, c :: cs⟩ 1 = ⟨pos + c.utf8Size, cs⟩ := by
  simp [skip]

lemma skipWhile_append (hs : ∀ c ∈ s, p c = true) (ht : ∀ c ∈ t.head?, p c = false) :
    skipWhile p ⟨pos, s ++ t⟩ = ⟨pos + byteLength s, t⟩ := by
  rw [skipWhile, takeWhile_append_of_head hs ht, dropWhile_append_of_head hs ht]

lemma runWhile_append (hs : ∀ c ∈ s, p c = true) (ht : ∀ c ∈ t.head?, p c = false) : runWhile p ⟨pos, s ++ t⟩ = s :=
  takeWhile_append_of_head hs ht

end Cursor
end StoryMarkup.Text
