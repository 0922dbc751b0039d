import Mathlib.Data.Finset.Card
import Mathlib.Logic.Relation

/-! Walks along a relation. Where no place comes back to itself a walk is no longer than there are
places. -/
namespace StoryMarkup

open Relation (TransGen ReflTransGen)

variable {α β : Type} {step : α → α → Prop} {places : Finset α} {a b : α}

open Classical in
lemma exists_rank (hplaces : ∀ a b, step a b → a ∈ places) :
    ∃ rank : α → Nat, (∀ a b, step a b → ¬ TransGen step a a → rank b < rank a) ∧ ∀ a, rank a ≤ places.card := by
  refine ⟨fun a => (places.filter (ReflTransGen step a)).card, fun a b hab hloop => ?_, fun a => ?_⟩
  · apply Finset.card_lt_card
    rw [Finset.ssubset_iff_of_subset]
    · refine ⟨a, ?_, ?_⟩
      · simp [hplaces a b hab, ReflTransGen.refl]
      · simpa [hplaces a b hab] using fun hba => hloop (.head' hab hba)
    · intro c hc
      rw [Finset.mem_filter] at hc ⊢
      exact ⟨hc.1, .head hab hc.2⟩
  · exact Finset.card_filter_le _ _

def LoopFree (step : α → α → Prop) (a : α) : Prop := ∀ b, ReflTransGen step a b → ¬ TransGen step b b

lemma LoopFree.next (ha : LoopFree step a) (hab : step a b) : LoopFree step b :=
  fun c hbc => ha c (.head hab hbc)

lemma LoopFree.of_reaches (ha : LoopFree step a) (hab : ReflTransGen step a b) : LoopFree step b :=
  fun c hbc => ha c (hab.trans hbc)

lemma LoopFree.acc (hplaces : ∀ a b, step a b → a ∈ places) (ha : LoopFree step a) : Acc (fun b a => step a b) a := by
  obtain ⟨rank, hlower, -⟩ := exists_rank hplaces
  induction hn : rank a using Nat.strongRecOn generalizing a with
  | ind n ih =>
    refine .intro a fun b hab => ih (rank b) ?_ (ha.next hab) rfl
    exact hn ▸ hlower a b hab (ha a .refl)

lemma loopFree_of_acc (ha : Acc (fun b a => step a b) a) : LoopFree step a := by
  intro b hab
  have hb : Acc (fun b a => step a b) b := by
    induction hab with
    | refl => exact ha
    | tail _ hstep ih => exact ih.inv hstep
  clear hab ha
  induction hb with
  | intro b _ ih =>
    intro hloop
    obtain ⟨c, hbc, hcb⟩ := TransGen.head'_iff.1 hloop
    exact ih c hbc (TransGen.tail' hcb hbc)

/-- A walk that looks at nothing but a place and what it found one step on comes to the same answer
whenever it may go on for long enough. -/
theorem LoopFree.walk_eq (hplaces : ∀ a b, step a b → a ∈ places) {walk : Nat → α → β} (ha : LoopFree step a)
    (hlocal : ∀ k m b, ReflTransGen step a b → (∀ c, step b c → walk k c = walk m c) → walk (k + 1) b = walk (m + 1) b)
    {k m : Nat} (hk : places.card < k) (hm : places.card < m) : walk k a = walk m a := by
  obtain ⟨rank, hlower, hle⟩ := exists_rank hplaces
  suffices hwalk : ∀ k m b, ReflTransGen step a b → rank b < k → rank b < m → walk k b =
    walk m b from hwalk k m a .refl (Nat.lt_of_le_of_lt (hle a) hk) (Nat.lt_of_le_of_lt (hle a) hm)
  intro k
  induction k with
  | zero => intro m b _ hk; omega
  | succ k ih =>
    intro m b hab hk hm
    obtain _ | m := m
    · omega
    refine hlocal k m b hab fun c hbc => ?_
    have hlt := hlower b c hbc (ha b hab)
    exact ih m c (hab.tail hbc) (by omega) (by omega)

/-! Relations that differ in the steps from one place. -/

section Agreeing

variable {other : α → α → Prop} {c : α} (hagree : ∀ a b, a ≠ c → (other a b ↔ step a b))
include hagree

lemma reaches_of_agree (h : ReflTransGen step a c) : ReflTransGen other a c := by
  induction h using ReflTransGen.head_induction_on with
  | refl => exact .refl
  | @head a b hab _ ih =>
    by_cases hac : a = c
    · rw [hac]
    · exact .head ((hagree a b hac).2 hab) ih

lemma transGen_of_agree (h : TransGen other a b) :
    TransGen step a b ∨ ReflTransGen other a c ∧ ∃ d, other c d ∧ ReflTransGen other d b := by
  induction h with
  | @single b hab =>
    by_cases hac : a = c
    · exact .inr ⟨hac ▸ .refl, b, hac ▸ hab, .refl⟩
    · exact .inl (.single ((hagree a b hac).1 hab))
  | @tail b e hab hbe ih =>
    by_cases hbc : b = c
    · exact .inr ⟨hbc ▸ hab.to_reflTransGen, e, hbc ▸ hbe, .refl⟩
    · obtain h | ⟨hac, d, hcd, hdb⟩ := ih
      · exact .inl (h.tail ((hagree b e hbc).1 hbe))
      · exact .inr ⟨hac, d, hcd, hdb.tail hbe⟩

/-- If nothing came back to itself, something does now just if a step from the place leads where it
is come to from. -/
theorem noLoop_iff_of_agree (hloop : ∀ a, ¬ TransGen step a a) :
    (∀ a, ¬ TransGen other a a) ↔ ∀ d, other c d → ¬ ReflTransGen step d c := by
  refine ⟨fun h d hcd hdc => h c (.head' hcd (reaches_of_agree hagree hdc)), fun h a ha => ?_⟩
  obtain ha | ⟨hac, d, hcd, hda⟩ := transGen_of_agree hagree ha
  · exact hloop a ha
  · exact h d hcd (reaches_of_agree (fun a b hne => (hagree a b hne).symm) (hda.trans hac))

end Agreeing

end StoryMarkup
