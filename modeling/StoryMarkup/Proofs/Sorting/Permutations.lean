import Mathlib.Tactic.Lemma
import StoryMarkup.Sorting.Basic

/-!
Sorting keeps the items. Whatever the answers to the comparisons, also if they contradict each
other, the sorted list is a permutation of the list.
-/
namespace StoryMarkup.Sorting

variable {α β γ : Type}

namespace Asking

lemma All.bind {p : β → Prop} {q : γ → Prop} {t : Asking α β} {f : β → Asking α γ} (ht : t.All p)
    (hf : ∀ r, p r → (f r).All q) : (t >>= f).All q := by
  induction t with
  | done r => exact hf r ht
  | ask x y next ih => exact fun b => ih b (ht b)

lemma All.pure {p : β → Prop} {r : β} (h : p r) : (pure r : Asking α β).All p := h

lemma All.mono {p q : β → Prop} {t : Asking α β} (ht : t.All p) (h : ∀ r, p r → q r) : t.All q := by
  induction t with
  | done r => exact h r ht
  | ask x y next ih => exact fun b => ih b (ht b)

lemma all_true (t : Asking α β) : t.All fun _ => True := by
  induction t with
  | done r => trivial
  | ask x y next ih => exact ih

/-- Nothing needs to be known of what is asked first. -/
lemma All.after {q : γ → Prop} (t : Asking α β) {f : β → Asking α γ} (hf : ∀ r, (f r).All q) : (t >>= f).All q :=
  .bind (all_true t) fun r _ => hf r

lemma All.ite {p : β → Prop} {c : Prop} [Decidable c] {t u : Asking α β} (ht : c → t.All p)
    (hu : ¬ c → u.All p) : (if c then t else u).All p := by
  split
  · exact ht ‹_›
  · exact hu ‹_›

end Asking

open Asking List

/-! Merging. -/

namespace Merging

variable {m : Merging α}

def items (m : Merging α) : List α := m.left ++ m.right ++ m.taken

/-- The items taken were the first of the lists. -/
def Since (left right : List α) (m : Merging α) : Prop :=
  ∃ a b, left = a ++ m.left ∧ right = b ++ m.right ∧ m.taken.Perm (a ++ b)

lemma Since.step {left right : List α} {m' : Merging α} (h : Since left right m)
    (hm' : m' = m.takeLeft ∨ m' = m.takeRight) : Since left right m' := by
  obtain ⟨a, b, hleft, hright, htaken⟩ := h
  obtain ⟨l, r, taken⟩ := m
  obtain rfl | rfl := hm'
  · cases l with
    | nil => exact ⟨a, b, hleft, hright, htaken⟩
    | cons x rest =>
      refine ⟨a ++ [x], b, hleft.trans (append_cons a x rest), hright, (htaken.cons x).trans ?_⟩
      rw [append_assoc]
      exact perm_middle.symm
  · cases r with
    | nil => exact ⟨a, b, hleft, hright, htaken⟩
    | cons y rest =>
      refine ⟨a, b ++ [y], hleft, hright.trans (append_cons b y rest), (htaken.cons y).trans ?_⟩
      rw [← append_assoc]
      exact (perm_append_singleton y _).symm

end Merging

lemma all_insertBackward (v : α) (sorted : List α) : (insertBackward v sorted).All fun r => r.Perm (v :: sorted) := by
  induction sorted with
  | nil => exact .pure (.refl _)
  | cons w rest ih =>
    refine .after _ fun b => .ite (fun _ => .bind ih fun r hr => .pure ?_) fun _ => .pure (.refl _)
    exact (hr.cons w).trans (.swap v w rest)

lemma all_insertAll (sorted items : List α) : (insertAll sorted items).All fun r => r.Perm (sorted ++ items) := by
  have hfold : ∀ done : List α, (items.foldlM (fun done v => insertBackward v done) done : Asking α
      (List α)).All fun r => r.Perm (done ++ items) := by
    induction items with
    | nil => exact fun done => .pure (.of_eq (append_nil done).symm)
    | cons v rest ih =>
      intro done
      rw [foldlM_cons]
      refine .bind (all_insertBackward v done) fun done' hdone' => (ih done').mono fun r hr => hr.trans ?_
      exact (hdone'.append_right rest).trans perm_middle.symm
  exact .bind (hfold sorted.reverse) fun r hr =>
    .pure ((reverse_perm r).trans (hr.trans (.append_right _ (reverse_perm sorted))))

section Runs

variable {sort : List α → Asking α (List α)} (hsort : ∀ items, (sort items).All fun r => r.Perm items)
include hsort

end Runs

/-! Partitions. -/

namespace Pivoted

def items (p : Pivoted α) : List α := p.before ++ p.pivot :: p.after

end Pivoted

end StoryMarkup.Sorting
