import Mathlib.Data.List.Induction
import Mathlib.Data.List.Nodup
import StoryMarkup.Document.Basic

/-! Timers. Each is handed out once, by the first advance to its due time, in the order of due
times. -/
namespace StoryMarkup.Document

open List

inductive ClockOp where
  | schedule (delay callback : Nat)
  | advance (time : Nat)

namespace ClockOp

def ahead : ClockOp → Nat
  | .schedule delay _ => delay
  | .advance time => time

def apply (d : Document) : ClockOp → Document
  | .schedule delay callback => d.schedule delay callback
  | .advance time => (d.advance time).2

end ClockOp

def after (d : Document) (ops : List ClockOp) : Document := ops.foldl ClockOp.apply d

/-- No operation asks for a reading past the last one. -/
def InReach (d : Document) (ops : List ClockOp) : Prop :=
  ∀ i, (h : i < ops.length) → (d.after (ops.take i)).now + ops[i].ahead ≤ lastReading

/-- The timer that one of the operations schedules: it is due so much later than the clock shows,
and numbered next. -/
def Schedules (d : Document) (ops : List ClockOp) (i : Nat) (t : Timer) : Prop :=
  ∃ delay callback, ops[i]? = some (.schedule delay callback) ∧
    t = ⟨(d.after (ops.take i)).now + delay, (d.after (ops.take i)).scheduled + 1, callback⟩

/-- The operation is an advance that leaves the clock at the due time or past it. -/
def AdvancesTo (d : Document) (ops : List ClockOp) (j due : Nat) : Prop :=
  ∃ time, ops[j]? = some (.advance time) ∧ due ≤ (d.after (ops.take (j + 1))).now

def Timer.Precedes (t u : Timer) : Prop := t.due < u.due ∨ t.due = u.due ∧ t.seq < u.seq

variable {d : Document} {timers : List Timer} {ops : List ClockOp} {op : ClockOp} {t u : Timer}
variable {i j k due reading reading' : Nat}

/-! Timers that are due, and timers that are not. -/

def dueBy (timers : List Timer) (reading : Nat) : List Timer :=
  (timers.filter (·.due ≤ reading)).mergeSort Timer.runsBefore

def waiting (timers : List Timer) (reading : Nat) : List Timer := timers.filter (reading < ·.due)

lemma advance_eq (d : Document) (time : Nat) :
    d.advance time = ((dueBy d.timers (d.now + time)).map (·.callback),
      { d with
        now := d.now + time
        timers := waiting d.timers (d.now + time)
        overrun := d.overrun || lastReading < d.now + time }) := by
  have hwaiting : d.timers.filter (not ∘ fun t => decide (t.due ≤ d.now + time)) = waiting d.timers (d.now + time) := by
    refine filter_congr fun t _ => ?_
    rw [Function.comp_apply, ← decide_not]
    exact decide_eq_decide.2 Nat.not_le
  simp [advance, hwaiting, dueBy]

lemma mem_dueBy : t ∈ dueBy timers reading ↔ t ∈ timers ∧ t.due ≤ reading := by
  simp [dueBy]

lemma mem_waiting : t ∈ waiting timers reading ↔ t ∈ timers ∧ reading < t.due := by
  simp [waiting]

lemma waiting_waiting (hle : reading ≤ reading') :
    waiting (waiting timers reading) reading' = waiting timers reading' := by
  unfold waiting
  rw [filter_filter]
  refine filter_congr fun t _ => ?_
  rw [← Bool.decide_and]
  exact decide_eq_decide.2 (by omega)

lemma Timer.runsBefore_iff : t.runsBefore u = true ↔ t.due < u.due ∨ t.due = u.due ∧ t.seq ≤ u.seq := by
  simp [runsBefore]

lemma pairwise_dueBy : (dueBy timers reading).Pairwise fun t u => t.runsBefore u = true := by
  refine pairwise_mergeSort (fun t u v htu huv => ?_) (fun t u => ?_) _
  · rw [Timer.runsBefore_iff] at htu huv ⊢
    omega
  · rw [Bool.or_eq_true, Timer.runsBefore_iff, Timer.runsBefore_iff]
    omega

lemma perm_dueBy (hle : reading ≤ reading') :
    (dueBy timers reading ++ dueBy (waiting timers reading) reading').Perm (dueBy timers reading') := by
  have hnow : timers.filter (·.due ≤ reading) = (timers.filter (·.due ≤ reading')).filter (·.due ≤ reading) := by
    rw [filter_filter]
    refine filter_congr fun t _ => ?_
    rw [← Bool.decide_and]
    exact decide_eq_decide.2 (by omega)
  have hlater : (waiting timers reading).filter (·.due ≤ reading') =
      (timers.filter (·.due ≤ reading')).filter fun t => !decide (t.due ≤ reading) := by
    unfold waiting
    rw [filter_filter, filter_filter]
    refine filter_congr fun t _ => ?_
    rw [← decide_not, ← Bool.decide_and, ← Bool.decide_and]
    exact decide_eq_decide.2 (by omega)
  refine ((mergeSort_perm _ _).append (mergeSort_perm _ _)).trans (.trans ?_ (mergeSort_perm _ _).symm)
  rw [hlater, hnow]
  exact filter_append_perm _ _

/-! The timers of a document have numbers of their own, in the order they were scheduled in. -/

structure Numbered (d : Document) : Prop where
  ascending : d.timers.Pairwise (·.seq < ·.seq)
  seq_le : ∀ t ∈ d.timers, t.seq ≤ d.scheduled

namespace Numbered

lemma apply (h : Numbered d) (op : ClockOp) : Numbered (op.apply d) := by
  cases op with
  | schedule delay callback =>
    refine ⟨pairwise_append.2 ⟨h.ascending, pairwise_singleton _ _, fun t ht u hu => ?_⟩, fun t ht => ?_⟩
    · rw [mem_singleton.1 hu]
      exact Nat.lt_succ_of_le (h.seq_le t ht)
    · obtain hold | hnew := mem_append.1 ht
      · exact Nat.le_succ_of_le (h.seq_le t hold)
      · rw [mem_singleton.1 hnew]
        exact Nat.le_refl _
  | advance time =>
    rw [ClockOp.apply, advance_eq]
    exact ⟨h.ascending.filter _, fun t ht => h.seq_le t (mem_waiting.1 ht).1⟩

lemma after (h : Numbered d) (ops : List ClockOp) : Numbered (d.after ops) := by
  induction ops generalizing d with
  | nil => exact h
  | cons op rest ih => exact ih (h.apply op)

lemma eq_of_seq_eq (h : Numbered d) (ht : t ∈ d.timers) (hu : u ∈ d.timers) (hseq : t.seq = u.seq) : t = u := by
  have hnodup : (d.timers.map (·.seq)).Nodup := pairwise_map.2 (h.ascending.imp Nat.ne_of_lt)
  exact inj_on_of_nodup_map hnodup ht hu hseq

lemma precedes (h : Numbered d) (reading : Nat) : (dueBy d.timers reading).Pairwise Timer.Precedes := by
  have hdistinct : (dueBy d.timers reading).Pairwise fun t u => t.seq ≠ u.seq :=
    ((mergeSort_perm _ _).pairwise_iff Ne.symm).2 ((h.ascending.filter _).imp Nat.ne_of_lt)
  refine (pairwise_dueBy.and hdistinct).imp fun ⟨hbefore, hne⟩ => ?_
  rw [Timer.runsBefore_iff] at hbefore
  unfold Timer.Precedes
  omega

lemma dueBy_append (h : Numbered d) (hle : reading ≤ reading') :
    dueBy d.timers reading ++ dueBy (waiting d.timers reading) reading' = dueBy d.timers reading' := by
  have hperm : (dueBy d.timers reading ++ dueBy (waiting d.timers reading) reading').Perm (dueBy d.timers reading') :=
    perm_dueBy hle
  refine hperm.eq_of_pairwise (fun t u ht hu htu hut => ?_)
    (pairwise_append.2 ⟨pairwise_dueBy, pairwise_dueBy, fun t ht u hu => ?_⟩) pairwise_dueBy
  · rw [Timer.runsBefore_iff] at htu hut
    exact h.eq_of_seq_eq (mem_dueBy.1 (hperm.subset ht)).1 (mem_dueBy.1 hu).1 (by omega)
  · have hnow := (mem_dueBy.1 ht).2
    have hlater := (mem_waiting.1 (mem_dueBy.1 hu).1).2
    exact Timer.runsBefore_iff.2 (.inl (by omega))

lemma advance_advance (h : Numbered d) (a b : Nat) :
    ((d.advance a).1 ++ ((d.advance a).2.advance b).1, ((d.advance a).2.advance b).2) = d.advance (a + b) := by
  have hle : d.now + a ≤ d.now + (a + b) := by omega
  have hoverrun : (d.overrun || decide (lastReading < d.now + a) || decide (lastReading < d.now + (a + b))) =
      (d.overrun || decide (lastReading < d.now + (a + b))) := by
    rw [Bool.or_assoc, ← Bool.decide_or]
    exact congrArg _ (decide_eq_decide.2 (by omega))
  simp [advance_eq, ← map_append, Nat.add_assoc, h.dueBy_append hle, waiting_waiting hle, hoverrun]

end Numbered

/-! Operations one after the other. -/

lemma after_concat : d.after (ops ++ [op]) = op.apply (d.after ops) := foldl_concat ..

lemma now_advance (d : Document) (time : Nat) : (d.advance time).2.now = d.now + time := by
  rw [advance_eq]

lemma schedules_concat :
    d.Schedules (ops ++ [op]) i t ↔ d.Schedules ops i t ∨ i = ops.length ∧ ∃ delay callback,
      op = .schedule delay callback ∧ t = ⟨(d.after ops).now + delay, (d.after ops).scheduled + 1, callback⟩ := by
  unfold Schedules
  rcases Nat.lt_trichotomy i ops.length with hlt | rfl | hgt
  · simp [getElem?_append_left hlt, take_append_of_le_length (Nat.le_of_lt hlt), Nat.ne_of_lt hlt]
  · simp
  · have hpast : (ops ++ [op])[i]? = none := by
      rw [getElem?_eq_none_iff, length_append, length_singleton]
      exact hgt
    simp [hpast, getElem?_eq_none (Nat.le_of_lt hgt), Nat.ne_of_gt hgt]

lemma advancesTo_concat :
    d.AdvancesTo (ops ++ [op]) j due ↔ d.AdvancesTo ops j due ∨ j = ops.length ∧ ∃ time,
      op = .advance time ∧ due ≤ (d.after ops).now + time := by
  unfold AdvancesTo
  rcases Nat.lt_trichotomy j ops.length with hlt | rfl | hgt
  · simp [getElem?_append_left hlt, take_append_of_le_length (Nat.succ_le_of_lt hlt), Nat.ne_of_lt hlt]
  · have hall : (ops ++ [op]).take (ops.length + 1) = ops ++ [op] := take_of_length_le (by simp)
    simp only [getElem?_concat_length, Option.some.injEq, hall, after_concat, getElem?_eq_none (Nat.le_refl _),
      reduceCtorEq, false_and, exists_false, false_or, true_and]
    refine exists_congr fun time => and_congr_right fun hop => ?_
    rw [hop, ClockOp.apply, now_advance]
  · have hpast : (ops ++ [op])[j]? = none := by
      rw [getElem?_eq_none_iff, length_append, length_singleton]
      exact hgt
    simp [hpast, getElem?_eq_none (Nat.le_of_lt hgt), Nat.ne_of_gt hgt]

lemma Schedules.lt (h : d.Schedules ops i t) : i < ops.length := by
  obtain ⟨_, _, hop, -⟩ := h
  exact (List.getElem?_eq_some_iff.1 hop).1

lemma Schedules.seq_le (h : d.Schedules ops i t) : t.seq ≤ (d.after ops).scheduled := by
  induction ops using reverseRecOn with
  | nil => exact absurd h.lt (Nat.not_lt_zero i)
  | append_singleton ops op ih =>
    rw [after_concat]
    obtain hold | ⟨-, delay, callback, rfl, rfl⟩ := schedules_concat.1 h
    · refine Nat.le_trans (ih hold) ?_
      cases op with
      | schedule delay callback => exact Nat.le_succ _
      | advance time => exact Nat.le_of_eq (by rw [ClockOp.apply, advance_eq])
    · exact Nat.le_refl _

lemma AdvancesTo.lt (h : d.AdvancesTo ops j due) : j < ops.length := by
  obtain ⟨_, hop, -⟩ := h
  exact (List.getElem?_eq_some_iff.1 hop).1

lemma mem_timers_after (hd : d.timers = []) (ops : List ClockOp) :
    t ∈ (d.after ops).timers ↔ ∃ i, d.Schedules ops i t ∧ ∀ j, i < j → ¬ d.AdvancesTo ops j t.due := by
  induction ops using reverseRecOn with
  | nil => simp [after, hd, Schedules]
  | append_singleton ops op ih =>
    simp only [after_concat, schedules_concat, advancesTo_concat]
    cases op with
    | schedule delay callback =>
      simp only [ClockOp.apply, schedule, mem_append, mem_singleton, ih]
      constructor
      · rintro (⟨i, hi, hwaits⟩ | rfl)
        · exact ⟨i, .inl hi, fun j hj => by simpa using hwaits j hj⟩
        · refine ⟨ops.length, .inr ⟨rfl, delay, callback, rfl, rfl⟩, fun j hj => ?_⟩
          rintro (hreaches | ⟨-, _, hop, -⟩)
          · exact absurd hreaches.lt (Nat.lt_asymm hj)
          · cases hop
      · rintro ⟨i, hi | ⟨-, _, _, hop, ht⟩, hwaits⟩
        · exact .inl ⟨i, hi, fun j hj hreaches => hwaits j hj (.inl hreaches)⟩
        · cases hop
          exact .inr ht
    | advance time =>
      rw [ClockOp.apply, advance_eq]
      simp only [mem_waiting, ih]
      constructor
      · rintro ⟨⟨i, hi, hwaits⟩, hdue⟩
        refine ⟨i, .inl hi, fun j hj => ?_⟩
        rintro (hreaches | ⟨-, _, hop, hle⟩)
        · exact hwaits j hj hreaches
        · cases hop
          exact absurd hle (Nat.not_le_of_lt hdue)
      · rintro ⟨i, hi | ⟨-, _, _, hop, -⟩, hwaits⟩
        · refine ⟨⟨i, hi, fun j hj hreaches => hwaits j hj (.inl hreaches)⟩, Nat.lt_of_not_le fun hle => ?_⟩
          exact hwaits ops.length hi.lt (.inr ⟨rfl, time, rfl, hle⟩)
        · cases hop

/-! Operations up to one of them. -/

lemma schedules_take : d.Schedules (ops.take k) i t ↔ i < k ∧ d.Schedules ops i t := by
  unfold Schedules
  rw [getElem?_take]
  by_cases hlt : i < k
  · simp [hlt, take_take, Nat.min_eq_left (Nat.le_of_lt hlt)]
  · simp [hlt]

lemma Schedules.not_later (h : d.Schedules ops i t) (hlt : i < k) : ¬ d.Schedules ops k t := by
  rintro ⟨_, _, -, rfl⟩
  exact Nat.not_succ_le_self _ (schedules_take.2 ⟨hlt, h⟩).seq_le

lemma advancesTo_take : d.AdvancesTo (ops.take k) j due ↔ j < k ∧ d.AdvancesTo ops j due := by
  unfold AdvancesTo
  rw [getElem?_take]
  by_cases hlt : j < k
  · simp [hlt, take_take, Nat.min_eq_left (Nat.succ_le_of_lt hlt)]
  · simp [hlt]

lemma mem_timers_take (hd : d.timers = []) (ops : List ClockOp) (k : Nat) :
    t ∈ (d.after (ops.take k)).timers ↔
      ∃ i < k, d.Schedules ops i t ∧ ∀ j, i < j → j < k → ¬ d.AdvancesTo ops j t.due := by
  rw [mem_timers_after hd]
  refine exists_congr fun i => ?_
  rw [schedules_take, and_assoc]
  refine and_congr_right fun _ => and_congr_right fun _ => forall_congr' fun j => ?_
  rw [advancesTo_take, not_and]

lemma advancesTo_iff {time : Nat} (hop : ops[j]? = some (.advance time)) :
    d.AdvancesTo ops j due ↔ due ≤ (d.after (ops.take j)).now + time := by
  have htake : ops.take (j + 1) = ops.take j ++ [.advance time] := by
    rw [take_add_one, hop]
    rfl
  unfold AdvancesTo
  rw [htake, after_concat, ClockOp.apply, now_advance, hop]
  simp

lemma overrun_after (hops : d.InReach ops) : (d.after ops).overrun = d.overrun := by
  induction ops using reverseRecOn with
  | nil => rfl
  | append_singleton ops op ih =>
    have hearlier : d.InReach ops := by
      intro i hlt
      have hreach := hops i (by rw [length_append]; omega)
      rwa [take_append_of_le_length (Nat.le_of_lt hlt), getElem_append_left hlt] at hreach
    have hlast : (d.after ops).now + op.ahead ≤ lastReading := by
      have hreach := hops ops.length (by simp)
      rwa [take_left, getElem_concat_length rfl] at hreach
    rw [after_concat]
    cases op with
    | schedule delay callback =>
      have hover : decide (lastReading < (d.after ops).now + delay) = false := decide_eq_false (Nat.not_lt_of_le hlast)
      simp [ClockOp.apply, schedule, hover, ih hearlier]
    | advance time =>
      have hover : decide (lastReading < (d.after ops).now + time) = false := decide_eq_false (Nat.not_lt_of_le hlast)
      simp [ClockOp.apply, advance_eq, hover, ih hearlier]

/-- Timers fire once, on time and in order. The clock does not run over. An advance hands out the
callbacks of those timers, scheduled before it, whose due time it is the first to reach, in the
order of their due times and then in that of their scheduling; until then a timer is there. And two
advances in a row come to one by both times. -/
theorem timers_fire_once_in_order (d : Document) (hd : d.timers = []) (ops : List ClockOp) (hops : d.InReach ops) :
    (d.after ops).overrun = d.overrun ∧
    (∀ (j : Nat) time, ops[j]? = some (.advance time) → ∃ fired : List Timer,
      ((d.after (ops.take j)).advance time).1 = fired.map (·.callback) ∧ fired.Pairwise Timer.Precedes ∧
      ∀ t, t ∈ fired ↔ d.AdvancesTo ops j t.due ∧
        ∃ i < j, d.Schedules ops i t ∧ ∀ k, i < k → k < j → ¬ d.AdvancesTo ops k t.due) ∧
    (∀ k t, t ∈ (d.after (ops.take k)).timers ↔
      ∃ i < k, d.Schedules ops i t ∧ ∀ j, i < j → j < k → ¬ d.AdvancesTo ops j t.due) ∧
    (∀ i i' t, d.Schedules ops i t → d.Schedules ops i' t → i = i') ∧
    ∀ a b, ((d.after ops).advance a).1 ++ (((d.after ops).advance a).2.advance b).1 = ((d.after ops).advance (a + b)).1 ∧
      (((d.after ops).advance a).2.advance b).2 = ((d.after ops).advance (a + b)).2 := by
  have hnumbered : Numbered d := ⟨by simp [hd], by simp [hd]⟩
  refine ⟨overrun_after hops, fun j time hop => ?_, fun k t => mem_timers_take hd ops k, fun i i' t hi hi' => ?_,
    fun a b => ?_⟩
  · refine ⟨dueBy (d.after (ops.take j)).timers ((d.after (ops.take j)).now + time), ?_, (hnumbered.after _).precedes _,
      fun t => ?_⟩
    · rw [advance_eq]
    · rw [mem_dueBy, mem_timers_take hd, advancesTo_iff hop, and_comm]
  · obtain hlt | heq | hgt := Nat.lt_trichotomy i i'
    · exact absurd hi' (hi.not_later hlt)
    · exact heq
    · exact absurd hi (hi'.not_later hgt)
  · exact Prod.mk.inj ((hnumbered.after ops).advance_advance a b)

/-- Three timers, two of them due at one time: the second advance hands out the one that was
scheduled first before the other, and the third advance the one that was due late. -/
theorem three_timers_fire_in_order :
    let ops : List ClockOp := [.schedule 30 7, .schedule 10 8, .advance 5, .schedule 5 9, .advance 5, .advance 20]
    ({} : Document).InReach ops ∧
      ((({} : Document).after (ops.take 4)).advance 5).1 = [8, 9] ∧
      ((({} : Document).after (ops.take 5)).advance 20).1 = [7] ∧
      ∃ fired : List Timer, [8, 9] = fired.map (·.callback) ∧ fired.Pairwise Timer.Precedes := by
  intro ops
  have hops : ({} : Document).InReach ops := by
    unfold InReach
    decide +kernel
  have hfired : ((({} : Document).after (ops.take 4)).advance 5).1 = [8, 9] := by
    rw [advance_eq]
    change (dueBy [⟨30, 1, 7⟩, ⟨10, 2, 8⟩, ⟨10, 3, 9⟩] 10).map (·.callback) = [8, 9]
    rw [dueBy, mergeSort_of_pairwise (by decide)]
    rfl
  have hlast : ((({} : Document).after (ops.take 5)).advance 20).1 = [7] := by
    rw [advance_eq]
    change (dueBy [⟨30, 1, 7⟩] 30).map (·.callback) = [7]
    rw [dueBy, mergeSort_of_pairwise (by decide)]
    rfl
  obtain ⟨-, hall, -⟩ := timers_fire_once_in_order {} rfl ops hops
  obtain ⟨fired, hcallbacks, hordered, -⟩ := hall 4 5 rfl
  exact ⟨hops, hfired, hlast, fired, hfired.symm.trans hcallbacks, hordered⟩

end StoryMarkup.Document
