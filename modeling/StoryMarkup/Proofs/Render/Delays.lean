import StoryMarkup.Proofs.Document.Timers
import StoryMarkup.Session

/-! Delays. What is put off is due when the clock shows the reading that is the delay away. -/
namespace StoryMarkup

open Render Document
open Script (Value)

variable (x : Float) (d : Document)

lemma Decimal.toCount_le : toCount x ≤ greatestCount := by
  unfold toCount
  cases decode x with
  | nan => exact Nat.zero_le _
  | infinite negative => cases negative <;> decide
  | finite b =>
    simp only
    split
    · exact Nat.zero_le _
    · exact Nat.min_le_left _ _

lemma Macros.delayOf_le : delayOf x ≤ lastReading := by
  unfold delayOf
  split
  · exact Decimal.toCount_le x
  · exact Nat.zero_le _

namespace Document

lemma exists_detach_eq (child : Nat) : ∃ nodes, d.detach child = { d with nodes } := by
  unfold detach
  cases d.parent? child with
  | none | some p => exact ⟨_, rfl⟩

lemma exists_append_eq (parent child : Nat) : ∃ nodes, d.append parent child = { d with nodes } := by
  unfold append insert
  split
  · exact ⟨_, rfl⟩
  · obtain ⟨nodes, hdetach⟩ := d.exists_detach_eq child
    rw [hdetach]
    exact ⟨_, rfl⟩

end Document

namespace Render

def Context.delay (ctx : Context) (w : World) : Nat :=
  match ctx.values with
  | v :: _ => Macros.delayOf (w.heap.toNumber v)
  | [] => 0

lemma Context.delay_le (ctx : Context) (w : World) : ctx.delay w ≤ lastReading := by
  unfold delay
  cases ctx.values with
  | nil => exact Nat.zero_le _
  | cons v rest => exact Macros.delayOf_le _

lemma exists_later_eq (r : Renderer) (ctx : Context) (w : World) : ∃ w' nodes, Macros.later r ctx w = .ok .nothing w' ∧
    w'.host.document = ({ w.host.document with nodes } : Document).schedule (ctx.delay w) (w.host.created + 1) := by
  obtain ⟨nodes, hnodes⟩ := exists_append_eq ((w.host.document.createElement "span").2.setAttribute
    w.host.document.nodes.size "class" "later") ctx.site.container w.host.document.nodes.size
  refine ⟨_, nodes, rfl, ?_⟩
  exact congrArg (fun d : Document => d.schedule (ctx.delay w) (w.host.created + 1)) hnodes

/-- A timer for what is put off is due at the reading that is the delay away: it waits for as long
as the clock has not been advanced by the delay, and is handed out then. The clock runs over just if
there is no such reading; what is said of advancing is of use only as long as it has not. -/
theorem later_overruns_iff (r : Renderer) (ctx : Context) (w : World) : let d := w.host.document
    let delay := ctx.delay w
    let timer : Timer := ⟨d.now + delay, d.scheduled + 1, w.host.created + 1⟩
    ∃ w', Macros.later r ctx w = .ok .nothing w' ∧ w'.host.document.timers = d.timers ++ [timer] ∧
      delay ≤ lastReading ∧
      (w'.host.document.overrun = true ↔ d.overrun = true ∨ lastReading < d.now + delay) ∧
      ∀ time, (timer ∈ (w'.host.document.advance time).2.timers ↔ time < delay) ∧
        (∃ fired : List Timer, (w'.host.document.advance time).1 = fired.map (·.callback) ∧
          (timer ∈ fired ↔ delay ≤ time)) := by
  intro d delay timer
  obtain ⟨w', nodes, hlater, hdocument⟩ := exists_later_eq r ctx w
  have htimers : w'.host.document.timers = d.timers ++ [timer] := by rw [hdocument]; rfl
  have hnow : w'.host.document.now = d.now := by rw [hdocument]; rfl
  have hmem : timer ∈ w'.host.document.timers := by simp [htimers]
  refine ⟨w', hlater, htimers, ctx.delay_le w, ?_, fun time =>
    ⟨?_, dueBy w'.host.document.timers (w'.host.document.now + time), ?_, ?_⟩⟩
  · rw [hdocument]
    simp only [schedule, Bool.or_eq_true, decide_eq_true_eq]
    rfl
  · rw [advance_eq, mem_waiting, hnow]
    simp only [hmem, true_and, timer]
    omega
  · rw [advance_eq]
  · rw [mem_dueBy, hnow]
    simp only [hmem, true_and, timer]
    omega

/-- After one millisecond there is no reading for the greatest delay. -/
theorem later_overruns_after_a_millisecond : let text := "@later(1e300)\x7bx\x7d"
    let constants := Bindings.ofList [("later", Value.macroDef 15 "later")]
    let s := Session.start (Passages.ofList [⟨"main", text, [], 1⟩]) {} ⟨constants, Macros.builtins.toArray, true⟩ {} 1
    let ticked := s.modifyDocument fun d => (d.advance 1).2
    let shown := ticked.goTo "main"
    ticked.document.now = 1 ∧ ticked.document.overrun = false ∧ shown.document.overrun = true ∧
      shown.document.timers.map (fun t => decide (t.due ≤ lastReading)) = [false] := by
  decide +kernel

end Render
end StoryMarkup
