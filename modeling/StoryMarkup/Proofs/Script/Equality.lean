import Mathlib
import StoryMarkup.Script.Conversion

/-! Equality of values is symmetric, and equality without conversion gives equality with it. -/
namespace StoryMarkup.Script

def Value.isNaN : Value → Bool
  | .number x => x.isNaN
  | _ => false

variable {a b : Value} (h : Heap)

namespace Value

lemma strictEq_comm (a b : Value) : a.strictEq b = b.strictEq a := by
  cases a <;> cases b <;> simp [strictEq, BEq.comm]

lemma same_eq (a b : Value) : a.same b = (a.strictEq b || (a.isNaN && b.isNaN)) := by
  cases a with
  | number x => cases b <;> simp [same, isNaN, strictEq]
  | _ => simp [same, isNaN]

lemma same_self (a : Value) : a.same a = true := by
  rw [same_eq]
  cases a with
  | number x => cases hx : x.isNaN <;> simp_all [isNaN, strictEq]
  | _ => simp [strictEq]

lemma not_isPrimitive_of_isContainer (ha : a.isContainer = true) : a.isPrimitive = false := by
  cases a <;> simp [isContainer, isPrimitive] at ha ⊢

lemma isNullish_iff : a.isNullish = true ↔ a = .undefined ∨ a = .null := by
  cases a <;> simp [isNullish]

end Value

namespace Heap

lemma primitiveEq_comm (a b : Value) : h.primitiveEq a b = h.primitiveEq b a := by
  cases a <;> cases b <;> exact BEq.comm

lemma looseEq_comm (a b : Value) : h.looseEq a b = h.looseEq b a := by
  rw [looseEq, looseEq, Bool.or_comm, Bool.and_comm, Bool.and_comm a.isPrimitive,
    h.primitiveEq_comm, a.strictEq_comm, h.primitiveEq_comm a, h.primitiveEq_comm _ b]
  -- what is left apart is which of the two is the container, and a container is no primitive value
  cases ha : a.isContainer with
  | true => simp [Value.not_isPrimitive_of_isContainer ha]
  | false => simp [Bool.and_comm]

lemma looseEq_of_strictEq (heq : a.strictEq b = true) : h.looseEq a b = true := by
  cases a with
  | bool x =>
    cases b with
    | bool y =>
      obtain rfl : x = y := by simpa [Value.strictEq] using heq
      have hself : ((if x then 1 else 0 : Float) == if x then 1 else 0) = true := by cases x <;> decide +kernel
      exact hself
    | _ => cases heq
  | _ =>
    cases b <;> simp_all [looseEq, primitiveEq, toNumber, toNumberWithin, Value.strictEq,
      Value.isNullish, Value.isPrimitive, Value.isContainer]

lemma looseEq_iff_of_isNullish (ha : a = .undefined ∨ a = .null) : h.looseEq a b = true ↔ b =
    .undefined ∨ b = .null := by
  rw [← Value.isNullish_iff] at ha ⊢
  simp [looseEq, ha]

end Heap

/-- The laws of equality: with conversion and without it is symmetric, the first is implied by the
second, undefined and null are equal to each other and to nothing else, and being the same value,
which is reflexive, is equality without conversion except that numbers that are no numbers count as
the same. -/
theorem equality_laws (h : Heap) (a b : Value) :
    h.looseEq a b = h.looseEq b a ∧ a.strictEq b = b.strictEq a ∧ (a.strictEq b = true → h.looseEq a b = true) ∧
      (∀ nullish, nullish = .undefined ∨ nullish = .null → (h.looseEq nullish b = true ↔ b = .undefined ∨ b = .null)) ∧
      a.same a = true ∧ a.same b = (a.strictEq b || (a.isNaN && b.isNaN)) :=
  ⟨h.looseEq_comm a b, a.strictEq_comm b, h.looseEq_of_strictEq, fun _ =>
    h.looseEq_iff_of_isNullish, a.same_self, a.same_eq b⟩

end StoryMarkup.Script
