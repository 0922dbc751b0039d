import StoryMarkup.Proofs.Decimal.Doubles
import StoryMarkup.Script.Library.Global

/-! The generator of random numbers. A state other than zero never comes to zero. -/
namespace StoryMarkup

namespace Decimal

open Float.Model
open Float.Model.UnpackedFloat (divCore)

lemma unpack_two_pow : (ofNat (Nat.pow 2 53)).toModel.unpack = .finite .positive (2 ^ 52) 1 (by decide) := rfl

lemma ofNat_div_two_pow {n j : Nat} (hn : n < 2 ^ 53) (hj : j ≤ 52) (h : Normal (n * 2 ^ j) (-j))
    (h' : Normal (n * 2 ^ j) (-j - 53)) : ofNat n / ofNat (Nat.pow 2 53) = ofParts .positive h' := by
  have hlog := h.log2_eq
  have htarget : min ((-j : Int) - 1) (Format.binary64.targetExponent
      (totalExponent (n * 2 ^ j) (-j) - totalExponent (2 ^ 52) 1)) = -j - 53 - 1 := by
    rw [totalExponent, totalExponent, hlog]
    show min ((-j : Int) - 1)
      (max (((52 : Nat) : Int) + 1 + -j - (((52 : Nat) : Int) + 1 + 1) - (53 : Nat)) (-1074)) = _
    omega
  have hcore : divCore .binary64 (n * 2 ^ j) (-j) (2 ^ 52) 1 = (n * 2 ^ j * 2 ^ 1, (-j : Int) - 53 - 1, .exact) := by
    have hamount : ((-j : Int) - 1 - (-j - 53 - 1)).toNat = 53 := by omega
    have hquotient : n * 2 ^ j * 2 ^ 53 / 2 ^ 52 = n * 2 ^ j * 2 ^ 1 := by omega
    have hrest : n * 2 ^ j * 2 ^ 53 % 2 ^ 52 = 0 := by omega
    simp only [divCore, htarget, hamount, Nat.shiftLeft_eq, hquotient, hrest]
    rfl
  rw [ofNat_eq_ofParts hn h]
  show Float.ofModel (pack (UnpackedFloat.div .binary64 (ofParts .positive h).toModel.unpack
    (ofNat (Nat.pow 2 53)).toModel.unpack)) = _
  rw [unpack_ofParts, unpack_two_pow]
  simp only [UnpackedFloat.div, hcore]
  exact congrArg (fun u => Float.ofModel (pack u)) (round_scaled h' .positive 1)

lemma le_iff (x y : Float) : x ≤ y ↔ x.toModel.unpack.le y.toModel.unpack = true := decide_eq_true_iff

lemma lt_iff (x y : Float) : x < y ↔ x.toModel.unpack.lt y.toModel.unpack = true := decide_eq_true_iff

lemma fraction_in_range {n : Nat} (hn : n < 2 ^ 53) :
    0 ≤ ofNat n / ofNat (Nat.pow 2 53) ∧ ofNat n / ofNat (Nat.pow 2 53) < 1 := by
  rcases Nat.eq_zero_or_pos n with rfl | hpos
  · decide +kernel
  · obtain ⟨j, h⟩ := exists_normal hpos hn
    have hj : j ≤ 52 := by
      have hscale := Nat.le_mul_of_pos_left (2 ^ j) hpos
      have := (Nat.pow_lt_pow_iff_right (a := 2) (by decide)).1 (Nat.lt_of_le_of_lt hscale h.lt)
      omega
    have h' : Normal (n * 2 ^ j) (-j - 53) := ⟨h.least, h.lt, by omega, by omega⟩
    have hone : (1 : Float).toModel.unpack = .finite .positive (2 ^ 52) (-52) (by decide) := rfl
    have hbelow : compare ((-j : Int) - 53) (-52) = .lt := Int.compare_eq_lt.2 (by omega)
    rw [ofNat_div_two_pow hn hj h h', le_iff, lt_iff, unpack_ofParts, hone]
    simp only [UnpackedFloat.lt, UnpackedFloat.compare, hbelow]
    exact ⟨rfl, rfl⟩

end Decimal

namespace Script

open Decimal ScriptM

variable {w i : Nat} {x y : BitVec w}

/-- With what is shifted in known to be the same, the bits of the words agree where their sums
do. -/
theorem getLsbD_eq_of_xor_eq {s t : BitVec w} (h : x ^^^ s = y ^^^ t)
    (hi : s.getLsbD i = t.getLsbD i) : x.getLsbD i = y.getLsbD i := by
  have hbit := congrArg (BitVec.getLsbD · i) h
  simp only [BitVec.getLsbD_xor, hi] at hbit
  exact Bool.xor_left_inj.1 hbit

lemma injective_xor_shiftLeft {k : Nat} (hk : 0 < k) : Function.Injective fun x : BitVec w => x ^^^ (x <<< k) := by
  intro x y h
  refine BitVec.eq_of_getLsbD_eq fun i _ => ?_
  -- Bits come from lower ones.
  induction i using Nat.strongRecOn with
  | ind i ih =>
    refine getLsbD_eq_of_xor_eq h ?_
    rw [BitVec.getLsbD_shiftLeft, BitVec.getLsbD_shiftLeft]
    by_cases hi : i < k
    · simp [hi]
    · rw [ih (i - k) (by omega) (by omega)]

lemma injective_xor_shiftRight {k : Nat} (hk : 0 < k) : Function.Injective fun x : BitVec w => x ^^^ (x >>> k) := by
  intro x y h
  refine BitVec.eq_of_getLsbD_eq fun i _ => ?_
  -- Bits come from higher ones, so the induction is on how far a bit is from the top.
  induction hn : w - i using Nat.strongRecOn generalizing i with
  | ind n ih =>
    refine getLsbD_eq_of_xor_eq h ?_
    rw [BitVec.getLsbD_ushiftRight, BitVec.getLsbD_ushiftRight]
    by_cases hi : k + i < w
    · exact ih (w - (k + i)) (by omega) (k + i) hi rfl
    · rw [BitVec.getLsbD_of_ge x _ (by omega), BitVec.getLsbD_of_ge y _ (by omega)]

def mix (x : UInt64) : UInt64 :=
  let x := x ^^^ (x <<< 13)
  let x := x ^^^ (x >>> 7)
  x ^^^ (x <<< 17)

lemma nextRandom_eq_mix {s : UInt64} (hs : s ≠ 0) : nextRandom s = mix s := by
  simp [nextRandom, mix, hs]

lemma injective_mix : Function.Injective mix := by
  intro x y h
  have hbits := congrArg UInt64.toBitVec h
  have hleft := injective_xor_shiftLeft (w := 64) (k := 17) (by decide) hbits
  have hright := injective_xor_shiftRight (w := 64) (k := 7) (by decide) hleft
  exact UInt64.toBitVec_inj.1 (injective_xor_shiftLeft (w := 64) (k := 13) (by decide) hright)

lemma nextRandom_ne_zero (s : UInt64) : nextRandom s ≠ 0 := by
  have hmix {s : UInt64} (hs : s ≠ 0) : mix s ≠ 0 := fun h => hs (injective_mix (h.trans rfl))
  by_cases hs : s = 0
  · subst hs
    exact hmix (s := 1) (by decide)
  · rw [nextRandom_eq_mix hs]
    exact hmix hs

lemma iterate_nextRandom {s : UInt64} (hs : s ≠ 0) (n : Nat) : nextRandom^[n] s = mix^[n] s := by
  induction n generalizing s with
  | zero => rfl
  | succ n ih =>
    rw [Function.iterate_succ_apply, Function.iterate_succ_apply, ih (nextRandom_ne_zero s), nextRandom_eq_mix hs]

lemma exists_iterate_eq {s : UInt64} (hs : s ≠ 0) : ∃ n > 0, nextRandom^[n] s = s := by
  obtain ⟨n, hpos, hn⟩ := Function.mem_periodicPts.1 (injective_mix.mem_periodicPts s)
  exact ⟨n, hpos, (iterate_nextRandom hs n).trans hn⟩

/-- Every draw leaves a state other than zero and gives a fraction of 53 bits from zero up to and
without one. Other than zero, no two states have the same next one, and each comes back. -/
theorem random_never_degenerates (ω : Type) :
    (∀ m : Machine ω, nextRandom m.random ≠ 0 ∧ ∃ n < 2 ^ 53, ∃ x : Float, x = ofNat n / ofNat
      (2 ^ 53) ∧ 0 ≤ x ∧ x < 1 ∧
      draw m = .ok (.number x) { m with random := nextRandom m.random }) ∧
    Set.InjOn nextRandom {s | s ≠ 0} ∧ ∀ s, s ≠ 0 → ∃ n > 0, nextRandom^[n] s = s := by
  refine ⟨fun m => ⟨nextRandom_ne_zero _, ?_⟩, fun s hs t ht h => ?_, fun s hs => exists_iterate_eq hs⟩
  · have hlt : (nextRandom m.random >>> 11).toNat < 2 ^ 53 := by
      have hword := (nextRandom m.random).toNat_lt
      rw [UInt64.toNat_shiftRight, Nat.shiftRight_eq_div_pow]
      exact Nat.div_lt_of_lt_mul hword
    exact ⟨_, hlt, _, rfl, (fraction_in_range hlt).1, (fraction_in_range hlt).2, rfl⟩
  · exact injective_mix (by rwa [← nextRandom_eq_mix hs, ← nextRandom_eq_mix ht])

theorem random_comes_back_to_one : ∃ n > 0, nextRandom^[n] 1 = 1 := (random_never_degenerates Unit).2.2 1 (by decide)

end Script
end StoryMarkup
