import Mathlib
import StoryMarkup.Decimal.Binary

/-! A whole number of at most 53 bits has a double of its own, which is the double one gets for
it. -/
namespace StoryMarkup.Decimal

open Float.Model
open Float.Model.UnpackedFloat (Accuracy ExtendedMantissa Sign packComponents roundWithAccuracy
    shiftToTargetExponent unpackSign)

variable {x : Float} {m : Nat} {b : Binary}

structure Normal (m : Nat) (e : Int) : Prop where
  least : 2 ^ 52 ≤ m
  lt : m < 2 ^ 53
  least_exponent : -1074 ≤ e
  exponent_le : e ≤ 971

namespace Normal

variable {m : Nat} {e : Int} (h : Normal m e)
include h

lemma pos : 0 < m := Nat.lt_of_lt_of_le (by decide) h.least

lemma log2_eq : m.log2 = 52 := by
  have hpos := h.pos
  have hleast : 52 ≤ m.log2 := (Nat.le_log2 (by omega)).2 h.least
  have hlt : m.log2 < 53 := (Nat.log2_lt (by omega)).2 h.lt
  omega

end Normal

/-! The bits of a double. -/

def ofParts (s : Sign) {m : Nat} {e : Int} (h : Normal m e) : Float := ⟨pack (.finite s m e h.pos)⟩

section Bits

variable {m : Nat} {e : Int} (h : Normal m e)

lemma pack_normal (s : Sign) :
    UnpackedFloat.pack .binary64 (.finite s m e h.pos) =
      packComponents .binary64 s (BitVec.ofNat 11 (e + 1075).toNat) (BitVec.ofNat 52 m) := by
  have hlow := h.least_exponent
  have hhigh := h.exponent_le
  have hbias : (e + Format.binary64.exponentBias + Format.binary64.mantissaBitsWithoutImplicit).toNat =
      (e + 1075).toNat := by
    show (e + (1023 : Nat) + (52 : Nat)).toNat = _
    omega
  simp only [UnpackedFloat.pack, hbias, h.log2_eq]
  rw [if_neg (by omega), if_pos (by decide)]

lemma toNat_packComponents (s : Sign) (exponent : BitVec 11) (mantissa : BitVec 52) :
    (packComponents .binary64 s exponent mantissa).toNat =
      s.toBitVec.toNat * 2 ^ 63 + exponent.toNat * 2 ^ 52 + mantissa.toNat := by
  have hexponent := exponent.isLt
  have hmantissa := mantissa.isLt
  simp only [packComponents, BitVec.toNat_append]
  rw [← Nat.shiftLeft_add_eq_or_of_lt hmantissa, ← Nat.shiftLeft_add_eq_or_of_lt hexponent]
  simp only [Nat.shiftLeft_eq]
  omega

lemma toBits_ofParts (s : Sign) :
    (ofParts s h).toBits.toNat = s.toBitVec.toNat * 2 ^ 63 + (e + 1075).toNat * 2 ^ 52 + (m - 2 ^ 52) := by
  have hlow := h.least
  have hhigh := h.lt
  have hleast := h.least_exponent
  have hexp := h.exponent_le
  show (UnpackedFloat.pack .binary64 (.finite s m e h.pos)).toNat = _
  rw [pack_normal h, toNat_packComponents, BitVec.toNat_ofNat, BitVec.toNat_ofNat]
  omega

lemma ofBitVec_unpackSign (s : Sign) (exponent : BitVec 11) (mantissa : BitVec 52) :
    Sign.ofBitVec (unpackSign (packComponents .binary64 s exponent mantissa)) = s := by
  have hsign : (unpackSign (packComponents .binary64 s exponent mantissa)).toNat = s.toBitVec.toNat := by
    have hexponent := exponent.isLt
    have hmantissa := mantissa.isLt
    have hone := s.toBitVec.isLt
    simp only [unpackSign, BitVec.toNat_cast, BitVec.extractLsb_toNat, toNat_packComponents, Nat.shiftRight_eq_div_pow]
    omega
  rw [BitVec.eq_of_toNat_eq hsign]
  cases s <;> rfl

lemma unpack_ofParts (s : Sign) : (ofParts s h).toModel.unpack = .finite s m e h.pos := by
  have hlow := h.least
  have hhigh := h.lt
  have hleast := h.least_exponent
  have hexp := h.exponent_le
  have hexponent : (BitVec.ofNat 11 (e + 1075).toNat).toNat = (e + 1075).toNat := by
    rw [BitVec.toNat_ofNat]
    omega
  have hmantissa : (1#1 ++ BitVec.ofNat 52 m).toNat = m := by
    rw [BitVec.toNat_append, ← Nat.shiftLeft_add_eq_or_of_lt (BitVec.ofNat 52 m).isLt,
      BitVec.toNat_ofNat, Nat.shiftLeft_eq]
    simp only [BitVec.toNat_ofNat]
    omega
  show UnpackedFloat.unpack .binary64 (UnpackedFloat.pack .binary64 (.finite s m e h.pos)) = _
  simp only [pack_normal h, UnpackedFloat.unpack, UnpackedFloat.unpackMantissa_packComponents,
    UnpackedFloat.unpackExponent_packComponents, ofBitVec_unpackSign]
  have hinfinite : BitVec.ofNat 11 (e + 1075).toNat ≠ -1#11 := by
    intro heq
    have := congrArg BitVec.toNat heq
    simp only [hexponent] at this
    have hall : (-1#11 : BitVec 11).toNat = 2047 := by decide
    omega
  have hzero : BitVec.ofNat 11 (e + 1075).toNat ≠ 0#11 := by
    intro heq
    have := congrArg BitVec.toNat heq
    simp only [hexponent, BitVec.toNat_ofNat] at this
    omega
  rw [if_neg hinfinite, if_neg hzero]
  simp only [UnpackedFloat.finite.injEq, true_and]
  refine ⟨hmantissa, ?_⟩
  rw [hexponent]
  show ((e + 1075).toNat : Int) - ((1023 : Nat) + (52 : Nat)) = e
  omega

end Bits

/-! Rounding a number that needs no rounding. -/

lemma log2_mul_two_pow {n : Nat} (hn : 0 < n) (k : Nat) : (n * 2 ^ k).log2 = n.log2 + k := by
  have hlow := Nat.log2_self_le (n := n) (by omega)
  have hhigh := Nat.lt_log2_self (n := n)
  have hpow := Nat.two_pow_pos k
  rw [Nat.log2_eq_iff (Nat.mul_pos hn hpow).ne']
  constructor
  · rw [Nat.pow_add]
    exact Nat.mul_le_mul_right _ hlow
  · rw [Nat.add_right_comm, Nat.pow_add]
    exact Nat.mul_lt_mul_of_pos_right hhigh hpow

section Rounding

variable {m : Nat} {e : Int} (h : Normal m e)
include h

lemma targetExponent_scaled (k : Nat) : Format.binary64.targetExponent (totalExponent (m * 2 ^ k) (e - k)) = e := by
  have hleast := h.least_exponent
  rw [totalExponent, log2_mul_two_pow h.pos, h.log2_eq]
  show max (((52 + k : Nat) : Int) + 1 + (e - k) - (53 : Nat)) (-1074) = e
  omega

omit h in
lemma shiftRight_exact (m k : Nat) : (⟨m * 2 ^ k, false, false⟩ : ExtendedMantissa) >>> k = ⟨m, false, false⟩ := by
  show Nat.repeat ExtendedMantissa.shiftRightOne k _ = _
  induction k generalizing m with
  | zero => simp [Nat.repeat]
  | succ k ih =>
    have hscale : m * 2 ^ (k + 1) = m * 2 * 2 ^ k := by ring
    rw [Nat.repeat, hscale, ih]
    simp [ExtendedMantissa.shiftRightOne]

lemma shift_scaled (k : Nat) :
    shiftToTargetExponent .binary64 (m * 2 ^ k) (e - k) .exact = (⟨m, false, false⟩, e) := by
  have hamount : (e - (e - k)).toNat = k := by omega
  simp only [shiftToTargetExponent, UnpackedFloat.shiftToExponent, targetExponent_scaled h, hamount,
    ExtendedMantissa.ofMantissaAndAccuracy, shiftRight_exact, Prod.mk.injEq, true_and]
  omega

lemma round_scaled (s : Sign) (k : Nat) :
    roundWithAccuracy .binary64 s (m * 2 ^ k) (e - k) .exact = .finite s m e h.pos := by
  have hagain : shiftToTargetExponent .binary64 m e .exact = (⟨m, false, false⟩, e) := by
    simpa using shift_scaled h 0
  have hpos := h.pos
  simp only [roundWithAccuracy, shift_scaled h, ExtendedMantissa.roundedMantissa,
    ExtendedMantissa.accuracy, Accuracy.roundToNearestEven, hagain]
  rw [dif_neg (by omega)]

end Rounding

lemma exists_normal {n : Nat} (hpos : 0 < n) (hn : n < 2 ^ 53) : ∃ j : Nat, Normal (n * 2 ^ j) (-j) := by
  have hlog : n.log2 < 53 := (Nat.log2_lt (by omega)).2 hn
  have hlow := Nat.log2_self_le (n := n) (by omega)
  have hhigh := Nat.lt_log2_self (n := n)
  obtain ⟨j, hj⟩ : ∃ j, n.log2 + j = 52 := ⟨52 - n.log2, by omega⟩
  refine ⟨j, ?_, ?_, by omega, by omega⟩
  · rw [← hj, Nat.pow_add]
    exact Nat.mul_le_mul_right _ hlow
  · rw [show 53 = n.log2 + 1 + j by omega, Nat.pow_add]
    exact Nat.mul_lt_mul_of_pos_right hhigh (Nat.two_pow_pos j)

/-! The double of a whole number. -/

/-- A whole number that has a double is rounded to it, with as many bits behind the point as there
may be. -/
theorem round_whole {n j : Nat} (h : Normal (n * 2 ^ j) (-j)) (s : Sign) (k : Nat) :
    UnpackedFloat.round .binary64 s (n * 2 ^ k) (-k) = .finite s (n * 2 ^ j) (-j) h.pos := by
  have hpos : 0 < n := Nat.pos_of_mul_pos_right h.pos
  have hlog := h.log2_eq
  rw [log2_mul_two_pow hpos] at hlog
  have htarget : Format.binary64.targetExponent (totalExponent (n * 2 ^ k) (-k)) = -j := by
    have hleast := h.least_exponent
    rw [totalExponent, log2_mul_two_pow hpos]
    show max (((n.log2 + k : Nat) : Int) + 1 + -k - (53 : Nat)) (-1074) = -j
    omega
  have hscale : n * 2 ^ k * 2 ^ (j - k) = n * 2 ^ j * 2 ^ (k - j) := by
    rw [Nat.mul_assoc, Nat.mul_assoc, ← Nat.pow_add, ← Nat.pow_add]
    congr 2
    omega
  have hamount : (-(k : Int) - -(j : Int)).toNat = j - k := by omega
  have hexponent : -(k : Int) - (j - k : Nat) = -j - (k - j : Nat) := by omega
  simp only [UnpackedFloat.round, htarget, UnpackedFloat.decreaseExponent, hamount, Nat.shiftLeft_eq, hscale, hexponent]
  exact round_scaled h s (k - j)

lemma ofNat_unpacked {n j : Nat} (h : Normal (n * 2 ^ j) (-j)) :
    UnpackedFloat.ofNat .binary64 n = .finite .positive (n * 2 ^ j) (-j) h.pos := by
  have hpos : 0 < n := Nat.pos_of_mul_pos_right h.pos
  have hcompare : compare (n : Int) 0 = .gt := Int.compare_eq_gt.2 (by omega)
  have hround := round_whole h .positive 0
  simp only [Nat.pow_zero, Nat.mul_one, Int.natCast_zero, Int.neg_zero] at hround
  simpa only [UnpackedFloat.ofNat, UnpackedFloat.ofInt, UnpackedFloat.normalize, hcompare,
    Int.toNat_natCast] using hround

lemma unpack_one : (Float.exactlyRepresentablePowersOfTen[0]).toModel.unpack =
    .finite .positive (2 ^ 52) (-52) (by decide) :=
  rfl

lemma ofNat_eq_ofParts {n j : Nat} (hn : n < 2 ^ 53) (h : Normal (n * 2 ^ j) (-j)) :
    ofNat n = ofParts .positive h := by
  have hword : n.toUInt64.toNat = n := by
    simp
    omega
  have hfactor : n.toUInt64.toFloat = ofParts .positive h := by
    show Float.ofModel (pack (UnpackedFloat.ofNat .binary64 n.toUInt64.toNat)) = _
    rw [hword, ofNat_unpacked h]
    rfl
  have hround : roundWithAccuracy .binary64 .positive (n * 2 ^ j * 2 ^ 52) (-j + -52) .exact =
      .finite .positive (n * 2 ^ j) (-j) h.pos := round_scaled h .positive 52
  have hproduct : ofParts .positive h * Float.exactlyRepresentablePowersOfTen[0] = ofParts .positive h := by
    show Float.ofModel (pack (UnpackedFloat.mul .binary64 (ofParts .positive h).toModel.unpack
      (Float.exactlyRepresentablePowersOfTen[0]).toModel.unpack)) = _
    rw [unpack_ofParts, unpack_one]
    show Float.ofModel (pack (roundWithAccuracy .binary64 .positive (n * 2 ^ j * 2 ^ 52) (-j + -52) .exact)) = _
    rw [hround]
    rfl
  rw [ofNat, Float.ofScientific, dif_pos ⟨hn, by decide⟩]
  simp only [Bool.false_eq_true, if_false]
  rw [hfactor]
  exact hproduct

lemma neg_ofParts {e : Int} (h : Normal m e) : -ofParts .positive h = ofParts .negative h := by
  show Float.ofModel (pack (ofParts .positive h).toModel.unpack.neg) = _
  rw [unpack_ofParts]
  rfl

/-! Doubles without fraction. -/

def signOf (negative : Bool) : Sign := if negative then .negative else .positive

lemma decode_eq_finite (h : decode x = .finite b) :
    b.mantissa < 2 ^ 52 ∧ b.exponent = .negSucc 1073 ∧
      x.toBits.toNat = (if b.negative then 2 ^ 63 else 0) + b.mantissa ∨
    ∃ hn : Normal b.mantissa b.exponent, x = ofParts (signOf b.negative) hn := by
  have hlt : x.toBits.toNat < 2 ^ 64 := x.toBits.toNat_lt
  have hpow : Nat.pow 2 52 = 2 ^ 52 ∧ Nat.pow 2 63 = 2 ^ 63 := ⟨rfl, rfl⟩
  simp only [decode, hpow] at h
  split at h
  · split at h <;> cases h
  · rename_i hinfinite
    split at h
    · rename_i hzero
      cases h
      refine .inl ⟨Nat.mod_lt _ (by decide), rfl, ?_⟩
      simp only [beq_iff_eq] at hzero ⊢
      split <;> omega
    · rename_i hzero
      cases h
      simp only [beq_iff_eq] at hinfinite hzero
      have hn : Normal (x.toBits.toNat % 2 ^ 52 + 2 ^ 52) ((x.toBits.toNat / 2 ^ 52 % 2048 : Nat) - 1075) := by
        constructor <;> omega
      refine .inr ⟨hn, Float.toBits_inj.1 (UInt64.toNat_inj.1 ?_)⟩
      rw [toBits_ofParts]
      by_cases hnegative : x.toBits.toNat / 2 ^ 63 = 1
      · simp only [hnegative, signOf, beq_self_eq_true, if_true, Sign.toBitVec, BitVec.toNat_ofNat]
        omega
      · simp only [beq_iff_eq, hnegative, signOf, if_false, Sign.toBitVec, BitVec.toNat_ofNat]
        omega

lemma Binary.mod_eq_zero_of_isIntegral {negative : Bool} {k : Nat}
    (h : Binary.isIntegral ⟨negative, m, .negSucc k⟩ = true) : m % 2 ^ (k + 1) = 0 := eq_of_beq h

lemma Binary.eq_zero_of_isIntegral {negative : Bool} {j k : Nat}
    (h : Binary.isIntegral ⟨negative, m, .negSucc k⟩ = true) (hm : m < 2 ^ j) (hj : j ≤ k + 1) : m = 0 := by
  have hmod := mod_eq_zero_of_isIntegral h
  rwa [Nat.mod_eq_of_lt (Nat.lt_of_lt_of_le hm (Nat.pow_le_pow_right (by decide) hj))] at hmod

@[simp] lemma Binary.isIntegral_zero (negative : Bool) (e : Int) : Binary.isIntegral ⟨negative, 0, e⟩ = true := by
  cases e <;> simp [isIntegral]

@[simp] lemma Binary.whole_zero (negative : Bool) (e : Int) : Binary.whole ⟨negative, 0, e⟩ = 0 := by
  cases e <;> simp [whole]

@[simp] lemma Binary.toInt_zero (negative : Bool) (e : Int) : Binary.toInt ⟨negative, 0, e⟩ = 0 := by simp [toInt]

/-- A double with a leading bit that is a whole number of at most 53 bits has no bits behind the
point. -/
theorem Normal.exists_scaled (h : Normal b.mantissa b.exponent) (hint : b.isIntegral = true)
    (hlt : b.whole < 2 ^ 53) : ∃ j : Nat, b.exponent = -j ∧ b.mantissa = b.whole * 2 ^ j := by
  obtain ⟨negative, m, e⟩ := b
  cases e with
  | ofNat k =>
    have hk : k = 0 := by
      have hwhole : m * 2 ^ k < 2 ^ 53 := hlt
      have hm : 2 ^ 52 ≤ m := h.least
      rcases Nat.eq_zero_or_pos k with hk | hk
      · exact hk
      · have htwo : 2 ^ 1 ≤ 2 ^ k := Nat.pow_le_pow_right (by decide) hk
        have := Nat.mul_le_mul hm htwo
        omega
    subst hk
    exact ⟨0, rfl, by simp [Binary.whole]⟩
  | negSucc k =>
    have hdvd := Nat.dvd_of_mod_eq_zero (Binary.mod_eq_zero_of_isIntegral hint)
    exact ⟨k + 1, rfl, (Nat.div_mul_cancel hdvd).symm⟩

lemma ofInt_toInt (h : decode x = .finite b) (hint : b.isIntegral = true) (hlt : b.whole < 2 ^ 53)
    (hzero : x ≠ -0) : ofInt b.toInt = x := by
  rcases decode_eq_finite h with ⟨hsmall, hexponent, hbits⟩ | ⟨hnormal, hx⟩
  · obtain ⟨negative, m, e⟩ := b
    obtain rfl : e = .negSucc 1073 := hexponent
    have hm : m = 0 := Binary.eq_zero_of_isIntegral hint hsmall (by decide)
    subst hm
    cases negative with
    | true => exact absurd (Float.toBits_inj.1 (UInt64.toNat_inj.1 (hbits.trans rfl))) hzero
    | false =>
      rw [Binary.toInt_zero]
      have hnone : (ofInt 0).toBits.toNat = 0 := by decide
      exact Float.toBits_inj.1 (UInt64.toNat_inj.1 (hnone.trans hbits.symm))
  · obtain ⟨j, hexponent, hmantissa⟩ := hnormal.exists_scaled hint hlt
    obtain ⟨negative, m, e⟩ := b
    generalize hn : Binary.whole ⟨negative, m, e⟩ = n at hmantissa hlt
    obtain rfl : e = -j := hexponent
    obtain rfl : m = n * 2 ^ j := hmantissa
    have hof := ofNat_eq_ofParts hlt hnormal
    cases negative with
    | false =>
      have hint : Binary.toInt ⟨false, n * 2 ^ j, -j⟩ = .ofNat n := by simp [Binary.toInt, hn]
      rw [hint, hx]
      exact hof
    | true =>
      have hpos : 0 < n := Nat.pos_of_mul_pos_right hnormal.pos
      obtain ⟨k, rfl⟩ : ∃ k, n = k + 1 := ⟨n - 1, by omega⟩
      have hint : Binary.toInt ⟨true, (k + 1) * 2 ^ j, -j⟩ = .negSucc k := by
        simp only [Binary.toInt, hn, if_true]
        rfl
      rw [hint, hx]
      show -ofNat (k + 1) = _
      rw [hof]
      exact neg_ofParts hnormal

end StoryMarkup.Decimal
