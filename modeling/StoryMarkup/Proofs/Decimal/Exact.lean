import StoryMarkup.Proofs.Decimal.Doubles

/-! Whole numbers of at most 53 bits: doubles are added and multiplied without rounding, and decoded
as they are. -/
namespace StoryMarkup.Decimal

open Float.Model
open Float.Model.UnpackedFloat (Sign)

variable {m : Int} {a b j : Nat}

lemma unpack_ofNat (h : a < 2 ^ 53) : (ofNat a).toModel.unpack = UnpackedFloat.ofNat .binary64 a := by
  rcases Nat.eq_zero_or_pos a with rfl | hpos
  · rfl
  · obtain ⟨j, hj⟩ := exists_normal hpos h
    rw [ofNat_eq_ofParts h hj, unpack_ofParts, ofNat_unpacked hj]

lemma pack_ofNat (h : a < 2 ^ 53) : Float.ofModel (pack (UnpackedFloat.ofNat .binary64 a)) = ofNat a := by
  rw [← unpack_ofNat h]
  exact Float.toBits_inj.1 (congrArg UInt64.ofBitVec (UnpackedFloat.pack_unpack_of_valid (ofNat a).toModel.valid))

lemma mul_two_pow_scaled (n j : Nat) {k : Nat} (hk : 0 ≤ -(j : Int) + k) :
    n * 2 ^ j * 2 ^ (-(j : Int) + k).toNat = n * 2 ^ k := by
  rw [Nat.mul_assoc, ← Nat.pow_add]
  congr 2
  omega

/-- Numbers are added at the exponent of the smaller one, where a whole number `w` keeps all of its
bits. -/
lemma add_whole {n w : Nat} {e : Int} (ha : Normal (a * 2 ^ j) (-j)) (h : Normal n e) (s : Sign)
    (hw : ∀ k : Nat, 0 ≤ e + k → n * 2 ^ (e + k).toNat = w * 2 ^ k) :
    ∃ k : Nat, UnpackedFloat.add .binary64 (.finite .positive (a * 2 ^ j) (-j) ha.pos) (.finite s n e h.pos) =
      UnpackedFloat.normalize .binary64 ((a + s.apply w) * (2 ^ k : Nat)) (-k) .positive := by
  obtain ⟨k, hk⟩ : ∃ k : Nat, k = max j (-e).toNat := ⟨_, rfl⟩
  have hmin : min (-j : Int) e = -k := by omega
  refine ⟨k, ?_⟩
  simp only [UnpackedFloat.add, UnpackedFloat.decreaseExponent, Nat.shiftLeft_eq, hmin,
    sub_neg_eq_add, mul_two_pow_scaled a j (k := k) (by omega), hw k (by omega), Int.add_mul]
  cases s <;> simp [Sign.apply]

lemma normalize_ofNat (h : a < 2 ^ 53) (k : Nat) :
    UnpackedFloat.normalize .binary64 (a * (2 ^ k : Nat)) (-k) .positive = UnpackedFloat.ofNat .binary64 a := by
  rcases Nat.eq_zero_or_pos a with rfl | hpos
  · rw [Int.natCast_zero, Int.zero_mul]
    rfl
  · obtain ⟨j, hj⟩ := exists_normal hpos h
    have hcompare : compare ((a * 2 ^ k : Nat) : Int) 0 = .gt :=
      Int.compare_eq_gt.2 (by exact_mod_cast Nat.mul_pos hpos (Nat.two_pow_pos k))
    rw [ofNat_unpacked hj, ← Int.natCast_mul]
    simp only [UnpackedFloat.normalize, hcompare, Int.toNat_natCast, round_whole hj]

lemma ofNat_add (h : a + b < 2 ^ 53) : ofNat a + ofNat b = ofNat (a + b) := by
  show Float.ofModel (pack (UnpackedFloat.add .binary64 (ofNat a).toModel.unpack (ofNat b).toModel.unpack)) = _
  rw [unpack_ofNat (by omega), unpack_ofNat (by omega), ← pack_ofNat h]
  rcases Nat.eq_zero_or_pos a with rfl | ha
  · rw [Nat.zero_add]
    rcases Nat.eq_zero_or_pos b with rfl | hb
    · rfl
    · obtain ⟨i, hi⟩ := exists_normal hb (by omega)
      rw [ofNat_unpacked hi]
      rfl
  obtain ⟨j, hj⟩ := exists_normal ha (by omega)
  rcases Nat.eq_zero_or_pos b with rfl | hb
  · rw [Nat.add_zero, ofNat_unpacked hj]
    rfl
  obtain ⟨i, hi⟩ := exists_normal hb (by omega)
  obtain ⟨k, hk⟩ := add_whole hj hi .positive fun k => mul_two_pow_scaled b i
  rw [ofNat_unpacked hj, ofNat_unpacked hi, hk, ← normalize_ofNat h k]
  rfl

lemma ofNat_mul (hb : 0 < b) (hblt : b < 2 ^ 53) (hproduct : a * b < 2 ^ 53) : ofNat a * ofNat b = ofNat (a * b) := by
  obtain ⟨k, hk⟩ := exists_normal hb hblt
  rw [ofNat_eq_ofParts hblt hk]
  rcases Nat.eq_zero_or_pos a with rfl | ha
  · rw [Nat.zero_mul]
    show Float.ofModel (pack (UnpackedFloat.mul .binary64 (.zero .positive) (ofParts .positive hk).toModel.unpack)) = _
    rw [unpack_ofParts]
    rfl
  have halt : a < 2 ^ 53 := Nat.lt_of_le_of_lt (Nat.le_mul_of_pos_right a hb) hproduct
  obtain ⟨j, hj⟩ := exists_normal ha halt
  obtain ⟨i, hi⟩ := exists_normal (Nat.mul_pos ha hb) hproduct
  have hle : i ≤ j + k := by
    have hleast := Nat.mul_le_mul hj.least hk.least
    have hlt := hi.lt
    by_contra hgt
    have hmul := Nat.mul_le_mul_left (a * b) (Nat.pow_le_pow_right (n := 2) (by decide) (Nat.le_of_not_le hgt))
    rw [Nat.pow_add, Nat.mul_mul_mul_comm] at hmul
    omega
  have hround := round_scaled hi .positive (j + k - i)
  rw [Nat.mul_assoc, ← Nat.pow_add, Nat.add_sub_cancel' hle] at hround
  have hexponent : (-i : Int) - (j + k - i : Nat) = -j + -k := by omega
  rw [ofNat_eq_ofParts halt hj, ofNat_eq_ofParts hproduct hi]
  show Float.ofModel (pack (UnpackedFloat.mul .binary64 (ofParts .positive hj).toModel.unpack
    (ofParts .positive hk).toModel.unpack)) = _
  rw [unpack_ofParts, unpack_ofParts]
  show Float.ofModel (pack (UnpackedFloat.roundWithAccuracy .binary64 .positive
    (a * 2 ^ j * (b * 2 ^ k)) (-j + -k) .exact)) = _
  rw [Nat.mul_mul_mul_comm, ← Nat.pow_add, ← hexponent, hround]
  rfl

lemma ofInt_eq (m : Int) : ofInt m = if m < 0 then -ofNat m.natAbs else ofNat m.natAbs := by
  cases m with
  | ofNat n => rfl
  | negSucc n =>
    rw [if_pos (Int.negSucc_lt_zero n)]
    rfl

lemma ofInt_eq_ofParts (h : Normal (m.natAbs * 2 ^ j) (-j)) : ofInt m = ofParts (signOf (m < 0)) h := by
  have hlt : m.natAbs < 2 ^ 53 := Nat.lt_of_le_of_lt (Nat.le_mul_of_pos_right _ (Nat.two_pow_pos j)) h.lt
  rw [ofInt_eq, ofNat_eq_ofParts hlt h]
  by_cases hneg : m < 0
  · simp only [hneg, if_true, decide_true]
    exact neg_ofParts h
  · simp only [hneg, if_false, decide_false]
    rfl

lemma decode_ofParts (negative : Bool) {n : Nat} {e : Int} (h : Normal n e) :
    decode (ofParts (signOf negative) h) = .finite ⟨negative, n, e⟩ := by
  have hlow := h.least
  have hhigh := h.lt
  have hleast := h.least_exponent
  have hexp := h.exponent_le
  have hbits := toBits_ofParts h (signOf negative)
  have hpow : Nat.pow 2 52 = 2 ^ 52 ∧ Nat.pow 2 63 = 2 ^ 63 := ⟨rfl, rfl⟩
  have hsign : (signOf negative).toBitVec.toNat = if negative then 1 else 0 := by cases negative <;> rfl
  rw [hsign] at hbits
  have hone : (if negative then 1 else 0) ≤ 1 := by split <;> decide
  have hnegative : (ofParts (signOf negative) h).toBits.toNat / 2 ^ 63 = if negative then 1 else 0 := by omega
  have hfield : (ofParts (signOf negative) h).toBits.toNat / 2 ^ 52 % 2048 = (e + 1075).toNat := by omega
  have hfraction : (ofParts (signOf negative) h).toBits.toNat % 2 ^ 52 = n - 2 ^ 52 := by omega
  simp only [decode, hpow, hnegative, hfield, hfraction]
  rw [if_neg (by simp; omega), if_neg (by simp; omega)]
  simp only [Decoded.finite.injEq, Binary.mk.injEq]
  refine ⟨by cases negative <;> rfl, by omega, by omega⟩

/-- The double of a whole number is that number. -/
theorem decode_ofInt (hlt : m.natAbs < 2 ^ 53) :
    ∃ b, decode (ofInt m) = .finite b ∧ b.isIntegral = true ∧ b.negative = decide (m < 0) ∧ b.whole = m.natAbs := by
  by_cases hm : m = 0
  · subst hm
    exact ⟨⟨false, 0, leastExponent⟩, by decide +kernel⟩
  · obtain ⟨j, h⟩ := exists_normal (by omega) hlt
    refine ⟨⟨decide (m < 0), m.natAbs * 2 ^ j, -j⟩, by rw [ofInt_eq_ofParts h, decode_ofParts], ?_, rfl, ?_⟩
    · cases j with
      | zero => rfl
      | succ j => exact beq_iff_eq.2 (Nat.mul_mod_left _ _)
    · cases j with
      | zero => simp [Binary.whole]
      | succ j => exact Nat.mul_div_cancel _ (Nat.two_pow_pos _)

lemma toCount_ofNat (hlt : a < 2 ^ 53) : toCount (ofNat a) = a := by
  obtain ⟨b, hdecode, -, hnegative, hwhole⟩ := decode_ofInt (m := a) hlt
  have hbound : a ≤ greatestCount := Nat.le_trans (Nat.le_of_lt hlt) (by decide)
  have hpositive : b.negative = false := hnegative.trans (decide_eq_false (by omega))
  change toCount (ofInt a) = a
  simp only [toCount, hdecode, hpositive, hwhole]
  simpa using hbound

lemma abs_ofInt (hlt : m.natAbs < 2 ^ 53) : (ofInt m).abs = ofNat m.natAbs := by
  by_cases hm : m = 0
  · subst hm
    decide +kernel
  · obtain ⟨j, h⟩ := exists_normal (by omega) hlt
    rw [ofInt_eq_ofParts h, ofNat_eq_ofParts hlt h]
    show Float.ofModel (pack (ofParts _ h).toModel.unpack.abs) = _
    rw [unpack_ofParts]
    rfl

lemma ofInt_lt_zero (hlt : m.natAbs < 2 ^ 53) : ofInt m < 0 ↔ m < 0 := by
  by_cases hm : m = 0
  · subst hm
    decide +kernel
  · obtain ⟨j, h⟩ := exists_normal (by omega) hlt
    have hmodel : ofInt m < 0 ↔ (ofInt m).toModel.unpack.lt (.zero .positive) = true := decide_eq_true_iff
    rw [hmodel, ofInt_eq_ofParts h, unpack_ofParts]
    by_cases hneg : m < 0 <;> simp [hneg, signOf, UnpackedFloat.lt, UnpackedFloat.compare]

end StoryMarkup.Decimal
