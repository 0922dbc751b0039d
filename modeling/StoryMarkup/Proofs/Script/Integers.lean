import StoryMarkup.Proofs.Decimal.Doubles
import StoryMarkup.Script.Operator

/-! Numbers as integers: texts of whole numbers and operators on bits go by way of a word of 64
bits. -/
namespace StoryMarkup

variable {m : ℤ} (b : Binary) {x : Float} {q : ℚ}

namespace Decimal

namespace Binary

/-- The number that sign, mantissa and power of two stand for. -/
def value (b : Binary) : ℚ := (if b.negative then -1 else 1) * (b.mantissa * 2 ^ b.exponent)

lemma magnitude_nonneg : (0 : ℚ) ≤ b.mantissa * 2 ^ b.exponent := by positivity

lemma floor_magnitude : ⌊(b.mantissa * 2 ^ b.exponent : ℚ)⌋ = b.whole := by
  obtain ⟨negative, m, e⟩ := b
  cases e with
  | ofNat k =>
    have hcast : (m * 2 ^ Int.ofNat k : ℚ) = (m * 2 ^ k : ℕ) := by push_cast; rfl
    rw [hcast]
    exact Int.floor_natCast _
  | negSucc k =>
    have hcast : (m * 2 ^ Int.negSucc k : ℚ) = ((m : ℤ) : ℚ) / ((2 ^ (k + 1) : ℕ) : ℚ) := by
      rw [zpow_negSucc, div_eq_mul_inv]
      push_cast
      rfl
    rw [hcast, Rat.floor_intCast_div_natCast]
    rfl

lemma magnitude_eq_whole_iff : (b.mantissa * 2 ^ b.exponent : ℚ) = b.whole ↔ b.isIntegral = true := by
  obtain ⟨negative, m, e⟩ := b
  cases e with
  | ofNat k =>
    refine iff_of_true ?_ rfl
    change (m * 2 ^ Int.ofNat k : ℚ) = (m * 2 ^ k : ℕ)
    push_cast
    rfl
  | negSucc k =>
    have hpos : (0 : ℚ) < 2 ^ (k + 1) := by positivity
    change (m * 2 ^ Int.negSucc k : ℚ) = (m / 2 ^ (k + 1) : ℕ) ↔ (m % 2 ^ (k + 1) == 0) = true
    rw [beq_iff_eq, ← Nat.dvd_iff_mod_eq_zero, zpow_negSucc, ← div_eq_mul_inv, div_eq_iff hpos.ne']
    constructor
    · intro h
      exact ⟨m / 2 ^ (k + 1), by rw [mul_comm]; exact_mod_cast h⟩
    · intro h
      exact_mod_cast (Nat.div_mul_cancel h).symm

end Binary

/-- The integer that is left of a number when its fraction is cut off. -/
def cutOff (q : ℚ) : ℤ := if 0 ≤ q then ⌊q⌋ else ⌈q⌉

lemma Binary.cutOff_value : cutOff b.value = b.toInt := by
  have hnonneg := b.magnitude_nonneg
  have hfloor := b.floor_magnitude
  unfold cutOff value toInt
  generalize (b.mantissa * 2 ^ b.exponent : ℚ) = q at hnonneg hfloor
  cases b.negative with
  | false => simp [hnonneg, hfloor]
  | true =>
    rcases hnonneg.eq_or_lt with rfl | hpos
    · simp [← hfloor]
    · simp [hpos.not_ge, Int.ceil_neg, hfloor]

lemma Binary.value_eq_intCast_iff (m : ℤ) : b.value = m ↔ b.isIntegral = true ∧ b.toInt = m := by
  have hcut : b.value = m → b.toInt = m := by
    intro h
    rw [← b.cutOff_value, h]
    simp [cutOff]
  have hint : b.value = b.toInt ↔ b.isIntegral = true := by
    rw [← b.magnitude_eq_whole_iff]
    unfold value toInt
    cases b.negative with
    | false | true => simp
  constructor
  · intro h
    refine ⟨hint.1 ?_, hcut h⟩
    rw [hcut h, h]
  · rintro ⟨h, rfl⟩
    exact hint.2 h

/-- The double is this number. -/
def Denotes (x : Float) (q : ℚ) : Prop := ∃ b, decode x = .finite b ∧ b.value = q

/-- The signed 64-bit word that is nearest to an integer. -/
def nearestWord (m : ℤ) : ℤ := max (-2 ^ 63) (min (2 ^ 63 - 1) m)

lemma nearestWord_eq_self_iff : nearestWord m = m ↔ -2 ^ 63 ≤ m ∧ m < 2 ^ 63 := by
  unfold nearestWord
  omega

lemma toWord_eq (hx : Denotes x q) : toWord x = nearestWord (cutOff q) := by
  obtain ⟨b, hb, rfl⟩ := hx
  rw [b.cutOff_value]
  unfold toWord
  rw [hb]
  rfl

lemma isFinite_of_denotes (hx : Denotes x q) : isFinite x = true := by
  obtain ⟨b, hb, -⟩ := hx
  unfold isFinite
  rw [hb]

lemma toInt32_eq (hx : Denotes x q) : toInt32 x = (nearestWord (cutOff q)).bmod (2 ^ 32) := by
  unfold toInt32
  rw [if_pos (isFinite_of_denotes hx), toWord_eq hx]
  rfl

lemma dvd_whole_of_le {b : Binary} (hb : decode x = .finite b) (hle : 2 ^ 63 ≤ b.whole) : 2 ^ 11 ∣ b.whole := by
  have hmantissa : b.mantissa < 2 ^ 53 := by
    rcases decode_eq_finite hb with ⟨hsmall, -, -⟩ | ⟨hnormal, -⟩
    · omega
    · exact hnormal.lt
  obtain ⟨negative, m, e⟩ := b
  cases e with
  | negSucc k =>
    have hdiv : m / 2 ^ (k + 1) ≤ m := Nat.div_le_self _ _
    have hwhole : 2 ^ 63 ≤ m / 2 ^ (k + 1) := hle
    have hm : m < 2 ^ 53 := hmantissa
    omega
  | ofNat k =>
    have hk : 11 ≤ k := by
      by_contra hlt
      have hpow : 2 ^ k ≤ 2 ^ 10 := Nat.pow_le_pow_right (by decide) (by omega)
      have hwhole : 2 ^ 63 ≤ m * 2 ^ k := hle
      have hmul : m * 2 ^ k ≤ (2 ^ 53 - 1) * 2 ^ 10 := Nat.mul_le_mul (Nat.le_pred_of_lt hmantissa) hpow
      omega
    exact Dvd.dvd.mul_left (Nat.pow_dvd_pow 2 hk) m

/-- The integers that go into a word without a change of their last 32 bits. -/
def Reduces (m : ℤ) : Prop := -2 ^ 63 ≤ m ∧ m < 2 ^ 63 ∨ m < -2 ^ 63 ∧ 2 ^ 32 ∣ m

lemma toInt32_modEq_iff (hx : Denotes x q) : toInt32 x ≡ cutOff q [ZMOD 2 ^ 32] ↔ Reduces (cutOff q) := by
  have hword : toInt32 x ≡ nearestWord (cutOff q) [ZMOD 2 ^ 32] := by
    rw [toInt32_eq hx]
    exact Int.bmod_emod
  have hhigh : 2 ^ 63 ≤ cutOff q → 2 ^ 11 ∣ cutOff q := by
    obtain ⟨b, hb, rfl⟩ := hx
    rw [b.cutOff_value]
    unfold Binary.toInt
    cases b.negative with
    | true =>
      intro hle
      simp only [if_true] at hle
      omega
    | false =>
      intro hle
      change (2 ^ 63 : ℤ) ≤ (b.whole : ℤ) at hle
      change (2 ^ 11 : ℤ) ∣ (b.whole : ℤ)
      exact_mod_cast dvd_whole_of_le hb (by exact_mod_cast hle)
  generalize cutOff q = m at hword hhigh
  have hiff : toInt32 x ≡ m [ZMOD 2 ^ 32] ↔ nearestWord m ≡ m [ZMOD 2 ^ 32] := ⟨hword.symm.trans, hword.trans⟩
  rw [hiff]
  unfold nearestWord Reduces Int.ModEq
  omega

lemma toInt32_bounds (x : Float) : -2 ^ 31 ≤ toInt32 x ∧ toInt32 x < 2 ^ 31 := by
  unfold toInt32
  split
  · exact ⟨Int.le_bmod (by decide), Int.bmod_lt (by decide)⟩
  · decide

lemma toInt32_eq_iff (hx : Denotes x q) (hq : Reduces (cutOff q)) (k : ℤ) :
    toInt32 x = k ↔ -2 ^ 31 ≤ k ∧ k < 2 ^ 31 ∧ k ≡ cutOff q [ZMOD 2 ^ 32] := by
  have hcongr := (toInt32_modEq_iff hx).2 hq
  obtain ⟨hle, hlt⟩ := toInt32_bounds x
  unfold Int.ModEq at hcongr ⊢
  omega

end Decimal

namespace Script

open Decimal (Denotes Reduces cutOff digitsText nearestWord ofInt toInt32)

lemma digitsText_inj {m n : Nat} (h : digitsText m = digitsText n) : m = n := by
  have hdigits : Nat.toDigits 10 m = Nat.toDigits 10 n := String.ofList_injective h
  have hvalue : ∀ k, Nat.ofDigitChars 10 (Nat.toDigits 10 k) 0 = k := fun k => Nat.ofDigitChars_ten_toDigits
  rw [← hvalue m, hdigits, hvalue n]

lemma digitsText_ne_minus (m : Nat) (s : String) : digitsText m ≠ "-" ++ s := by
  intro h
  have hmem : '-' ∈ Nat.toDigits 10 m := by
    have hlist : Nat.toDigits 10 m = ("-" ++ s).toList := by rw [← h, digitsText, String.toList_ofList]
    rw [hlist, String.toList_append]
    exact List.mem_append_left _ (List.mem_singleton.2 rfl)
  exact absurd (Nat.isDigit_of_mem_toDigits (by omega) (by omega) hmem) (by decide)

lemma repr_inj {n : ℤ} (h : m.repr = n.repr) : m = n := by
  cases m with
  | ofNat m =>
    cases n with
    | ofNat n => exact congrArg Int.ofNat (digitsText_inj h)
    | negSucc n => exact absurd h (digitsText_ne_minus m _)
  | negSucc m =>
    cases n with
    | ofNat n => exact absurd h.symm (digitsText_ne_minus n _)
    | negSucc n => exact congrArg Int.negSucc (Nat.succ.inj (digitsText_inj (String.append_right_inj _ |>.1 h)))

lemma repr_eq (m : ℤ) : m.repr = if m < 0 then "-" ++ digitsText m.natAbs else digitsText m.natAbs := by
  cases m with
  | ofNat m => rfl
  | negSucc m =>
    rw [if_pos (Int.negSucc_lt_zero m)]
    rfl

lemma numberText_of_integral (hx : Denotes x m) (hm : |m| < 10 ^ 21) : numberText x = (nearestWord m).repr := by
  have hword : Decimal.toWord x = nearestWord m := by
    rw [Decimal.toWord_eq hx]
    simp [cutOff]
  obtain ⟨b, hb, hvalue⟩ := hx
  obtain ⟨hint, rfl⟩ := (b.value_eq_intCast_iff m).1 hvalue
  have hwhole : b.whole < Nat.pow 10 21 := by
    have habs : |b.toInt| = b.whole := by
      unfold Decimal.Binary.toInt
      split <;> simp
    rw [habs] at hm
    exact_mod_cast hm
  unfold numberText
  rw [hb]
  simp only [hint, hwhole, decide_true, Bool.and_true, if_true, hword]
  exact (repr_eq _).symm

/-- Whole numbers below `10 ^ 21` are shown as the nearest word: with their own digits just if they
are words. -/
theorem integral_number_text {x : Float} {m : ℤ} (hx : Denotes x m) (hm : |m| < 10 ^ 21) :
    numberText x = (nearestWord m).repr ∧
    (numberText x = m.repr ↔ -2 ^ 63 ≤ m ∧ m < 2 ^ 63) ∧
    ∀ (y : Float) (n : ℤ), Denotes y n → |n| < 10 ^ 21 →
      (numberText x = numberText y ↔ nearestWord m = nearestWord n) := by
  have htext := numberText_of_integral hx hm
  refine ⟨htext, ?_, fun y n hy hn => ?_⟩
  · rw [htext, ← Decimal.nearestWord_eq_self_iff]
    exact ⟨repr_inj, fun h => by rw [h]⟩
  · rw [htext, numberText_of_integral hy hn]
    exact ⟨repr_inj, fun h => by rw [h]⟩

theorem least_word_keeps_digits :
    Denotes (-9223372036854775808) (-2 ^ 63 : ℤ) ∧ |(-2 ^ 63 : ℤ)| < 10 ^ 21 ∧
      numberText (-9223372036854775808) = "-9223372036854775808" := by
  have hx : Denotes (-9223372036854775808) (-2 ^ 63 : ℤ) :=
    ⟨⟨true, 2 ^ 52, 11⟩, by decide +kernel, (Decimal.Binary.value_eq_intCast_iff _ _).2 (by decide +kernel)⟩
  exact ⟨hx, by decide, ((integral_number_text hx (by decide)).2.1.2 (by decide)).trans (by decide +kernel)⟩

/-- The next number past the words is shown as the greatest word. -/
theorem two_pow_63_loses_digits :
    Denotes 9223372036854775808 (2 ^ 63 : ℤ) ∧ numberText 9223372036854775808 = "9223372036854775807" :=
  ⟨⟨⟨false, 2 ^ 52, 11⟩, by decide +kernel, (Decimal.Binary.value_eq_intCast_iff _ _).2 (by decide +kernel)⟩,
    by decide +kernel⟩

/-- The last 32 bits of a number whose fraction is cut off. -/
def lowWord (q : ℚ) : BitVec 32 := BitVec.ofInt 32 (cutOff q)

lemma lowWord_eq_iff (p q : ℚ) : lowWord p = lowWord q ↔ cutOff p ≡ cutOff q [ZMOD 2 ^ 32] := by
  unfold lowWord Int.ModEq
  rw [← BitVec.toInt_inj, BitVec.toInt_ofInt, BitVec.toInt_ofInt]
  constructor
  · intro h
    calc cutOff p % 2 ^ 32
      _ = (cutOff p).bmod (2 ^ 32) % 2 ^ 32 := Int.bmod_emod.symm
      _ = (cutOff q).bmod (2 ^ 32) % 2 ^ 32 := by rw [h]
      _ = cutOff q % 2 ^ 32 := Int.bmod_emod
  · intro h
    calc (cutOff p).bmod (2 ^ 32)
      _ = (cutOff p % 2 ^ 32).bmod (2 ^ 32) := (Int.emod_bmod _ _).symm
      _ = (cutOff q % 2 ^ 32).bmod (2 ^ 32) := by rw [h]
      _ = (cutOff q).bmod (2 ^ 32) := Int.emod_bmod _ _

section Words

variable {x y : Float} {p q : ℚ}

lemma toInt_lowWord (hx : Denotes x p) (hp : Reduces (cutOff p)) : (lowWord p).toInt = toInt32 x := by
  refine ((Decimal.toInt32_eq_iff hx hp _).2 ⟨BitVec.le_toInt _, BitVec.toInt_lt, ?_⟩).symm
  rw [lowWord, BitVec.toInt_ofInt]
  exact Int.bmod_emod

lemma toInt_not_eq (w : BitVec 32) : (~~~w).toInt = -w.toInt - 1 := by
  rw [BitVec.toInt_not, Int.bmod_eq_iff (by decide), BitVec.toInt_eq_toNat_cond]
  have hlt := w.isLt
  split <;> omega

lemma complement_number (hx : Denotes x p) (hp : Reduces (cutOff p)) (h : Heap) :
    h.unary .complement (.number x) = .number (ofInt (~~~lowWord p).toInt) := by
  rw [toInt_not_eq, toInt_lowWord hx hp]
  rfl

lemma bits_number (hx : Denotes x p) (hy : Denotes y q) (hp : Reduces (cutOff p))
    (hq : Reduces (cutOff q)) (h : Heap) (f : BitVec 32 → BitVec 32 → BitVec 32) :
    h.bits f (.number x) (.number y) = .number (ofInt (f (lowWord p) (lowWord q)).toInt) := by
  have hword : ∀ w : BitVec 32, BitVec.ofInt 32 w.toInt = w := fun w => BitVec.ofInt_toInt
  unfold Heap.bits
  rw [← hword (lowWord p), ← hword (lowWord q), toInt_lowWord hx hp, toInt_lowWord hy hq]
  rfl

/-- The operators on bits work with the last 32 bits of their operands just if these do not change
on the way into a word. -/
theorem bitwise_modulo_two_pow (hx : Denotes x p) (hy : Denotes y q) :
    (-2 ^ 31 ≤ toInt32 x ∧ toInt32 x < 2 ^ 31) ∧
    (toInt32 x ≡ cutOff p [ZMOD 2 ^ 32] ↔ Reduces (cutOff p)) ∧
    (Reduces (cutOff p) → ∀ k, toInt32 x = k ↔ -2 ^ 31 ≤ k ∧ k < 2 ^ 31 ∧ k ≡ cutOff p [ZMOD 2 ^ 32]) ∧
    (∀ p', lowWord p' = lowWord p ↔ cutOff p' ≡ cutOff p [ZMOD 2 ^ 32]) ∧
    (Reduces (cutOff p) → Reduces (cutOff q) → ∀ h : Heap,
      h.unary .complement (.number x) = .number (ofInt (~~~lowWord p).toInt) ∧
      h.binary .bitAnd (.number x) (.number y) = .ok (.number (ofInt (lowWord p &&& lowWord q).toInt)) ∧
      h.binary .bitOr (.number x) (.number y) = .ok (.number (ofInt (lowWord p ||| lowWord q).toInt)) ∧
      h.binary .bitXor (.number x) (.number y) = .ok (.number (ofInt (lowWord p ^^^ lowWord q).toInt))) := by
  refine ⟨Decimal.toInt32_bounds x, Decimal.toInt32_modEq_iff hx, Decimal.toInt32_eq_iff hx,
    fun p' => lowWord_eq_iff p' p, fun hp hq h => ?_⟩
  have hbits := bits_number hx hy hp hq h
  exact ⟨complement_number hx hp h, congrArg _ (hbits _), congrArg _ (hbits _), congrArg _ (hbits _)⟩

end Words

/-- Two numbers with fractions, one past the 32 bits and one negative. -/
theorem fractions_give_bits : let b : Decimal.Binary := ⟨false, 4503599633399808, -20⟩
    let c : Decimal.Binary := ⟨true, 6755399441055744, -52⟩
    Denotes 4294967301.75 b.value ∧ Denotes (-1.5) c.value ∧ cutOff b.value = 4294967301 ∧ toInt32 4294967301.75 = 5 ∧
      ({} : Heap).unary .complement (.number 4294967301.75) = .number (ofInt (~~~lowWord b.value).toInt) := by
  intro b c
  have hx : Denotes 4294967301.75 b.value := ⟨b, by decide +kernel, rfl⟩
  have hy : Denotes (-1.5) c.value := ⟨c, by decide +kernel, rfl⟩
  have hb : cutOff b.value = 4294967301 := b.cutOff_value.trans (by decide +kernel)
  have hc : cutOff c.value = -1 := c.cutOff_value.trans (by decide +kernel)
  have hreduces : Reduces (cutOff b.value) := by rw [hb]; exact .inl (by decide)
  have hreduces' : Reduces (cutOff c.value) := by rw [hc]; exact .inl (by decide)
  obtain ⟨-, -, hunique, -, hbits⟩ := bitwise_modulo_two_pow hx hy
  refine ⟨hx, hy, hb, (hunique hreduces 5).2 ⟨by decide, by decide, ?_⟩, (hbits hreduces hreduces' {}).1⟩
  rw [hb]
  decide

/-- The next number past the words has its last 32 bits unset, and the greatest word has them
set. -/
theorem two_pow_63_loses_bits : let b : Decimal.Binary := ⟨false, 2 ^ 52, 11⟩
    Denotes 9223372036854775808 b.value ∧ cutOff b.value = 2 ^ 63 ∧ toInt32 9223372036854775808 =
      -1 ∧ ¬ -1 ≡ 2 ^ 63 [ZMOD 2 ^ 32] := by
  intro b
  exact ⟨⟨b, by decide +kernel, rfl⟩, b.cutOff_value.trans (by decide +kernel), by decide +kernel, by decide⟩

end Script
end StoryMarkup
