import StoryMarkup.Proofs.Decimal.Exact
import StoryMarkup.Proofs.Script.Integers
import StoryMarkup.Script.Library.Number

/-! Whole numbers in a base. Their texts are read back as the numbers, and have no more digits than
they need. -/
namespace StoryMarkup.Script

open Decimal (ofInt ofNat)
open List

variable {base n : Nat} {m : ℤ}

/-! Digits, first one first. -/

def digitsOf (base n : Nat) : List Nat := if n = 0 then [0] else (Nat.digits base n).reverse

lemma digitsOf_ne_nil : digitsOf base n ≠ [] := by
  unfold digitsOf
  split
  · simp
  · simpa using Nat.digits_ne_nil_iff_ne_zero.2 ‹_›

lemma digitsOf_eq_zero (h : (digitsOf base n).head? = some 0) : digitsOf base n = [0] := by
  unfold digitsOf at h ⊢
  split at h
  · rw [if_pos ‹_›]
  · rename_i hn
    rw [head?_reverse, getLast?_eq_getLast_of_ne_nil (Nat.digits_ne_nil_iff_ne_zero.2 hn)] at h
    exact absurd (Option.some.inj h) (Nat.getLast_digit_ne_zero base hn)

lemma foldl_digitsOf : (digitsOf base n).foldl (fun n d => n * base + d) 0 = n := by
  unfold digitsOf
  split
  · simp_all
  · have hvalue := Nat.ofDigits_digits base n
    rw [Nat.ofDigits_eq_foldr] at hvalue
    rw [foldl_reverse]
    simpa [Nat.mul_comm, Nat.add_comm] using hvalue

lemma digitsOf_of_lt (hn : n < base) : digitsOf base n = [n] := by
  unfold digitsOf
  split
  · rename_i hzero
    rw [hzero]
  · rw [Nat.digits_of_lt base n ‹_› hn]
    rfl

section

variable (hlow : 2 ≤ base)
include hlow

lemma lt_of_mem_digitsOf {d : Nat} (hd : d ∈ digitsOf base n) : d < base := by
  unfold digitsOf at hd
  split at hd
  · rw [mem_singleton.1 hd]
    omega
  · exact Nat.digits_lt_base hlow (mem_reverse.1 hd)

lemma digitsOf_of_le (hn : base ≤ n) : digitsOf base n = digitsOf base (n / base) ++ [n % base] := by
  have hrest : n / base ≠ 0 := Nat.ne_of_gt (Nat.div_pos hn (by omega))
  rw [digitsOf, digitsOf, if_neg (by omega), if_neg hrest, Nat.digits_def' hlow (by omega), reverse_cons]

lemma digitsBackward_eq {fuel : Nat} (hn : n < base ^ (fuel + 1)) :
    digitsBackward base (fuel + 1) n = ((digitsOf base n).map digitChar).reverse := by
  induction fuel generalizing n with
  | zero =>
    rw [Nat.pow_one] at hn
    simp [digitsBackward, digitsOf_of_lt hn, Nat.mod_eq_of_lt hn]
  | succ fuel ih =>
    by_cases hlt : n < base
    · simp [digitsBackward, digitsOf_of_lt hlt, Nat.mod_eq_of_lt hlt, Nat.div_eq_of_lt hlt]
    · have hle : base ≤ n := Nat.not_lt.1 hlt
      have hrest : n / base ≠ 0 := Nat.ne_of_gt (Nat.div_pos hle (by omega))
      have hmore := ih (n := n / base) (Nat.div_lt_of_lt_mul (by rwa [Nat.pow_succ, Nat.mul_comm] at hn))
      rw [digitsBackward, if_neg (by simpa using hrest), hmore, digitsOf_of_le hlow hle]
      simp

lemma le_foldl (ds : List Nat) (a : Nat) : a ≤ ds.foldl (fun n d => n * base + d) a := by
  induction ds generalizing a with
  | nil => exact Nat.le_refl a
  | cons d ds ih =>
    have hle : a ≤ a * base := Nat.le_mul_of_pos_right a (by omega)
    exact Nat.le_trans (by omega) (ih (a * base + d))

end

lemma toDigits_eq (n : Nat) : Nat.toDigits 10 n = (digitsOf 10 n).map digitChar := by
  have hchar : ∀ d < 10, Nat.digitChar d = digitChar d := by decide
  induction n using Nat.strongRecOn with
  | ind n ih =>
    by_cases hlt : n < 10
    · rw [Nat.toDigits_of_lt_base hlt, digitsOf_of_lt hlt, hchar n hlt]
      rfl
    · have hle : 10 ≤ n := Nat.not_lt.1 hlt
      rw [Nat.toDigits_of_base_le (by decide) hle, ih _ (Nat.div_lt_self (by omega) (by decide)),
        digitsOf_of_le (by decide) hle, hchar _ (Nat.mod_lt _ (by decide)), map_append]
      rfl

/-! Reading digits. -/

lemma digitChar_facts : ∀ d < 36, (digitChar d).toNat = (if d < 10 then 48 + d else 87 + d) ∧
    Text.isBlank (digitChar d) = false ∧ digitChar d ≠ '-' ∧ digitChar d ≠ '+' ∧ (digitChar d = '0' → d = 0) := by
  decide

section

variable (hlow : 2 ≤ base) (hhigh : base ≤ 36)
include hhigh

lemma radixDigit?_digitChar {d : Nat} (hd : d < base) : Decimal.radixDigit? base (digitChar d) = some d := by
  have hchar := (digitChar_facts d (by omega)).1
  unfold Decimal.radixDigit?
  split at hchar
  · simp [hchar, hd, show 48 + d ≤ 57 by omega]
  · simp [hchar, hd, show ¬87 + d ≤ 57 by omega, show 97 ≤ 87 + d by omega, show 87 + d ≤ 122 by omega]

lemma leadingDigits_map {ds : List Nat} (hds : ∀ d ∈ ds, d < base) : leadingDigits base (ds.map digitChar) = ds := by
  induction ds with
  | nil => rfl
  | cons d ds ih =>
    rw [map_cons, leadingDigits, radixDigit?_digitChar hhigh (hds d (by simp))]
    exact congrArg (d :: ·) (ih fun e he => hds e (by simp [he]))

include hlow

lemma foldl_ofNat {ds : List Nat} {a : Nat} (hlt : ds.foldl (fun n d => n * base + d) a < 2 ^ 53) :
    ds.foldl (fun x d => x * ofNat base + ofNat d) (ofNat a) = ofNat (ds.foldl (fun n d => n * base + d) a) := by
  induction ds generalizing a with
  | nil => rfl
  | cons d ds ih =>
    have hstep : a * base + d < 2 ^ 53 := Nat.lt_of_le_of_lt (le_foldl hlow ds _) hlt
    rw [foldl_cons, foldl_cons, Decimal.ofNat_mul (by omega) (by omega) (by omega), Decimal.ofNat_add hstep]
    exact ih hlt

lemma digitsNumber_digitsOf (hn : n < 2 ^ 53) : digitsNumber base (digitsOf base n) = ofNat n := by
  have hread : (digitsOf base n).foldl (fun x d => x * ofNat base + ofNat d) (ofNat 0) = _ :=
    foldl_ofNat hlow hhigh (by rwa [foldl_digitsOf])
  rwa [foldl_digitsOf] at hread

lemma explicitBase?_ofNat : explicitBase? (ofNat base) = some base := by
  have hall : ∀ r < 37, 2 ≤ r → explicitBase? (ofNat r) = some r := by decide +kernel
  exact hall base (by omega) hlow

/-- No digits are taken for the mark of base sixteen, since none but zero start with a zero. -/
lemma digits_not_hex {cs : List Char} (hcs : (digitsOf base n).map digitChar = cs) :
    (cs.head? == some '0' && ((cs.drop 1).head? == some 'x' || (cs.drop 1).head? == some 'X')) = false := by
  cases hzero : cs.head? == some '0' with
  | false => rfl
  | true =>
    rw [beq_iff_eq, ← hcs, head?_map] at hzero
    obtain ⟨d, hd, hchar⟩ := Option.map_eq_some_iff.1 hzero
    have hlt := lt_of_mem_digitsOf hlow (mem_of_mem_head? hd)
    obtain rfl := (digitChar_facts d (by omega)).2.2.2.2 hchar
    rw [← hcs, digitsOf_eq_zero hd]
    rfl

end

/-- The text of a whole number: an optional sign, then its digits. -/
def signedDigits (base : Nat) (m : ℤ) : List Char :=
  (if m < 0 then ['-'] else []) ++ (digitsOf base m.natAbs).map digitChar

lemma parseInteger_signedDigits (hlow : 2 ≤ base) (hhigh : base ≤ 36) (hm : m.natAbs < 2 ^ 53) :
    parseInteger (String.ofList (signedDigits base m)) (some (ofNat base)) = ofInt m := by
  have hbound : ∀ d ∈ digitsOf base m.natAbs, d < base := fun d => lt_of_mem_digitsOf hlow
  have hleading := leadingDigits_map hhigh hbound
  have hnumber := digitsNumber_digitsOf hlow hhigh hm
  have hsome : (digitsOf base m.natAbs).isEmpty = false := by simp [digitsOf_ne_nil]
  have hasked := explicitBase?_ofNat hlow hhigh
  have hbase : (base < 2 || base > 36) = false := by simp; omega
  have hhead : ∀ c ∈ ((digitsOf base m.natAbs).map digitChar).head?, Text.isBlank c = false ∧ c ≠ '-' ∧ c ≠ '+' := by
    intro c hc
    obtain ⟨d, hd, rfl⟩ := mem_map.1 (mem_of_mem_head? hc)
    obtain ⟨-, hblank, hminus, hplus, -⟩ := digitChar_facts d (Nat.lt_of_lt_of_le (hbound d hd) hhigh)
    exact ⟨hblank, hminus, hplus⟩
  unfold parseInteger signedDigits
  rw [Decimal.ofInt_eq]
  generalize hcs : (digitsOf base m.natAbs).map digitChar = cs at hhead hleading
  have hhex := digits_not_hex hlow hhigh hcs
  by_cases hneg : m < 0
  · have hblank : Text.isBlank '-' = false := by decide
    simp only [hneg, if_true, String.toList_ofList, singleton_append, dropWhile_cons, hblank,
      head?_cons, beq_self_eq_true,
      Bool.true_or, drop_succ_cons, drop_zero, Option.bind_some, hasked, hhex, Bool.and_false,
        Bool.false_eq_true, if_false,
      Option.getD_some, hbase, hleading, hsome, hnumber]
  · have htrim : cs.dropWhile Text.isBlank = cs := by
      cases cs with
      | nil => rfl
      | cons c cs => exact dropWhile_cons_of_neg (by simp [(hhead c rfl).1])
    have hsign : ((cs.head? == some '-') = false) ∧ (cs.head? == some '+') = false := by
      cases cs with
      | nil => exact ⟨rfl, rfl⟩
      | cons c cs => simpa using (hhead c rfl).2
    simp only [hneg, if_false, String.toList_ofList, nil_append, htrim, hsign, Bool.or_false, Option.bind_some, hasked,
      hhex, Bool.and_false, Bool.false_eq_true, Option.getD_some, hbase, hleading, hsome, hnumber]

/-! Texts. -/

lemma baseText_ofInt (hlow : 2 ≤ base) (hm : m.natAbs < 2 ^ 53) :
    baseText (ofInt m) base = String.ofList (signedDigits base m) := by
  obtain ⟨b, hdecode, hint, hnegative, hwhole⟩ := Decimal.decode_ofInt hm
  unfold baseText signedDigits
  by_cases hten : base = 10
  · subst hten
    have hvalue : b.toInt = m := by
      rw [Decimal.Binary.toInt, hnegative, hwhole]
      by_cases hneg : m < 0 <;> simp only [hneg, decide_true, decide_false, Bool.false_eq_true,
        if_true, if_false] <;> omega
    have hdenotes : Decimal.Denotes (ofInt m) m := ⟨b, hdecode, (b.value_eq_intCast_iff m).2 ⟨hint, hvalue⟩⟩
    have hword : Decimal.nearestWord m = m := Decimal.nearestWord_eq_self_iff.2 ⟨by omega, by omega⟩
    have hsmall : |m| < 10 ^ 21 := by
      rw [Int.abs_eq_natAbs]
      omega
    rw [beq_self_eq_true, Bool.true_or, if_pos rfl, numberText_of_integral hdenotes hsmall, hword,
      repr_eq, Decimal.digitsText, toDigits_eq]
    split
    · rw [← String.ofList_append]
    · rfl
  · have hdigits : digitsBackward base 64 m.natAbs = _ := digitsBackward_eq hlow
      (Nat.lt_of_lt_of_le (Nat.lt_trans hm (by decide)) (Nat.pow_le_pow_left hlow 64))
    have hintegral : Decimal.isIntegral (ofInt m) = true := by rwa [Decimal.isIntegral, hdecode]
    simp only [beq_eq_false_iff_ne.2 hten, hintegral, Bool.not_true, Bool.or_self, Bool.false_eq_true, if_false,
      Decimal.abs_ofInt hm, Decimal.toCount_ofNat hm, hdigits, reverse_reverse, Decimal.ofInt_lt_zero hm]
    split <;> rfl

/-- The text of a whole number in a base is read back as the number. It is an optional sign and then
digits of the base, the first of which is no zero unless it is all there is. -/
theorem radix_text_read_back {ω : Type} {m : ℤ} (hm : |m| < 2 ^ 53) {base : Nat} (hlow : 2 ≤ base)
    (hhigh : base ≤ 36) (s : Machine ω) : ∃ text digits,
      ScriptM.callNumberMethod (ofInt m) .toString [.number (ofNat base)] s = .ok (.text text) s ∧
      parseInteger text (some (ofNat base)) = ofInt m ∧
      text.toList = (if m < 0 then ['-'] else []) ++ digits.map digitChar ∧ (∀ d ∈ digits, d < base) ∧ digits ≠ [] ∧
      (digits.head? = some 0 → digits = [0]) := by
  have hlt : m.natAbs < 2 ^ 53 := by
    zify
    exact hm
  refine ⟨String.ofList (signedDigits base m), digitsOf base m.natAbs, ?_, parseInteger_signedDigits
    hlow hhigh hlt, ?_, fun d => lt_of_mem_digitsOf hlow, digitsOf_ne_nil, digitsOf_eq_zero⟩
  · rw [← baseText_ofInt hlow hlt]
    have hbase : Decimal.toCount32 (ofNat base) = base := by
      rw [Decimal.toCount32, Decimal.toCount_ofNat (by omega)]
      exact Nat.min_eq_right (Nat.le_trans hhigh (by decide))
    have hcall : ScriptM.callNumberMethod (ofInt m) .toString [.number (ofNat base)] s =
        (if Decimal.toCount32 (ofNat base) < 2 || Decimal.toCount32 (ofNat base) > 36 then ScriptM.refuse .radix
        else pure (.text (baseText (ofInt m) (Decimal.toCount32 (ofNat base)))) : ScriptM ω Value) s := rfl
    have hrange : (base < 2 || base > 36) = false := by simp; omega
    rw [hcall, hbase, hrange]
    rfl
  · rw [String.toList_ofList]
    rfl

theorem negative_number_read_back : ∃ text, (∃ m, ScriptM.callNumberMethod (ω := Unit) (ofInt (-255))
      .toString [.number (ofNat 16)] ⟨{}, 1, [], #[], ()⟩ = .ok (.text text) m) ∧
    parseInteger text (some (ofNat 16)) = ofInt (-255) := by
  have hsixteen : 2 ≤ 16 ∧ 16 ≤ 36 := by decide
  obtain ⟨text, -, htext, hread, -⟩ := radix_text_read_back (m := -255) (by decide) hsixteen.1
    hsixteen.2 (⟨{}, 1, [], #[], ()⟩ : Machine Unit)
  exact ⟨text, ⟨_, htext⟩, hread⟩

end StoryMarkup.Script
