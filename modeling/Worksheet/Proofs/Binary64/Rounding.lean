import Worksheet.Proofs.Binary64.Bits

/-!
# Rounding fractions

Rounding takes a fraction as two naturals. It finds the power of two below their quotient by comparing
their lengths in binary, and then divides. Neither step depends on more than the quotient: the power
found is the largest one that does not exceed it (`floorLog2_eq_log`), and a common factor cancels in
the division (`roundHalfEven_congr`). So a number has one nearest float, however it is written as a
fraction (`magnitude_congr`).

A number that is the value of a finite float is rounded to that float (`magnitude_eq_of_value`). The
exponent it is rounded in is then its own, so that the division leaves no remainder.

## Main results

* `floorLog2_eq_log` — the exponent is the logarithm of the quotient
* `magnitude_congr` — equal fractions are rounded alike
* `magnitude_eq_of_value` — floats are rounded to themselves
-/

namespace Worksheet.Binary64

variable {num den num' den' m n : Nat} {e q : Int}

/-! ### The exponent -/

/-- Powers of two are compared with a fraction by shifting its two sides. -/
theorem zpow_le_div_iff (hden : 0 < den) :
    (2 : ℚ) ^ e ≤ num / den ↔ den <<< e.toNat ≤ num <<< (-e).toNat := by
  have hden' : (0 : ℚ) < den := Nat.cast_pos.mpr hden
  rw [le_div_iff₀ hden', Nat.shiftLeft_eq, Nat.shiftLeft_eq]
  rcases Int.eq_nat_or_neg e with ⟨k, rfl | rfl⟩
  · rw [Int.toNat_natCast, Int.toNat_neg_natCast, pow_zero, mul_one, zpow_natCast, mul_comm]
    exact_mod_cast Iff.rfl
  · rw [neg_neg, Int.toNat_natCast, Int.toNat_neg_natCast, pow_zero, mul_one, zpow_neg,
      zpow_natCast, inv_mul_le_iff₀ (by positivity), mul_comm]
    exact_mod_cast Iff.rfl

/-- The length of a number in binary, as a bound by powers of two. -/
theorem zpow_log2_le (hn : 0 < n) :
    (2 : ℚ) ^ (n.log2 : Int) ≤ n ∧ (n : ℚ) < 2 ^ (n.log2 + 1 : Int) := by
  have hlow : 2 ^ n.log2 ≤ n := Nat.log2_self_le (Nat.ne_of_gt hn)
  have hhigh : n < 2 ^ (n.log2 + 1) := Nat.lt_log2_self
  constructor
  · rw [zpow_natCast]
    exact_mod_cast hlow
  · exact_mod_cast hhigh

/-- **The exponent that is found** is that of the largest power of two below the fraction. -/
theorem floorLog2_eq_log (hnum : 0 < num) (hden : 0 < den) :
    floorLog2 num den = Int.log 2 ((num : ℚ) / den) := by
  have htwo : (2 : ℚ) ≠ 0 := two_ne_zero
  have hden' : (0 : ℚ) < den := Nat.cast_pos.mpr hden
  have hpos : (0 : ℚ) < num / den := div_pos (Nat.cast_pos.mpr hnum) hden'
  obtain ⟨hnumLow, hnumHigh⟩ := zpow_log2_le hnum
  obtain ⟨hdenLow, hdenHigh⟩ := zpow_log2_le hden
  have hlow : (num.log2 : Int) - den.log2 - 1 ≤ Int.log 2 ((num : ℚ) / den) := by
    refine (Int.zpow_le_iff_le_log one_lt_two hpos).mp ((le_div_iff₀ hden').mpr ?_)
    calc (2 : ℚ) ^ ((num.log2 : Int) - den.log2 - 1) * den
        ≤ 2 ^ ((num.log2 : Int) - den.log2 - 1) * 2 ^ (den.log2 + 1 : Int) :=
          mul_le_mul_of_nonneg_left hdenHigh.le (zpow_nonneg zero_le_two _)
      _ = 2 ^ (num.log2 : Int) := by rw [← zpow_add₀ htwo]; congr 1; omega
      _ ≤ num := hnumLow
  have hhigh : Int.log 2 ((num : ℚ) / den) < (num.log2 : Int) - den.log2 + 1 := by
    refine (Int.lt_zpow_iff_log_lt one_lt_two hpos).mp ((div_lt_iff₀ hden').mpr ?_)
    calc (num : ℚ)
        < 2 ^ (num.log2 + 1 : Int) := hnumHigh
      _ = 2 ^ ((num.log2 : Int) - den.log2 + 1) * 2 ^ (den.log2 : Int) := by
          rw [← zpow_add₀ htwo]; congr 1; omega
      _ ≤ 2 ^ ((num.log2 : Int) - den.log2 + 1) * den :=
          mul_le_mul_of_nonneg_left hdenLow (zpow_nonneg zero_le_two _)
  have htest : (num.log2 : Int) - den.log2 ≤ Int.log 2 ((num : ℚ) / den) ↔
      den <<< ((num.log2 : Int) - den.log2).toNat ≤
        num <<< (-((num.log2 : Int) - den.log2)).toNat :=
    (Int.zpow_le_iff_le_log one_lt_two hpos).symm.trans (zpow_le_div_iff hden)
  simp only [floorLog2, ← htest]
  split <;> omega

/-! ### The division -/

theorem compare_mul_left (hm : 0 < m) (i j : Nat) : compare (m * i) (m * j) = compare i j := by
  rcases Nat.lt_trichotomy i j with hlt | rfl | hgt
  · rw [Nat.compare_eq_lt.mpr hlt, Nat.compare_eq_lt]
    exact Nat.mul_lt_mul_of_pos_left hlt hm
  · exact (Nat.compare_eq_eq.mpr rfl).trans (Nat.compare_eq_eq.mpr rfl).symm
  · rw [Nat.compare_eq_gt.mpr hgt, Nat.compare_eq_gt]
    exact Nat.mul_lt_mul_of_pos_left hgt hm

theorem roundHalfEven_mul_left (hm : 0 < m) (num den : Nat) :
    roundHalfEven (m * num) (m * den) = roundHalfEven num den := by
  rw [roundHalfEven, roundHalfEven, Nat.mul_div_mul_left _ _ hm, Nat.mul_mod_mul_left,
    Nat.mul_left_comm, compare_mul_left hm]

/-- **A common factor cancels**, so that equal fractions give the same whole number. -/
theorem roundHalfEven_congr (hden : 0 < den) (hden' : 0 < den') (h : num * den' = num' * den) :
    roundHalfEven num den = roundHalfEven num' den' := by
  rw [← roundHalfEven_mul_left hden' num den, ← roundHalfEven_mul_left hden num' den',
    Nat.mul_comm den' num, h, Nat.mul_comm num' den, Nat.mul_comm den' den]

/-- A fraction that is a whole number is not changed. -/
theorem roundHalfEven_mul_self (hden : 0 < den) (m : Nat) : roundHalfEven (m * den) den = m := by
  have hcompare : compare (2 * 0) den = .lt := Nat.compare_eq_lt.mpr hden
  rw [roundHalfEven, Nat.mul_div_cancel _ hden, Nat.mul_mod_left, hcompare]

/-! ### Magnitudes -/

theorem roundingExponent_eq (hnum : 0 < num) (hden : 0 < den) : roundingExponent num den =
    max leastExponent (Int.log 2 ((num : ℚ) / den) - 52) := by
  rw [roundingExponent, floorLog2_eq_log hnum hden]

/-- **Equal fractions are rounded alike.** -/
theorem magnitude_congr (hden : 0 < den) (hden' : 0 < den') (h : (num : ℚ) / den = num' / den') :
    magnitude num den = magnitude num' den' := by
  have hdenNe : (den : ℚ) ≠ 0 := Nat.cast_ne_zero.mpr (Nat.ne_of_gt hden)
  have hdenNe' : (den' : ℚ) ≠ 0 := Nat.cast_ne_zero.mpr (Nat.ne_of_gt hden')
  have hcross : num * den' = num' * den := by
    have hrat := (div_eq_div_iff hdenNe hdenNe').mp h
    exact_mod_cast hrat
  rcases Nat.eq_zero_or_pos num with hzero | hnum
  · have hzero' : num' = 0 := by
      rw [hzero, Nat.zero_mul] at hcross
      exact (Nat.mul_eq_zero.mp hcross.symm).resolve_right (Nat.ne_of_gt hden)
    rw [magnitude, magnitude, if_pos hzero, if_pos hzero']
  · have hnum' : 0 < num' := by
      refine Nat.pos_of_ne_zero ?_
      rintro rfl
      rw [Nat.zero_mul] at hcross
      exact absurd hcross (Nat.mul_ne_zero (Nat.ne_of_gt hnum) (Nat.ne_of_gt hden'))
    have hexponent : roundingExponent num den = roundingExponent num' den' := by
      rw [roundingExponent_eq hnum hden, roundingExponent_eq hnum' hden', h]
    have hround : ∀ s t : Nat, roundHalfEven (num <<< s) (den <<< t) =
        roundHalfEven (num' <<< s) (den' <<< t) := by
      intro s t
      simp only [Nat.shiftLeft_eq]
      refine roundHalfEven_congr (by positivity) (by positivity) ?_
      rw [Nat.mul_mul_mul_comm, hcross, Nat.mul_mul_mul_comm]
    rw [magnitude, magnitude, if_neg (Nat.ne_of_gt hnum), if_neg (Nat.ne_of_gt hnum')]
    simp only [hexponent, hround]

/-- The exponent that the value of a float is rounded in is its own. -/
theorem roundingExponent_of_value (hn : 0 < n) (hnum : 0 < num) (hden : 0 < den)
    (h : (num : ℚ) / den = (significandOf n).1 * 2 ^ (significandOf n).2) :
    roundingExponent num den = (significandOf n).2 := by
  have htwo : (2 : ℚ) ≠ 0 := two_ne_zero
  have hpos : (0 : ℚ) < num / den := div_pos (Nat.cast_pos.mpr hnum) (Nat.cast_pos.mpr hden)
  have hm := significandOf_pos hn
  obtain ⟨hlow, hhigh⟩ := zpow_log2_le hm
  have hlog : Int.log 2 ((num : ℚ) / den) =
      ((significandOf n).1.log2 : Int) + (significandOf n).2 := by
    refine le_antisymm (Int.lt_add_one_iff.mp ?_) ?_
    · refine (Int.lt_zpow_iff_log_lt one_lt_two hpos).mp ?_
      rw [h, Nat.cast_ofNat, add_right_comm, zpow_add₀ htwo]
      exact mul_lt_mul_of_pos_right hhigh (zpow_pos two_pos _)
    · refine (Int.zpow_le_iff_le_log one_lt_two hpos).mp ?_
      rw [h, Nat.cast_ofNat, zpow_add₀ htwo]
      exact mul_le_mul_of_nonneg_right hlow (zpow_nonneg zero_le_two _)
  rw [roundingExponent_eq hnum hden, hlog]
  rcases Nat.lt_or_ge n exponentWeight with hlt | hge
  · have hbits : n.log2 < 52 := (Nat.log2_lt (Nat.ne_of_gt hn)).mpr hlt
    rw [significandOf_of_lt hlt]
    refine max_eq_left ?_
    change (n.log2 : Int) + leastExponent - 52 ≤ leastExponent
    omega
  · rw [significandOf_of_le hge, log2_add_exponentWeight (Nat.mod_lt _ (by decide))]
    exact (max_eq_right (by omega)).trans (by omega)

/-- A magnitude is its exponent, counted from the least, above its significand. -/
theorem exponent_add_significand (n : Nat) :
    ((significandOf n).2 - leastExponent).toNat * exponentWeight + (significandOf n).1 = n := by
  rcases Nat.lt_or_ge n exponentWeight with hlt | hge
  · rw [significandOf_of_lt hlt, Int.sub_self, Int.toNat_zero, Nat.zero_mul, Nat.zero_add]
  · have hdiv : 1 ≤ n / exponentWeight := (Nat.one_le_div_iff (by decide)).mpr hge
    rw [significandOf_of_le hge, Int.add_sub_cancel, Int.toNat_natCast, Nat.add_comm (n % _),
      ← Nat.add_assoc, ← Nat.succ_mul, Nat.succ_eq_add_one, Nat.sub_add_cancel hdiv,
      Nat.div_add_mod']

/-- A fraction with the value `m * 2 ^ q` is a whole number in the exponent `q`. -/
theorem shiftLeft_eq_of_value (hden : 0 < den) (h : (num : ℚ) / den = m * 2 ^ q) :
    num <<< (-q).toNat = m * den <<< q.toNat := by
  have hdenNe : (den : ℚ) ≠ 0 := Nat.cast_ne_zero.mpr (Nat.ne_of_gt hden)
  rw [div_eq_iff hdenNe] at h
  rw [Nat.shiftLeft_eq, Nat.shiftLeft_eq]
  rcases Int.eq_nat_or_neg q with ⟨k, rfl | rfl⟩
  · rw [zpow_natCast] at h
    rw [Int.toNat_natCast, Int.toNat_neg_natCast, pow_zero, mul_one]
    exact_mod_cast h.trans (by ring : (m : ℚ) * 2 ^ k * den = m * (den * 2 ^ k))
  · rw [zpow_neg, zpow_natCast] at h
    rw [neg_neg, Int.toNat_natCast, Int.toNat_neg_natCast, pow_zero, mul_one]
    have hshift : (num : ℚ) * 2 ^ k = m * den := by
      rw [h]
      field_simp
    exact_mod_cast hshift

/-- **The value of a finite float is rounded to that float.** -/
theorem magnitude_eq_of_value (hden : 0 < den) (hlt : n < infinityMagnitude)
    (h : (num : ℚ) / den = (significandOf n).1 * 2 ^ (significandOf n).2) :
    magnitude num den = n := by
  have hdenNe : (den : ℚ) ≠ 0 := Nat.cast_ne_zero.mpr (Nat.ne_of_gt hden)
  rcases Nat.eq_zero_or_pos n with rfl | hn
  · have hzero : num = 0 := by
      rw [significandOf_of_lt (by decide), Nat.cast_zero, zero_mul, div_eq_zero_iff] at h
      exact_mod_cast h.resolve_right hdenNe
    rw [magnitude, if_pos hzero]
  · have hm := significandOf_pos hn
    have hnum : 0 < num := by
      refine Nat.pos_of_ne_zero ?_
      rintro rfl
      rw [Nat.cast_zero, zero_div] at h
      exact absurd h.symm (mul_pos (Nat.cast_pos.mpr hm) (zpow_pos two_pos _)).ne'
    have hround : roundHalfEven (num <<< (-(significandOf n).2).toNat)
        (den <<< (significandOf n).2.toNat) = (significandOf n).1 := by
      have hshifted : 0 < den <<< (significandOf n).2.toNat := by
        rw [Nat.shiftLeft_eq]
        positivity
      rw [shiftLeft_eq_of_value hden h, roundHalfEven_mul_self hshifted]
    rw [magnitude, if_neg (Nat.ne_of_gt hnum)]
    simp only [roundingExponent_of_value hn hnum hden h, hround, exponent_add_significand]
    exact Nat.min_eq_right hlt.le

end Worksheet.Binary64
