import Worksheet.Decimal.Shortest
import Worksheet.Proofs.Binary64.Rounding

/-!
# The numbers that decimals stand for

A decimal is a coefficient and a power of ten, and stands for a rational number. Which float it is
rounded to depends on this number alone (`magnitude_congr`). So zeros at the end of the coefficient do
not matter, and the decimal that spells a finite float in full is rounded to that float
(`magnitude_exact`).

The search for a shorter decimal starts from there. It takes nothing that it has not tried, so that
the decimal it ends with is rounded to the float as well (`readsBack_shortest`).

## Main definitions

* `Decimal.toRat` — the number that a decimal stands for

## Main results

* `magnitude_congr` — decimals of one number are rounded alike
* `readsBack_shortest` — the shortest decimal of a finite float is rounded to that float
-/

namespace Worksheet.Decimal

open Binary64 (significandOf infinityMagnitude)

variable {d d' : Decimal} {n : Nat}

/-! ### Values -/

/-- The number that a decimal stands for. -/
def toRat (d : Decimal) : ℚ := d.coefficient * 10 ^ d.exponent

/-- The fraction that is rounded is the number. -/
theorem numerator_div_denominator (d : Decimal) : (d.numerator : ℚ) / d.denominator = d.toRat := by
  rw [numerator, denominator, toRat, Nat.pow_eq, Nat.pow_eq, Nat.cast_mul, Nat.cast_pow,
    Nat.cast_pow, Nat.cast_ofNat]
  rcases Int.eq_nat_or_neg d.exponent with ⟨k, h | h⟩
  · rw [h, Int.toNat_natCast, Int.toNat_neg_natCast, pow_zero, div_one, zpow_natCast]
  · rw [h, neg_neg, Int.toNat_natCast, Int.toNat_neg_natCast, pow_zero, mul_one, zpow_neg,
      zpow_natCast, div_eq_mul_inv]

/-- The case of a zero coefficient is not a special one. -/
theorem magnitude_eq_magnitude (d : Decimal) :
    d.magnitude = Binary64.magnitude d.numerator d.denominator := by
  rw [magnitude]
  split
  · rename_i hzero
    rw [numerator, hzero, Nat.zero_mul, Binary64.magnitude, if_pos rfl]
  · rfl

/-- **Decimals of one number are rounded alike.** -/
theorem magnitude_congr (h : d.toRat = d'.toRat) : d.magnitude = d'.magnitude := by
  rw [magnitude_eq_magnitude, magnitude_eq_magnitude]
  refine Binary64.magnitude_congr d.denominator_pos d'.denominator_pos ?_
  rw [numerator_div_denominator, numerator_div_denominator, h]

/-- Zeros at the end of the coefficient do not matter. -/
theorem toRat_normalize (d : Decimal) : d.normalize.toRat = d.toRat := by
  induction d using normalize.induct with
  | case1 d h ih =>
    have hcoefficient : (d.coefficient : ℚ) = (d.coefficient / 10 : Nat) * 10 := by
      exact_mod_cast (Nat.div_mul_cancel (Nat.dvd_of_mod_eq_zero h.2)).symm
    rw [normalize, if_pos h, ih, toRat, toRat, hcoefficient, zpow_add_one₀ (by norm_num)]
    ring
  | case2 d h =>
    rw [normalize, if_neg h]

/-! ### The exact value -/

theorem toRat_exact (n : Nat) :
    (exact n).toRat = (significandOf n).1 * 2 ^ (significandOf n).2 := by
  simp only [exact]
  split
  · rename_i hq
    obtain ⟨k, hk⟩ := Int.eq_ofNat_of_zero_le hq
    rw [toRat, hk, Int.toNat_natCast, Nat.shiftLeft_eq, zpow_zero, mul_one, zpow_natCast]
    push_cast
    rfl
  · rename_i hq
    obtain ⟨k, hk⟩ := Int.eq_ofNat_of_zero_le (Int.neg_nonneg.mpr (Int.not_le.mp hq).le)
    have hten : (10 : ℚ) ^ k = 5 ^ k * 2 ^ k := by
      rw [← mul_pow]
      norm_num
    rw [toRat, ← neg_neg (significandOf n).2, hk, neg_neg, Int.toNat_natCast, Nat.pow_eq, zpow_neg,
      zpow_neg, zpow_natCast, zpow_natCast, hten]
    push_cast
    field_simp

/-- **A finite float, spelled in full, is rounded to itself.** -/
theorem magnitude_exact (h : n < infinityMagnitude) : (exact n).magnitude = n := by
  rw [magnitude_eq_magnitude]
  refine Binary64.magnitude_eq_of_value (denominator_pos _) h ?_
  rw [numerator_div_denominator, toRat_exact]

/-! ### The search -/

theorem readsBack_of_rounded? {dropped : Nat} (h : rounded? n d dropped = some d') :
    ReadsBack n d' := by
  unfold rounded? at h
  extract_lets nearer farther at h
  split at h
  · rename_i hnearer
    rwa [← Option.some.inj h]
  · split at h
    · rename_i hfarther
      rwa [← Option.some.inj h]
    · cases h

/-- Rounding away digits keeps what is read back. -/
theorem readsBack_roundAway (h : ReadsBack n d) (dropped : Nat) :
    ReadsBack n (roundAway n d dropped) := by
  induction dropped with
  | zero => exact h
  | succ dropped ih =>
    rw [roundAway]
    split
    · rename_i hrounded
      exact readsBack_of_rounded? hrounded
    · exact ih

/-- **The shortest decimal of a finite float is rounded to that float.** -/
theorem readsBack_shortest (h : n < infinityMagnitude) : ReadsBack n (shortest n) :=
  (magnitude_congr (toRat_normalize _)).trans (readsBack_roundAway (magnitude_exact h) _)

end Worksheet.Decimal
