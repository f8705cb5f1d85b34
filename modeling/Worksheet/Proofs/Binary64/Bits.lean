import Mathlib
import Worksheet.Binary64

/-!
# The bits of a float

A float is given by its bits, so it is its sign and its magnitude (`ofMagnitude_magnitudeOf`).

Lean defines every operation on floats by taking the bits apart into a sign, a significand and an
exponent. Taken apart, a finite float has the significand and the exponent that are read off its
magnitude (`exists_unpack_eq_finite`). Whether it is finite, whether it is zero and whether it is less
than zero can therefore be told from its sign and its magnitude.

## Main definitions

* `bitsMagnitude`, `bitsSign` — the two parts of a bit pattern

## Main results

* `exists_unpack_eq_finite` — the parts of a finite float
* `ofMagnitude_magnitudeOf` — a float is its sign and its magnitude
* `isFinite_iff`, `beq_zero_iff`, `lt_zero_iff` — what sign and magnitude tell
-/

namespace Worksheet.Binary64

open Float.Model Float.Model.UnpackedFloat

variable {b : BitVec 64} {m n : Nat} {x : Float}

/-! ### Significands -/

theorem significandOf_of_lt (h : n < exponentWeight) : significandOf n = (n, leastExponent) :=
  if_pos h

theorem significandOf_of_le (h : exponentWeight ≤ n) : significandOf n =
    (n % exponentWeight + exponentWeight, (n / exponentWeight - 1 : Nat) + leastExponent) :=
  if_neg (Nat.not_lt.mpr h)

theorem significandOf_pos (h : 0 < n) : 0 < (significandOf n).1 := by
  rcases Nat.lt_or_ge n exponentWeight with hlt | hge
  · rwa [significandOf_of_lt hlt]
  · rw [significandOf_of_le hge]
    exact Nat.add_pos_right _ (by decide)

/-- A significand above the fraction has fifty-three bits. -/
theorem log2_add_exponentWeight (h : m < exponentWeight) : (m + exponentWeight).log2 = 52 := by
  have hne : m + exponentWeight ≠ 0 := Nat.ne_of_gt (Nat.add_pos_right _ (by decide))
  have hweight : exponentWeight = 2 ^ 52 := rfl
  rw [Nat.log2_eq_iff hne]
  omega

/-! ### Taking bits apart -/

/-- The bits below the sign, as a number. -/
def bitsMagnitude (b : BitVec 64) : Nat := b.toNat % signWeight

/-- The sign of a bit pattern. -/
def bitsSign (b : BitVec 64) : Sign := .ofBitVec (@unpackSign .binary64 b)

theorem unpackExponent_toNat (b : BitVec 64) :
    (@unpackExponent .binary64 b).toNat = bitsMagnitude b / exponentWeight := by
  simp [unpackExponent, bitsMagnitude, signWeight, exponentWeight]
  omega

theorem unpackMantissa_toNat (b : BitVec 64) :
    (@unpackMantissa .binary64 b).toNat = bitsMagnitude b % exponentWeight := by
  simp [unpackMantissa, bitsMagnitude, signWeight, exponentWeight]

/-- The exponents of the infinities and the NaNs. -/
theorem unpackExponent_eq_iff :
    @unpackExponent .binary64 b = -1#11 ↔ infinityMagnitude ≤ bitsMagnitude b := by
  have hall : (-1#11).toNat = 2047 := rfl
  rw [← BitVec.toNat_inj, unpackExponent_toNat, hall]
  simp only [bitsMagnitude, signWeight, exponentWeight, infinityMagnitude]
  omega

theorem toNat_append_one (f : BitVec 52) : (1#1 ++ f).toNat = f.toNat + exponentWeight := by
  rw [BitVec.toNat_append, ← Nat.shiftLeft_add_eq_or_of_lt f.isLt, Nat.add_comm]
  rfl

theorem unpack_of_magnitude_eq_zero (h : bitsMagnitude b = 0) :
    UnpackedFloat.unpack .binary64 b = .zero (bitsSign b) := by
  have hexponent : @unpackExponent .binary64 b = 0#11 := by
    rw [← BitVec.toNat_inj, unpackExponent_toNat, h]
    rfl
  have hfraction : @unpackMantissa .binary64 b = 0#52 := by
    rw [← BitVec.toNat_inj, unpackMantissa_toNat, h]
    rfl
  unfold UnpackedFloat.unpack
  rw [hexponent]
  simp only [hfraction]
  rfl

/-- **Taken apart, a finite float has the significand and the exponent of its magnitude.** -/
theorem exists_unpack_eq_finite (hpos : 0 < bitsMagnitude b)
    (h : bitsMagnitude b < infinityMagnitude) : ∃ hm, UnpackedFloat.unpack .binary64 b =
      .finite (bitsSign b) (significandOf (bitsMagnitude b)).1
        (significandOf (bitsMagnitude b)).2 hm := by
  have hall : @unpackExponent .binary64 b ≠ -1#11 := fun heq =>
    absurd (unpackExponent_eq_iff.mp heq) (Nat.not_le.mpr h)
  have hexponent := unpackExponent_toNat b
  have hfraction := unpackMantissa_toNat b
  have hbias : Format.binary64.exponentBias = 1023 := rfl
  refine ⟨significandOf_pos hpos, ?_⟩
  unfold UnpackedFloat.unpack
  simp only [if_neg hall]
  rcases Nat.lt_or_ge (bitsMagnitude b) exponentWeight with hlt | hge
  · have hzero : @unpackExponent .binary64 b = 0#11 := by
      rw [← BitVec.toNat_inj, hexponent, Nat.div_eq_of_lt hlt]
      rfl
    have hne : @unpackMantissa .binary64 b ≠ 0#52 := by
      rw [Ne, ← BitVec.toNat_inj, hfraction, Nat.mod_eq_of_lt hlt]
      exact Nat.ne_of_gt hpos
    rw [if_pos hzero, dif_neg hne]
    simp only [significandOf_of_lt hlt, finite.injEq]
    refine ⟨rfl, hfraction.trans (Nat.mod_eq_of_lt hlt), ?_⟩
    rw [hzero, hbias]
    rfl
  · have hdiv : 1 ≤ bitsMagnitude b / exponentWeight :=
      (Nat.one_le_div_iff (by decide)).mpr hge
    have hne : @unpackExponent .binary64 b ≠ 0#11 := by
      rw [Ne, ← BitVec.toNat_inj, hexponent]
      exact Nat.ne_of_gt hdiv
    rw [if_neg hne]
    simp only [significandOf_of_le hge, finite.injEq, hexponent, hbias, leastExponent]
    refine ⟨rfl, (toNat_append_one _).trans ?_, ?_⟩
    · rw [hfraction]
    · omega

/-! ### Floats -/

theorem magnitudeOf_eq (x : Float) : magnitudeOf x = bitsMagnitude x.toBits.toBitVec := rfl

theorem bitsSign_eq (x : Float) :
    bitsSign x.toBits.toBitVec = if isNegative x = true then .negative else .positive := by
  have hbit : @unpackSign .binary64 x.toBits.toBitVec = 0#1 ↔ ¬isNegative x = true := by
    have hlt := x.toBits.toNat_lt
    rw [isNegative, decide_eq_true_iff, ← BitVec.toNat_inj]
    simp [unpackSign, signWeight]
    omega
  rw [bitsSign, Sign.ofBitVec]
  split
  · rename_i hzero
    exact (if_neg (hbit.mp hzero)).symm
  · rename_i hone
    exact (if_pos (not_not.mp (mt hbit.mpr hone))).symm

/-- **Whether a float is finite** can be told from its magnitude. -/
theorem isFinite_iff : x.isFinite = true ↔ magnitudeOf x < infinityMagnitude := by
  have hunpack : x.isFinite = (UnpackedFloat.unpack .binary64 x.toBits.toBitVec).isFinite := rfl
  rw [hunpack, magnitudeOf_eq]
  constructor
  · intro hfinite
    by_contra hge
    have hall := unpackExponent_eq_iff.mpr (Nat.not_lt.mp hge)
    unfold UnpackedFloat.unpack at hfinite
    simp only [if_pos hall] at hfinite
    split at hfinite <;> cases hfinite
  · intro hlt
    rcases Nat.eq_zero_or_pos (bitsMagnitude x.toBits.toBitVec) with hzero | hpos
    · rw [unpack_of_magnitude_eq_zero hzero]
      rfl
    · obtain ⟨_, heq⟩ := exists_unpack_eq_finite hpos hlt
      rw [heq]
      rfl

/-- The comparison of a finite float with zero. -/
theorem compare_zero (h : x.isFinite = true) : x.toModel.unpack.compare (0 : Float).toModel.unpack =
    if magnitudeOf x = 0 then some .eq else if isNegative x = true then some .lt else some .gt := by
  have hunpack : x.toModel.unpack = UnpackedFloat.unpack .binary64 x.toBits.toBitVec := rfl
  have hzero : (0 : Float).toModel.unpack = .zero .positive := rfl
  have hlt := isFinite_iff.mp h
  rw [hunpack, hzero]
  split
  · rename_i hx
    rw [unpack_of_magnitude_eq_zero hx]
    rfl
  · rename_i hx
    obtain ⟨_, heq⟩ := exists_unpack_eq_finite (Nat.pos_of_ne_zero hx) hlt
    rw [heq, bitsSign_eq]
    split <;> rfl

theorem beq_zero_iff (h : x.isFinite = true) : (x == 0) = true ↔ magnitudeOf x = 0 := by
  have hbeq : (x == 0) = (x.toModel.unpack.compare (0 : Float).toModel.unpack == some .eq) := rfl
  rw [hbeq, compare_zero h]
  split
  · rename_i hx
    exact iff_of_true rfl hx
  · rename_i hx
    split <;> exact iff_of_false (by decide) hx

theorem lt_zero_iff (h : x.isFinite = true) :
    x < 0 ↔ isNegative x = true ∧ magnitudeOf x ≠ 0 := by
  have hlt : x < 0 ↔ (x.toModel.unpack.compare (0 : Float).toModel.unpack == some .lt) = true :=
    decide_eq_true_iff
  rw [hlt, compare_zero h]
  split
  · rename_i hx
    exact iff_of_false (by decide) fun hand => hand.2 hx
  · rename_i hx
    split
    · rename_i hneg
      exact iff_of_true rfl ⟨hneg, hx⟩
    · rename_i hneg
      exact iff_of_false (by decide) fun hand => hneg hand.1

theorem isNegative_iff : isNegative x = true ↔ signWeight ≤ x.toBits.toNat :=
  decide_eq_true_iff

theorem toNat_toBits (x : Float) :
    x.toBits.toNat = if isNegative x = true then signWeight + magnitudeOf x else magnitudeOf x := by
  have hlt : x.toBits.toNat < signWeight + signWeight := x.toBits.toNat_lt
  rw [if_congr isNegative_iff rfl rfl, magnitudeOf]
  split
  · rename_i hle
    rw [Nat.mod_eq_sub_mod hle, Nat.mod_eq_of_lt (by omega), Nat.add_sub_cancel' hle]
  · rename_i hlt
    exact (Nat.mod_eq_of_lt (Nat.not_le.mp hlt)).symm

/-- **A float is its sign and its magnitude.** -/
theorem ofMagnitude_magnitudeOf (x : Float) : ofMagnitude (isNegative x) (magnitudeOf x) = x := by
  rw [ofMagnitude, ← toNat_toBits, UInt64.ofNat_toNat, Float.ofBits_toBits]

end Worksheet.Binary64
