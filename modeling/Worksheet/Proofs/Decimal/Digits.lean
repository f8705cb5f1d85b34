import Worksheet.Proofs.Decimal.Values
import Worksheet.Proofs.Formula.Scanning

/-!
# Numbers written in full

Written in full, a decimal has digits and possibly a point with more digits behind it (`InDigits`).
Zeros are filled in up to the point on either side, and it is their number that stands for the power
of ten. So the text spells the number that the decimal stands for (`exists_inDigits_positional`).

A text of this form, with a minus sign in front or without one, is taken apart into the digits on the
two sides of the point. Hence it is read as the float that the decimal is rounded to
(`readNumber?_positional`).

## Main definitions

* `InDigits` — digits, and possibly a point and more digits

## Main results

* `exists_inDigits_positional` — decimals are written with digits and a point
* `readNumber?_positional` — what is written is read
-/

namespace Worksheet

variable {text whole fraction : List Char}

/-- The text has these digits before and behind a point. If there are none behind it, the point
itself is left out. -/
structure InDigits (text whole fraction : List Char) : Prop where
  whole_ne_nil : whole ≠ []
  whole_digits : ∀ c ∈ whole, c.isDigit = true
  fraction_digits : ∀ c ∈ fraction, c.isDigit = true
  text_eq : text = whole ∧ fraction = [] ∨ text = whole ++ '.' :: fraction ∧ fraction ≠ []

namespace InDigits

/-- Such a text is a numeral of a formula. -/
theorem isNumeral (h : InDigits text whole fraction) : IsNumeral text := by
  have hnone : ∀ {digits : List Char}, (∀ c ∈ digits, c.isDigit = true) → digits.count '.' = 0 :=
    fun hdigits => List.count_eq_zero.mpr fun hmem => absurd (hdigits _ hmem) (by decide)
  obtain ⟨c, rest, hwhole⟩ := List.exists_cons_of_ne_nil h.whole_ne_nil
  have hc : c.isDigit = true := h.whole_digits c (hwhole ▸ List.mem_cons_self)
  rcases h.text_eq with ⟨rfl, -⟩ | ⟨rfl, -⟩
  · refine ⟨⟨c, hwhole ▸ rfl, hc⟩, fun d hd => .inl (h.whole_digits d hd), ?_⟩
    rw [hnone h.whole_digits]
    exact Nat.zero_le 1
  · refine ⟨⟨c, hwhole ▸ rfl, hc⟩, fun d hd => ?_, ?_⟩
    · rcases List.mem_append.mp hd with hd | hd
      · exact .inl (h.whole_digits d hd)
      · exact (List.mem_cons.mp hd).symm.imp_left (h.fraction_digits d)
    · rw [List.count_append, List.count_cons_self, hnone h.whole_digits, hnone h.fraction_digits]

/-- With or without a sign, such a text is taken apart into its digits. -/
theorem parse? (h : InDigits text whole fraction) (negative : Bool) :
    Numeral.parse? (if negative then '-' :: text else text) =
      some ⟨negative, whole, fraction, 0⟩ := by
  have hsign : Numeral.splitSign (if negative then '-' :: text else text) = (negative, text) := by
    cases negative with
    | true => rfl
    | false => exact h.isNumeral.splitSign_eq
  exact parse?_of_parts hsign h.whole_ne_nil h.whole_digits h.fraction_digits
    (h.text_eq.imp_right And.left)

end InDigits

namespace Decimal

variable {d : Decimal} {digits : List Char} {places : Nat}

theorem isDigit_of_mem_zeros {n : Nat} : ∀ c ∈ List.replicate n '0', c.isDigit = true := by
  intro c hc
  rw [List.eq_of_mem_replicate hc]
  rfl

/-- A point is put before the last places, after zeros where digits are missing. -/
theorem exists_inDigits_insertPoint (hdigits : ∀ c ∈ digits, c.isDigit = true)
    (hplaces : 0 < places) : ∃ whole fraction,
      InDigits (insertPoint digits places) whole fraction ∧ fraction.length = places ∧
        Nat.ofDigitChars 10 (whole ++ fraction) 0 = Nat.ofDigitChars 10 digits 0 := by
  unfold insertPoint
  split
  · rename_i hlt
    have hlength : (digits.drop (digits.length - places)).length = places := by
      rw [List.length_drop]
      omega
    refine ⟨digits.take (digits.length - places), digits.drop (digits.length - places),
      ⟨?_, fun c hc => hdigits c (List.mem_of_mem_take hc),
        fun c hc => hdigits c (List.mem_of_mem_drop hc), .inr ⟨rfl, ?_⟩⟩, hlength, ?_⟩
    · rw [← List.length_pos_iff, List.length_take]
      omega
    · rw [← List.length_pos_iff, hlength]
      exact hplaces
    · rw [List.take_append_drop]
  · rename_i hge
    have hlength : (List.replicate (places - digits.length) '0' ++ digits).length = places := by
      rw [List.length_append, List.length_replicate]
      omega
    refine ⟨['0'], List.replicate (places - digits.length) '0' ++ digits,
      ⟨List.cons_ne_nil _ _, List.forall_mem_singleton.mpr rfl,
        List.forall_mem_append.mpr ⟨isDigit_of_mem_zeros, hdigits⟩, .inr ⟨rfl, ?_⟩⟩, hlength, ?_⟩
    · rw [← List.length_pos_iff, hlength]
      exact hplaces
    · rw [Nat.ofDigitChars_append, Nat.ofDigitChars_append, Nat.ofDigitChars_replicate_zero]
      rfl

/-- **A decimal is written with digits and a point**, and these spell its number. -/
theorem exists_inDigits_positional (d : Decimal) : ∃ whole fraction,
    InDigits d.positional whole fraction ∧
      ∀ negative, (Numeral.mk negative whole fraction 0).toDecimal.toRat = d.toRat := by
  have hdigits : ∀ c ∈ Nat.toDigits 10 d.coefficient, c.isDigit = true := fun c hc =>
    Nat.isDigit_of_mem_toDigits (by decide) (by decide) hc
  have hvalue : Nat.ofDigitChars 10 (Nat.toDigits 10 d.coefficient) 0 = d.coefficient :=
    Nat.ofDigitChars_toDigits (by decide) (by decide)
  unfold positional
  dsimp only
  split
  · rename_i hexponent
    obtain ⟨k, hk⟩ := Int.eq_ofNat_of_zero_le hexponent
    refine ⟨_, [], ⟨?_, List.forall_mem_append.mpr ⟨hdigits, isDigit_of_mem_zeros⟩, nofun,
      .inl ⟨rfl, rfl⟩⟩, fun negative => ?_⟩
    · exact List.append_ne_nil_of_left_ne_nil Nat.toDigits_ne_nil _
    · rw [Numeral.toDecimal, toRat, toRat, List.append_nil, Nat.ofDigitChars_append,
        Nat.ofDigitChars_replicate_zero, hvalue, hk, Int.toNat_natCast, zpow_natCast,
        List.length_nil, Int.natCast_zero, Int.sub_self, zpow_zero, mul_one, Nat.cast_mul,
        Nat.cast_pow, Nat.cast_ofNat, mul_comm]
  · rename_i hexponent
    have hplaces : 0 < (-d.exponent).toNat := by omega
    obtain ⟨whole, fraction, hin, hlength, hcoefficient⟩ :=
      exists_inDigits_insertPoint hdigits hplaces
    refine ⟨whole, fraction, hin, fun negative => ?_⟩
    have hscale : (0 : Int) - fraction.length = d.exponent := by
      rw [hlength]
      omega
    rw [Numeral.toDecimal, toRat, toRat, hcoefficient, hvalue, hscale]

/-- **What is written is read**, as the float that the decimal is rounded to. -/
theorem readNumber?_positional (d : Decimal) (negative : Bool) :
    readNumber? (if negative then '-' :: d.positional else d.positional) =
      some (d.toFloat negative) := by
  obtain ⟨whole, fraction, hin, hvalue⟩ := exists_inDigits_positional d
  rw [readNumber?, hin.parse? negative, Option.map_some, Numeral.value, toFloat, toFloat,
    magnitude_congr (hvalue negative)]

end Decimal

end Worksheet
