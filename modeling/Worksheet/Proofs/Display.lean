import Worksheet.Formula.Evaluation
import Worksheet.Proofs.Decimal.Digits
import Worksheet.Proofs.Formula.Parsing

/-!
# Typing back what is displayed

The text that is shown for a number can be entered again. As an input of its own it is read as a
literal, and behind an equals sign as a formula. The two readers have different rules, since a formula
knows no numbers with a sign; but both of them know the digits with a point that are shown
(`exists_inDigits_numberText`), and both take these for the number itself (`numberText_reads_back`).

The zero with a sign is shown without it, and so is the one float that does not come back.

## Main definitions

* `withoutZeroSign` — the number that comes back

## Main results

* `readNumber?_numberText` — the text that is shown is read
* `numberText_reads_back` — as a literal and as a formula
-/

namespace Worksheet

open Binary64 (isNegative magnitudeOf ofMagnitude)

variable {x : Float} {text : List Char}

/-- The number itself, but zero in the place of the zero with a sign. -/
def withoutZeroSign (x : Float) : Float := if x = -0 then 0 else x

theorem isFinite_withoutZeroSign (h : x.isFinite = true) : (withoutZeroSign x).isFinite = true := by
  rw [withoutZeroSign]
  split
  · rfl
  · exact h

/-! ### The text -/

theorem not_lt_zero_of_magnitudeOf_eq_zero (h : x.isFinite = true) (hzero : magnitudeOf x = 0) :
    ¬x < 0 := fun hlt =>
  ((Binary64.lt_zero_iff h).mp hlt).2 hzero

theorem lt_zero_iff_isNegative (h : x.isFinite = true) (hne : magnitudeOf x ≠ 0) :
    x < 0 ↔ isNegative x = true :=
  (Binary64.lt_zero_iff h).trans (and_iff_left hne)

/-- Zero is read like every other number, but its sign is not written. -/
theorem ofMagnitude_eq_withoutZeroSign (h : x.isFinite = true) :
    ofMagnitude (decide (x < 0)) (magnitudeOf x) = withoutZeroSign x := by
  have hself := Binary64.ofMagnitude_magnitudeOf x
  by_cases hzero : magnitudeOf x = 0
  · have hwithout : withoutZeroSign x = 0 := by
      rw [hzero] at hself
      rw [withoutZeroSign, ← hself]
      cases isNegative x <;> rfl
    rw [hwithout, hzero, decide_eq_false (not_lt_zero_of_magnitudeOf_eq_zero h hzero)]
    rfl
  · have hne : x ≠ -0 := fun heq => hzero (heq ▸ rfl)
    have hsign : decide (x < 0) = isNegative x :=
      Bool.eq_iff_iff.mpr (decide_eq_true_iff.trans (lt_zero_iff_isNegative h hzero))
    rw [withoutZeroSign, if_neg hne, hsign, hself]

/-- **The text of a finite number** is a decimal written in full that is rounded to it. -/
theorem exists_toList_numberText (h : x.isFinite = true) : ∃ d : Decimal,
    d.magnitude = magnitudeOf x ∧
      (numberText x).toList = if x < 0 then '-' :: d.positional else d.positional := by
  rw [numberText, h]
  by_cases hzero : magnitudeOf x = 0
  · refine ⟨⟨0, 0⟩, hzero.symm, ?_⟩
    rw [if_pos ((Binary64.beq_zero_iff h).mpr hzero),
      if_neg (not_lt_zero_of_magnitudeOf_eq_zero h hzero)]
    rfl
  · refine ⟨_, Decimal.readsBack_shortest (Binary64.isFinite_iff.mp h), ?_⟩
    rw [if_neg (mt (Binary64.beq_zero_iff h).mp hzero)]
    exact String.toList_ofList.trans (if_congr (lt_zero_iff_isNegative h hzero).symm rfl rfl)

/-- The text has digits, possibly a point among them, and a sign if the number is less than zero. -/
theorem exists_inDigits_numberText (h : x.isFinite = true) : ∃ digits whole fraction,
    InDigits digits whole fraction ∧
      (numberText x).toList = if x < 0 then '-' :: digits else digits := by
  obtain ⟨d, -, htext⟩ := exists_toList_numberText h
  obtain ⟨whole, fraction, hin, -⟩ := d.exists_inDigits_positional
  exact ⟨d.positional, whole, fraction, hin, htext⟩

/-! ### Reading -/

/-- **The text that is shown is read** as the number. -/
theorem readNumber?_numberText (h : x.isFinite = true) :
    readNumber? (numberText x).toList = some (withoutZeroSign x) := by
  obtain ⟨d, hmagnitude, htext⟩ := exists_toList_numberText h
  have hread := d.readNumber?_positional (decide (x < 0))
  rw [if_congr decide_eq_true_iff rfl rfl, ← htext] at hread
  rw [hread, Decimal.toFloat, hmagnitude, ofMagnitude_eq_withoutZeroSign h]

/-- A text without blanks is not trimmed. -/
theorem trim_eq_self (h : ∀ c ∈ text, isBlank c = false) : trim text = text := by
  have hskip : ∀ {text : List Char}, (∀ c ∈ text, isBlank c = false) → skipBlanks text = text := by
    intro text h
    cases text with
    | nil => rfl
    | cons c rest =>
      rw [skipBlanks, List.dropWhile_cons, h c List.mem_cons_self]
      rfl
  rw [trim, hskip h, hskip fun c hc => h c (List.mem_reverse.mp hc), List.reverse_reverse]

/-- The text of a finite number has no blanks. -/
theorem isBlank_of_mem_numberText (h : x.isFinite = true) :
    ∀ c ∈ (numberText x).toList, isBlank c = false := by
  obtain ⟨digits, whole, fraction, hin, htext⟩ := exists_inDigits_numberText h
  have hdigits : ∀ c ∈ digits, isBlank c = false := hin.isNumeral.solid.2
  rw [htext]
  split
  · exact List.forall_mem_cons.mpr ⟨rfl, hdigits⟩
  · exact hdigits

theorem ofLiteral_numberText (h : x.isFinite = true) :
    Value.ofLiteral (numberText x) = .number (withoutZeroSign x) := by
  rw [Value.ofLiteral, trim_eq_self (isBlank_of_mem_numberText h), readNumber?_numberText h]
  exact if_pos (isFinite_withoutZeroSign h)

/-- A number that is not less than zero is an operand of a formula. -/
theorem parse_numberText (h : x.isFinite = true) (hsign : ¬x < 0) (grid : Grid) :
    Formula.parse grid ("=" ++ numberText x) = .ok (.number (withoutZeroSign x)) := by
  obtain ⟨digits, whole, fraction, hin, htext⟩ := exists_inDigits_numberText h
  rw [if_neg hsign] at htext
  have hread := readNumber?_numberText h
  rw [htext] at hread
  have hwritten : Written [.numeral digits] digits := by
    have hcons : Written [.numeral digits] ([] ++ digits ++ []) :=
      .cons allBlank_nil (.nil allBlank_nil)
    rwa [List.nil_append, List.append_nil] at hcons
  refine Formula.parse_eq_ok_iff.mpr ⟨digits, [.numeral digits], ?_, hwritten, ?_⟩
  · rw [String.toList_append, htext]
    rfl
  · exact Derives.of_operand (.number hin.isNumeral hread) .expression

/-! ### Both readers -/

/-- **What is displayed can be typed back.** The text of a finite number has digits and possibly a point
with more digits, after a minus sign if the number is less than zero. As a literal it is the number
again. Behind an equals sign, where no sign may stand, it is the formula that consists of the number,
in every grid and with the same value in every context. Only the zero with a sign comes back without
it. -/
theorem numberText_reads_back (h : x.isFinite = true) :
    (∃ digits whole fraction, InDigits digits whole fraction ∧
      (numberText x).toList = if x < 0 then '-' :: digits else digits) ∧
    Value.ofLiteral (numberText x) = .number (withoutZeroSign x) ∧
    (¬x < 0 →
      (∀ grid, Formula.parse grid ("=" ++ numberText x) = .ok (.number (withoutZeroSign x))) ∧
      ∀ context, (Formula.number (withoutZeroSign x)).evaluate context =
        .ok (withoutZeroSign x)) :=
  ⟨exists_inDigits_numberText h, ofLiteral_numberText h, fun hsign =>
    ⟨parse_numberText h hsign, fun _ => if_pos (isFinite_withoutZeroSign h)⟩⟩

/-- The sum of a tenth and two tenths, which is not the float nearest to three tenths, is shown with
seventeen digits, and with fewer it would not come back. -/
theorem numberText_reads_back_of_seventeen_digits :
    numberText (.ofBits 0x3FD3333333333334) = "0.30000000000000004" ∧
    Value.ofLiteral "0.30000000000000004" = .number (.ofBits 0x3FD3333333333334) ∧
    ∀ grid, Formula.parse grid "=0.30000000000000004" =
      .ok (.number (.ofBits 0x3FD3333333333334)) := by
  have hround : Decimal.roundAway 0x3FD3333333333334 (.exact 0x3FD3333333333334)
      ((Nat.toDigits 10 (Decimal.exact 0x3FD3333333333334).coefficient).length - 1) =
        ⟨30000000000000004, -17⟩ := by
    decide +kernel
  have hshortest : Decimal.shortest (magnitudeOf (.ofBits 0x3FD3333333333334)) =
      ⟨30000000000000004, -17⟩ := by
    refine (congrArg Decimal.normalize hround).trans ?_
    rw [Decimal.normalize]
    rfl
  have htext : numberText (.ofBits 0x3FD3333333333334) = "0.30000000000000004" := by
    rw [numberText, hshortest]
    decide
  have hwithout : withoutZeroSign (.ofBits 0x3FD3333333333334) = .ofBits 0x3FD3333333333334 :=
    if_neg (by decide)
  have hfinite : (Float.ofBits 0x3FD3333333333334).isFinite = true := rfl
  obtain ⟨-, hliteral, hformula⟩ := numberText_reads_back hfinite
  rw [htext, hwithout] at hliteral hformula
  exact ⟨htext, hliteral, (hformula (by decide)).1⟩

end Worksheet
