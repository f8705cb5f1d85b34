import Worksheet.Binary64

/-!
# Decimal numbers

A decimal number is a coefficient scaled by a power of ten. It has an exact value, kept here as a
fraction of two naturals, and a float nearest to that value.

`Decimal.positional` writes a decimal number out in full, without an exponent: it fills with zeros
up to the point on the one side, and from the point on the other.

## Main definitions

* `Decimal`, its `numerator` and `denominator`;
* `Decimal.magnitude`, `Decimal.toFloat`: the nearest float;
* `Decimal.normalize`: the same number with no zero at the end of its coefficient;
* `Decimal.positional`: the digits written out.
-/

namespace Worksheet

/-- The non-negative number `coefficient * 10 ^ exponent`. -/
structure Decimal where
  /-- The digits, read as one whole number. -/
  coefficient : Nat
  /-- The power of ten that the coefficient is scaled by. -/
  exponent : Int
deriving DecidableEq, Repr

namespace Decimal

/-! ### Value -/

/-- The numerator of the value as a fraction. -/
def numerator (d : Decimal) : Nat :=
  d.coefficient * Nat.pow 10 d.exponent.toNat

/-- The denominator of the value as a fraction. -/
def denominator (d : Decimal) : Nat :=
  Nat.pow 10 (-d.exponent).toNat

theorem denominator_pos (d : Decimal) : 0 < d.denominator :=
  Nat.pow_pos (by decide)

/-- The magnitude of the nearest float. -/
def magnitude (d : Decimal) : Nat :=
  if d.coefficient = 0 then 0 else Binary64.magnitude d.numerator d.denominator

/-- The nearest float, with the given sign. -/
def toFloat (negative : Bool) (d : Decimal) : Float :=
  Binary64.ofMagnitude negative d.magnitude

/-! ### Writing in full -/

/-- The same number, with the zeros at the end of the coefficient moved into the exponent. Zero
stays as it is. -/
def normalize (d : Decimal) : Decimal :=
  if d.coefficient ≠ 0 ∧ d.coefficient % 10 = 0 then
    normalize ⟨d.coefficient / 10, d.exponent + 1⟩
  else d
termination_by d.coefficient
decreasing_by omega

/-- The digits with a point before the last `places` of them, and a zero before the point where no
digit stands there. -/
def insertPoint (digits : List Char) (places : Nat) : List Char :=
  if places < digits.length then
    digits.take (digits.length - places) ++ '.' :: digits.drop (digits.length - places)
  else
    '0' :: '.' :: (List.replicate (places - digits.length) '0' ++ digits)

/-- The number in digits, without an exponent. -/
def positional (d : Decimal) : List Char :=
  let digits := Nat.toDigits 10 d.coefficient
  if 0 ≤ d.exponent then digits ++ List.replicate d.exponent.toNat '0'
  else insertPoint digits (-d.exponent).toNat

end Decimal

end Worksheet
