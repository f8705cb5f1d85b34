/-!
# Binary floating-point numbers and exact fractions

A finite `Float` is a sign and a non-negative number of the form `m * 2 ^ q`. Without its sign, a float
is laid out as eleven bits of exponent above fifty-two bits of fraction. Read as one number, this
*magnitude* grows with the value.

This module goes both ways between magnitudes and exact numbers: `significandOf` reads `m` and `q` off a
magnitude, and `magnitude` rounds a fraction, where a fraction halfway between two floats goes to the
one whose `m` is even. Successive floats have successive magnitudes, across the steps in
spacing as well, which is why rounding needs no case for a significand that comes out as the next power
of two, and none for the numbers below the normal range.

## Main definitions

* `Binary64.significandOf`: the exact value of a magnitude;
* `Binary64.magnitude`: the magnitude of the float nearest to a fraction;
* `Binary64.ofMagnitude`: the float with a given sign and magnitude.
-/

namespace Worksheet.Binary64

/-! ### The parts of a float -/

/-- The weight of the sign bit, `2 ^ 63`. -/
def signWeight : Nat := 0x8000000000000000

/-- The weight of the lowest bit of the exponent, `2 ^ 52`. -/
def exponentWeight : Nat := 0x10000000000000

/-- The magnitude of the infinities, the least that is no finite number. -/
def infinityMagnitude : Nat := 2047 * exponentWeight

/-- The exponent `q` of the smallest floats. -/
def leastExponent : Int := -1074

/-- Whether the sign bit is set. -/
def isNegative (x : Float) : Bool :=
  decide (signWeight ≤ x.toBits.toNat)

/-- The bits of a float below its sign, as a number. -/
def magnitudeOf (x : Float) : Nat :=
  x.toBits.toNat % signWeight

/-- The float with this sign and this magnitude. -/
def ofMagnitude (negative : Bool) (magnitude : Nat) : Float :=
  Float.ofBits (UInt64.ofNat (if negative then signWeight + magnitude else magnitude))

/-- The numbers `m` and `q` of a magnitude: the value is `m * 2 ^ q`. -/
def significandOf (magnitude : Nat) : Nat × Int :=
  if magnitude < exponentWeight then (magnitude, leastExponent)
  else (magnitude % exponentWeight + exponentWeight,
    (magnitude / exponentWeight - 1 : Nat) + leastExponent)

/-! ### Rounding a fraction -/

/-- The whole number nearest to `num / den`; halfway between two, the even one. -/
def roundHalfEven (num den : Nat) : Nat :=
  let quotient := num / den
  match compare (2 * (num % den)) den with
  | .lt => quotient
  | .eq => quotient + quotient % 2
  | .gt => quotient + 1

/-- The largest `e` with `2 ^ e ≤ num / den`, where both are positive. -/
def floorLog2 (num den : Nat) : Int :=
  let estimate : Int := (num.log2 : Int) - den.log2
  if den <<< estimate.toNat ≤ num <<< (-estimate).toNat then estimate else estimate - 1

/-- The exponent `q` in which a positive fraction is rounded: it leaves fifty-three bits before the
point, and no less than the smallest exponent. -/
def roundingExponent (num den : Nat) : Int :=
  max leastExponent (floorLog2 num den - 52)

/-- The magnitude of the float nearest to `num / den`. Fractions beyond the largest float go to
infinity. -/
def magnitude (num den : Nat) : Nat :=
  if num = 0 then 0
  else
    let q := roundingExponent num den
    min infinityMagnitude <|
      (q - leastExponent).toNat * exponentWeight
        + roundHalfEven (num <<< (-q).toNat) (den <<< q.toNat)

end Worksheet.Binary64
