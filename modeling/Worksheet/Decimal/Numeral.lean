import Worksheet.Decimal.Basic

/-!
# Numerals

A numeral is a number as it may be written: an optional sign, digits with an optional point among
them, and an optional exponent after an `e` of either case. There has to be a digit before or after
the point, and one in the exponent if there is an exponent. Nothing else may stand in the text, no
blank either.

The value of a numeral is the float nearest to the number that it spells, whatever the number of its
digits. A numeral may spell a number beyond the largest float; its value is then infinite.

## Main definitions

* `Numeral`, `Numeral.parse?`: the parts of a written number;
* `Numeral.value`: the nearest float;
* `readNumber?`: both steps in one.
-/

namespace Worksheet

/-- A written number, taken apart. -/
structure Numeral where
  /-- Whether a minus sign stands in front. -/
  negative : Bool
  /-- The digits before the point. -/
  whole : List Char
  /-- The digits after the point. -/
  fraction : List Char
  /-- The number after the exponent mark, zero if there is none. -/
  exponent : Int
deriving DecidableEq, Repr

namespace Numeral

/-! ### Reading -/

/-- Splits off a sign. A plus sign says nothing. -/
def splitSign : List Char → Bool × List Char
  | '-' :: rest => (true, rest)
  | '+' :: rest => (false, rest)
  | text => (false, text)

/-- Splits off the digits at the start. -/
def splitDigits (text : List Char) : List Char × List Char :=
  (text.takeWhile Char.isDigit, text.dropWhile Char.isDigit)

/-- Splits off a point and the digits after it. Without a point there are none. -/
def splitFraction : List Char → List Char × List Char
  | '.' :: rest => splitDigits rest
  | text => ([], text)

/-- The size of an exponent is read digit by digit while it is below this bound. Digits after that
are checked but not counted; an exponent of this size is out of every float's range already. -/
def exponentBound : Nat := 65536

/-- The size of a written exponent. -/
def exponentSize (digits : List Char) : Nat :=
  digits.foldl (fun size c => if size < exponentBound then 10 * size + (c.toNat - '0'.toNat) else size) 0

/-- Reads what stands after the digits: nothing, or an exponent. -/
def parseExponent? : List Char → Option Int
  | [] => some 0
  | mark :: rest =>
    let (negative, digits) := splitSign rest
    if (mark = 'e' ∨ mark = 'E') ∧ digits ≠ [] ∧ digits.all Char.isDigit then
      some (if negative then -(exponentSize digits : Int) else exponentSize digits)
    else none

/-- Takes a written number apart. -/
def parse? (text : List Char) : Option Numeral :=
  let (negative, unsigned) := splitSign text
  let (whole, afterWhole) := splitDigits unsigned
  let (fraction, afterFraction) := splitFraction afterWhole
  if whole = [] ∧ fraction = [] then none
  else (parseExponent? afterFraction).map fun exponent => ⟨negative, whole, fraction, exponent⟩

/-! ### Value -/

/-- The number that the numeral spells, without its sign. -/
def toDecimal (n : Numeral) : Decimal where
  coefficient := Nat.ofDigitChars 10 (n.whole ++ n.fraction) 0
  exponent := n.exponent - n.fraction.length

/-- The float nearest to the number that the numeral spells. A minus sign before zero is kept. -/
def value (n : Numeral) : Float :=
  n.toDecimal.toFloat n.negative

end Numeral

/-- The float that a text spells, if it is a numeral. It may be infinite. -/
def readNumber? (text : List Char) : Option Float :=
  (Numeral.parse? text).map Numeral.value

end Worksheet
