import Worksheet.Decimal.Basic

/-!
# The shortest decimal that reads back

Many decimal numbers round to one and the same float. Of these, `shortest` picks one with as few
digits as possible, and of those with equally few the one nearest to the float; where two are
equally near, the larger.

The float has an exact decimal value, with up to several hundred digits (`exact`). Keeping only the
first digits of it leaves two numbers to try, one on either side of the exact value: the kept digits
as they are, and one more in the last place. No other number with so few digits lies as near, so
if neither reads back, none does. The search starts with one digit and adds one at a time; it ends
with the exact value at the latest, which reads back.

## Main definitions

* `Decimal.exact`: the value of a finite float in full;
* `Decimal.shortest`: the number to print;
* `Decimal.ReadsBack`: what the search tests.
-/

namespace Worksheet.Decimal

/-- The exact decimal value of a float of this magnitude. A negative power of two is a power of five
over a power of ten. -/
def exact (magnitude : Nat) : Decimal :=
  let (m, q) := Binary64.significandOf magnitude
  if 0 ≤ q then ⟨m <<< q.toNat, 0⟩ else ⟨m * Nat.pow 5 (-q).toNat, q⟩

/-- The decimal rounds to the float of this magnitude. -/
def ReadsBack (magnitude : Nat) (d : Decimal) : Prop :=
  d.magnitude = magnitude

instance (magnitude : Nat) (d : Decimal) : Decidable (ReadsBack magnitude d) :=
  inferInstanceAs (Decidable (_ = _))

/-- The decimal without its last `dropped` digits. -/
def below (d : Decimal) (dropped : Nat) : Decimal :=
  ⟨d.coefficient / Nat.pow 10 dropped, d.exponent + dropped⟩

/-- The decimal without its last `dropped` digits, and one more in the last place that is left. -/
def above (d : Decimal) (dropped : Nat) : Decimal :=
  ⟨d.coefficient / Nat.pow 10 dropped + 1, d.exponent + dropped⟩

/-- Whether dropping the last `dropped` digits changes the decimal by less than half a unit of the
last place that is left. -/
def isNearerBelow (d : Decimal) (dropped : Nat) : Bool :=
  decide (2 * (d.coefficient % Nat.pow 10 dropped) < Nat.pow 10 dropped)

/-- The decimal with its last `dropped` digits rounded away that reads back, if there is one. -/
def rounded? (magnitude : Nat) (d : Decimal) (dropped : Nat) : Option Decimal :=
  let nearer := if d.isNearerBelow dropped then d.below dropped else d.above dropped
  let farther := if d.isNearerBelow dropped then d.above dropped else d.below dropped
  if ReadsBack magnitude nearer then some nearer
  else if ReadsBack magnitude farther then some farther
  else none

/-- Rounds away as many digits as possible, but at most `dropped`. -/
def roundAway (magnitude : Nat) (d : Decimal) : Nat → Decimal
  | 0 => d
  | dropped + 1 =>
    match rounded? magnitude d (dropped + 1) with
    | some shorter => shorter
    | none => roundAway magnitude d dropped

/-- The shortest decimal that reads back as the float of this magnitude. -/
def shortest (magnitude : Nat) : Decimal :=
  let d := exact magnitude
  (roundAway magnitude d ((Nat.toDigits 10 d.coefficient).length - 1)).normalize

end Worksheet.Decimal
