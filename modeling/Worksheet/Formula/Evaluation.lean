import Worksheet.Formula.Basic
import Worksheet.Value

/-!
# Evaluation

A formula is evaluated among the values of all cells, its *context*. The result is a finite number
or a fault; the first fault that is met, from left to right, ends the evaluation.

A text counts as zero in arithmetic, and so does a cell that holds nothing. The functions skip
texts instead. Results that are no finite number are a fault, and so is a quotient by zero.

## Main definitions

* `EvaluationFault`: what evaluation itself can run into;
* `Operator.apply`, `Aggregate.apply`: the operations and the functions;
* `Formula.evaluate`.
-/

namespace Worksheet

/-- The values of all cells. A context is not asked for the values of a rectangle; they are assumed to be
those of its cells in reading order, as they are by default. -/
abbrev Context := Address → Value

/-! ### Faults of evaluation -/

/-- What evaluation can run into, apart from the faults of the cells it reads. -/
inductive EvaluationFault where
  /-- A result is no finite number. -/
  | overflow
  /-- A divisor is zero. -/
  | divisionByZero
  /-- A rectangle stands where a number is needed. -/
  | bareRange
  /-- A function is not applied to exactly one rectangle. -/
  | rangeRequired
deriving DecidableEq, Repr

namespace EvaluationFault

/-- The fault in words. -/
def message : EvaluationFault → String
  | overflow => "Numeric overflow"
  | divisionByZero => "Division by zero"
  | bareRange => "Range cannot be evaluated directly"
  | rangeRequired => "Function requires a range argument"

/-- The fault that a cell shows for it. -/
def toFault (f : EvaluationFault) : Fault :=
  .invalid f.message

end EvaluationFault

/-- A number that has to be finite. -/
def finite (x : Float) : Except Fault Float :=
  if x.isFinite then .ok x else .error EvaluationFault.overflow.toFault

/-! ### Operations -/

/-- The number that a value counts as in arithmetic. -/
def Value.toNumber : Value → Except Fault Float
  | number x => .ok x
  | text _ => .ok 0
  | fault f => .error f

/-- The operation on two numbers. -/
def Operator.apply (op : Operator) (x y : Float) : Except Fault Float :=
  match op with
  | add => finite (x + y)
  | subtract => finite (x - y)
  | multiply => finite (x * y)
  | divide => if y == 0 then .error EvaluationFault.divisionByZero.toFault else finite (x / y)

/-! ### Functions -/

/-- The sum and the number of the numbers met so far. -/
structure Tally where
  /-- The sum, added up from zero in the order of the numbers. -/
  total : Float
  /-- How many numbers there were. -/
  count : Nat

namespace Tally

/-- No number has been met. -/
def empty : Tally := ⟨0, 0⟩

/-- One more value is met: numbers count, texts do not, and a fault ends the matter. -/
def add (t : Tally) : Value → Except Fault Tally
  | .number x => .ok ⟨t.total + x, t.count + 1⟩
  | .text _ => .ok t
  | .fault f => .error f

/-- The tally of a list of values, in its order. -/
def ofValues (values : List Value) : Except Fault Tally :=
  values.foldlM add empty

end Tally

/-- What the function makes of a tally. The mean of no numbers is zero. -/
def Aggregate.ofTally (f : Aggregate) (t : Tally) : Float :=
  match f with
  | sum => t.total
  | average => if t.count = 0 then 0 else t.total / Float.ofNat t.count

/-- The function of the values of a rectangle, met row by row. -/
def Aggregate.apply (f : Aggregate) (context : Context) (first last : Address) :
    Except Fault Float := do
  let tally ← Tally.ofValues ((Address.rectangle first last).map context)
  finite (f.ofTally tally)

/-! ### Formulas -/

namespace Formula

/-- The number that a formula stands for among the values of the context. -/
def evaluate (context : Context) : Formula → Except Fault Float
  | number x => finite x
  | cell a => (context a).toNumber
  | range _ _ => .error EvaluationFault.bareRange.toFault
  | binary op left right => do
    let x ← left.evaluate context
    let y ← right.evaluate context
    op.apply x y
  | call f [range first last] => f.apply context first last
  | call _ _ => .error EvaluationFault.rangeRequired.toFault

end Formula

end Worksheet
