import Worksheet.Formula.Dependencies
import Worksheet.Formula.Evaluation
import Worksheet.Formula.Parser

/-!
# Cells

A cell keeps what was typed into it and the value that it shows. If the input is marked as a formula
and can be read, the cell keeps the formula too, and its value is the result of the last
evaluation. If it cannot be read, the value says why. Any other input is its own value.

## Main definitions

* `Cell`, `Cell.ofInput`: what becomes of an input;
* `Cell.recompute`, `Cell.pin`: new values for a cell with a formula;
* `Cell.display`: the text shown.
-/

namespace Worksheet

/-- What a worksheet keeps of a cell. -/
structure Cell where
  /-- What was typed in. -/
  input : String
  /-- The formula, if the input is one. -/
  formula : Option Formula
  /-- The value that was computed last. -/
  value : Value

namespace Cell

/-- Whether the input is meant as a formula, which need not mean that it can be read as one. -/
def isMarked (c : Cell) : Bool :=
  Formula.isMarked c.input

/-- The cells that the formula reads. Without a formula there are none. -/
def dependsOn (c : Cell) : List Address :=
  match c.formula with
  | some formula => formula.dependencies
  | none => []

/-- The cell for an input. The value of a formula stays blank until it is evaluated. -/
def ofInput (grid : Grid) (input : String) : Cell :=
  if Formula.isMarked input then
    match Formula.parse grid input with
    | .ok formula => ⟨input, some formula, .blank⟩
    | .error e => ⟨input, none, .fault (.invalid e.fault.message)⟩
  else ⟨input, none, .ofLiteral input⟩

/-- Evaluates the formula again. A cell without one keeps its value. -/
def recompute (context : Context) (c : Cell) : Cell :=
  match c.formula with
  | some formula => { c with value := .ofResult (formula.evaluate context) }
  | none => c

/-- The fault of the cells on a circular reference. -/
def circularReference : Fault :=
  .circular "Circular reference detected"

/-- Shows that the cell is on a circular reference. -/
def pin (c : Cell) : Cell :=
  { c with value := .fault circularReference }

/-- The text shown for the cell: for a formula its value, and otherwise the input. -/
def display (c : Cell) : String :=
  if c.isMarked then c.value.display else c.input

@[simp] theorem input_recompute (context : Context) (c : Cell) :
    (c.recompute context).input = c.input := by
  unfold recompute
  split <;> rfl

@[simp] theorem formula_recompute (context : Context) (c : Cell) :
    (c.recompute context).formula = c.formula := by
  unfold recompute
  split <;> rfl

@[simp] theorem input_pin (c : Cell) : c.pin.input = c.input := rfl

@[simp] theorem formula_pin (c : Cell) : c.pin.formula = c.formula := rfl

end Cell

end Worksheet
