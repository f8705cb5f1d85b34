import Worksheet.Sheet.Basic
import Worksheet.Graph.Plan

/-!
# Edits

To edit a sheet is to type a text into one of its cells; the empty text clears the cell. An edit
replaces what the sheet keeps of the cell and the edges that lead to it, and then carries out the
plan for the change: cells on a circular reference are pinned, and the cells that depend on the
edited one are computed again, each after those that it reads.

An edit is refused if the cell is not in the grid, and for no other reason; the sheet is then left as it
is. A text that cannot be read as a formula, or cannot be evaluated, gives the cell a fault as its
value. The log is told of each cycle that is pinned, and would be told of an edge that is not recorded.

## Main definitions

* `EditFault`: why an edit is refused;
* `CellTable.carryOut`: the values after a plan;
* `Edited`: what comes of an edit;
* `Sheet.write`, `Sheet.writeAt`, `Sheet.clear`.
-/

namespace Worksheet

/-- Why an edit is refused. -/
inductive EditFault where
  /-- The cell is not in the grid. -/
  | outOfBounds (cell : Address) (grid : Grid)
  /-- The name stands for no cell of the grid. -/
  | invalidReference (name : String)
deriving DecidableEq, Repr

/-- The refusal in words. -/
def EditFault.message : EditFault → String
  | outOfBounds cell grid =>
    s!"Cell (col {cell.col}, row {cell.row}) is outside the {grid.columns}x{grid.rows} grid"
  | invalidReference name => "Invalid cell reference: " ++ name

namespace CellTable

/-- Changes an occupied cell. -/
def update (cells : CellTable) (f : Cell → Cell) (a : Address) : CellTable :=
  match cells[a]? with
  | some c => cells.insert a (f c)
  | none => cells

/-- Evaluates the formula of a cell again. -/
def recompute (cells : CellTable) (a : Address) : CellTable :=
  cells.update (Cell.recompute cells.context) a

/-- Carries out a plan: pins the cells that it names, and then computes cells in its order. -/
def carryOut (plan : Plan) (cells : CellTable) : CellTable :=
  plan.order.foldl recompute (plan.pinned.foldl (fun cells a => cells.update Cell.pin a) cells)

end CellTable

/-- What comes of an edit. -/
structure Edited where
  /-- The sheet afterwards. -/
  sheet : Sheet
  /-- What the log is told, in this order. -/
  warnings : List Warning
  /-- Why the edit is refused, if it is. -/
  refusal : Option EditFault

namespace Sheet

/-- Carries out a plan. The edges stay as they are. -/
def carryOut (s : Sheet) (plan : Plan) : Sheet :=
  { s with cells := s.cells.carryOut plan }

/-- Replaces what the sheet keeps of a cell, without regard to other cells. A formula is evaluated
among the values as they were. -/
def replace (s : Sheet) (a : Address) (input : String) : Sheet :=
  let unlinked := s.graph.unlink a
  if input.isEmpty then ⟨s.cells.erase a, unlinked⟩
  else
    let c := Cell.ofInput s.grid input
    ⟨s.cells.insert a (c.recompute s.context), unlinked.linkAll a c.dependsOn⟩

/-- What the log is told when a cell has been replaced: which edges into the cell were not recorded, and
which cycles are pinned. -/
def warningsFor (replaced : Sheet) (a : Address) (plan : Plan) : List Warning :=
  replaced.graph.ignoredEdges a (replaced.dependenciesOf a) ++ plan.cycles.map .circular

/-- Types a text into a cell. -/
def write (s : Sheet) (a : Address) (input : String) : Edited :=
  if s.grid.contains a then
    let replaced := s.replace a input
    let plan := replaced.graph.planFor a
    ⟨replaced.carryOut plan, replaced.warningsFor a plan, none⟩
  else ⟨s, [], some (.outOfBounds a s.grid)⟩

/-- Types a text into the cell of a name. -/
def writeAt (s : Sheet) (name : String) (input : String) : Edited :=
  match s.grid.parse? name with
  | some a => s.write a input
  | none => ⟨s, [], some (.invalidReference name)⟩

/-- Clears a cell. -/
def clear (s : Sheet) (a : Address) : Edited :=
  s.write a ""

@[simp] theorem grid_replace (s : Sheet) (a : Address) (input : String) :
    (s.replace a input).grid = s.grid := by
  simp only [replace, grid]
  split <;> simp

/-- An edit keeps the size of the sheet. -/
theorem grid_write (s : Sheet) (a : Address) (input : String) :
    (s.write a input).sheet.grid = s.grid := by
  unfold write
  split
  · exact grid_replace s a input
  · rfl

end Sheet

end Worksheet
