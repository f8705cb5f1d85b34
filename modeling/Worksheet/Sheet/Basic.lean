import Worksheet.Cell
import Worksheet.Graph.Basic

/-!
# Sheets

A sheet is the table of its occupied cells together with their dependency graph. A cell that nothing
was typed into, or that was cleared, is not in the table; it reads as a blank text.

## Main definitions

* `Sheet`, `Sheet.empty`;
* `Sheet.context`: the values that formulas read;
* `Sheet.valueOf`, `Sheet.displayOf`, and the other questions that can be put to a sheet.
-/

namespace Worksheet

/-- The occupied cells of a worksheet, in reading order. -/
abbrev CellTable := AddressMap Cell

/-- The values of all cells, those that are not occupied being blank. -/
def CellTable.context (cells : CellTable) : Context := fun a =>
  match cells[a]? with
  | some c => c.value
  | none => .blank

/-- A worksheet. -/
structure Sheet where
  /-- The occupied cells. -/
  cells : CellTable
  /-- Which cells read which. -/
  graph : Graph

namespace Sheet

/-- The sheet of a given size without an occupied cell. -/
def empty (grid : Grid) : Sheet := ⟨∅, .empty grid⟩

/-- The size of the sheet. -/
def grid (s : Sheet) : Grid := s.graph.grid

/-- The values that formulas read. -/
def context (s : Sheet) : Context := s.cells.context

/-! ### Questions about one cell -/

/-- What the sheet keeps of a cell, if it is occupied. -/
def cell? (s : Sheet) (a : Address) : Option Cell := s.cells[a]?

/-- What was typed into a cell, empty if it is not occupied. -/
def inputOf (s : Sheet) (a : Address) : String :=
  match s.cell? a with
  | some c => c.input
  | none => ""

/-- The formula of a cell. -/
def formulaOf (s : Sheet) (a : Address) : Option Formula :=
  (s.cell? a).bind Cell.formula

/-- The value of a cell, where a cell without visible content counts as zero. -/
def valueOf (s : Sheet) (a : Address) : Value :=
  match s.cell? a with
  | some c => if c.value.isBlank then .number 0 else c.value
  | none => .number 0

/-- The text shown for a cell. -/
def displayOf (s : Sheet) (a : Address) : String :=
  match s.cell? a with
  | some c => c.display
  | none => ""

/-- The cells that the formula of a cell reads, in the order in which it names them. -/
def dependenciesOf (s : Sheet) (a : Address) : List Address :=
  match s.cell? a with
  | some c => c.dependsOn
  | none => []

/-- The cells whose formulas read a cell, in reading order. -/
def dependentsOf (s : Sheet) (a : Address) : List Address :=
  s.graph.dependentsOf a

/-! ### Questions about the whole sheet -/

/-- The occupied cells, in reading order. -/
def occupied (s : Sheet) : List (Address × Cell) := s.cells.toList

/-- Whether no cell is occupied. -/
def isEmpty (s : Sheet) : Bool := s.cells.isEmpty

end Sheet

end Worksheet
