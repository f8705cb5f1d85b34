import Worksheet.Grid

/-!
# Numbers in the order of cells

Cells of a grid are stored by number, and nothing is lost by that (`Grid.cellAt_indexOf`). Numbers are
also in the order of the cells (`Grid.indexOf_lt_indexOf`), which rests on the column being less than
the number of columns: that is what makes it a remainder.

A number is computed by a product and a sum. Both fit a 64-bit word as long as the number of cells does
(`Grid.indexWord?_eq`), since neither of them is larger than the number itself, which is smaller than
the number of cells.

## Main results

* `Grid.indexOf_lt_indexOf`, `Grid.indexOf_lt_indexOf_iff` — numbers are in reading order
* `Grid.indexWord?_eq` — checked and unbounded numbering agree as far as words go
-/

namespace Worksheet.Grid

variable {grid : Grid} {a b : Address}

/-- Cells that come earlier have smaller numbers. -/
theorem indexOf_lt_indexOf (ha : grid.contains a = true) (hab : compare a b = .lt) :
    grid.indexOf a < grid.indexOf b := by
  obtain ⟨hcol, -⟩ := contains_iff.mp ha
  rcases Address.compare_eq_lt_iff.mp hab with hrow | ⟨hrow, hcols⟩
  · calc grid.indexOf a
        < (a.row + 1) * grid.columns := by rw [indexOf, Nat.succ_mul]; omega
      _ ≤ b.row * grid.columns := Nat.mul_le_mul_right _ hrow
      _ ≤ grid.indexOf b := Nat.le_add_right _ _
  · rw [indexOf, indexOf, hrow]
    omega

/-- **Numbers are in the order of the cells.** -/
theorem indexOf_lt_indexOf_iff (ha : grid.contains a = true) (hb : grid.contains b = true) :
    grid.indexOf a < grid.indexOf b ↔ compare a b = .lt := by
  refine ⟨fun hlt => ?_, indexOf_lt_indexOf ha⟩
  cases hab : compare a b with
  | lt => rfl
  | eq =>
    rw [Std.LawfulEqOrd.eq_of_compare hab] at hlt
    exact absurd hlt (Nat.lt_irrefl _)
  | gt =>
    have hba : compare b a = .lt := Std.OrientedCmp.lt_of_gt hab
    exact absurd hlt (Nat.lt_asymm (indexOf_lt_indexOf hb hba))

/-- **Checked numbering is numbering**, in a grid whose number of cells fits a word. -/
theorem indexWord?_eq (hfits : grid.cellCount < sizeBound) (ha : grid.contains a = true) :
    grid.indexWord? a = some (grid.indexOf a) := by
  have hindex : grid.indexOf a < sizeBound := Nat.lt_trans (indexOf_lt_cellCount ha) hfits
  have hstart : a.row * grid.columns < sizeBound :=
    Nat.lt_of_le_of_lt (Nat.le_add_right _ _) hindex
  rw [indexWord?, word?_eq_some_iff.mpr ⟨hstart, rfl⟩, Option.bind_some]
  exact word?_eq_some_iff.mpr ⟨hindex, rfl⟩

end Worksheet.Grid
