import Mathlib.Data.Set.Function
import Worksheet.Proofs.Numbering
import Worksheet.Proofs.Rectangles
import Worksheet.Proofs.Spelling

/-!
# One order for cells, numbers and rectangles

Cells are put in order in three ways: they are compared, they are numbered, and the cells of a
rectangle are listed. It is the same order each time (`Grid.orders_agree`), and much depends on it
without saying so. What a table holds under numbers comes out in the order in which cells are compared,
and the first fault of a rectangle is the one that comes first in that order.

A number is a product and a sum, and in a grid that is large enough these would not fit a word. They
do fit as long as the number of cells does.

## Main results

* `Grid.invOn_cellAt` — cells and numbers, back and forth
* `Grid.orders_agree` — the headline
-/

namespace Worksheet.Grid

open Address (rectangle)

variable {grid : Grid} {a : Address}

/-! ### Cells and numbers -/

/-- Reading a cell off a number undoes the numbering, and the other way round. -/
theorem invOn_cellAt (grid : Grid) : Set.InvOn grid.cellAt grid.indexOf
    {a | grid.contains a = true} {n | n < grid.cellCount} :=
  ⟨fun _ ha => cellAt_indexOf ha, fun n _ => indexOf_cellAt grid n⟩

/-- **The three orders agree.** In every grid:

* The cells are in bijection with the numbers below the number of cells, and the cell of a number is
  found by the inverse.
* One cell has a smaller number than another if it comes first when the two are compared.
* If the number of cells fits a word, then so does everything that is computed for a number.

And for every two corners, in whatever grid, the cells between them are listed, no others, each once
and in ascending order; the list is the same for just those corners that have the same two rows and
the same two columns. -/
theorem orders_agree (grid : Grid) :
    Set.BijOn grid.indexOf {a | grid.contains a = true} {n | n < grid.cellCount} ∧
    Set.InvOn grid.cellAt grid.indexOf {a | grid.contains a = true} {n | n < grid.cellCount} ∧
    (∀ a b, grid.contains a = true → grid.contains b = true →
      (grid.indexOf a < grid.indexOf b ↔ compare a b = .lt)) ∧
    (grid.cellCount < sizeBound →
      ∀ a, grid.contains a = true → grid.indexWord? a = some (grid.indexOf a)) ∧
    ∀ first last : Address,
      (∀ a, a ∈ rectangle first last ↔ Address.Encloses first last a) ∧
      (rectangle first last).Nodup ∧
      (rectangle first last).Pairwise (fun a b => compare a b = .lt) ∧
      ∀ first' last', rectangle first' last' = rectangle first last ↔
        Address.Renames first last first' last' := by
  refine ⟨?_, invOn_cellAt grid, fun a b => indexOf_lt_indexOf_iff, fun hfits a => indexWord?_eq hfits,
    fun first last => ⟨fun a => Address.mem_rectangle_iff, ?_, Address.pairwise_rectangle first last,
      fun first' last' => Address.rectangle_eq_iff⟩⟩
  · exact (invOn_cellAt grid).bijOn (fun a ha => indexOf_lt_cellCount ha) fun n hn => contains_cellAt hn
  · exact Address.nodup_of_pairwise_lt (Address.pairwise_rectangle first last)

end Worksheet.Grid
