import Worksheet.Address

/-!
# Rectangles in reading order

The cells of a rectangle come row by row, and within a row column by column. That is the order in
which addresses are compared, so a rectangle is listed in reading order like everything else
(`Address.pairwise_rectangle`).

Which two opposite corners name the rectangle, and which of the two comes first, makes no difference
to the list (`Address.Renames.rectangle_eq`). There are four ways to name one and the same rectangle,
and no others: the corners can be read off the list, as far as they matter
(`Address.rectangle_eq_iff`).

## Main definitions

* `Address.Encloses` — the cell lies between two corners
* `Address.Renames` — two corners name the rectangle that two others name

## Main results

* `Address.mem_rectangle_iff`, `Address.pairwise_rectangle` — what is listed, and in which order
* `Address.Renames.rectangle_eq` — the corners do not matter beyond the rectangle
* `Address.rectangle_eq_iff` — which corners name the same rectangle
-/

namespace Worksheet.Address

variable {first last first' last' a : Address}

/-! ### The cells and their order -/

/-- The row and the column of the cell lie between those of the corners, which may come in either
order. -/
structure Encloses (first last a : Address) : Prop where
  row : min first.row last.row ≤ a.row ∧ a.row ≤ max first.row last.row
  col : min first.col last.col ≤ a.col ∧ a.col ≤ max first.col last.col

theorem mem_rectangle_iff : a ∈ rectangle first last ↔ Encloses first last a := by
  rw [mem_rectangle, mem_span, mem_span]
  exact ⟨fun h => ⟨h.1, h.2⟩, fun h => ⟨h.row, h.col⟩⟩

theorem encloses_first (first last : Address) : Encloses first last first :=
  ⟨⟨Nat.min_le_left _ _, Nat.le_max_left _ _⟩, ⟨Nat.min_le_left _ _, Nat.le_max_left _ _⟩⟩

theorem encloses_last (first last : Address) : Encloses first last last :=
  ⟨⟨Nat.min_le_right _ _, Nat.le_max_right _ _⟩, ⟨Nat.min_le_right _ _, Nat.le_max_right _ _⟩⟩

theorem pairwise_span (i j : Nat) : (span i j).Pairwise (· < ·) :=
  List.pairwise_lt_range'

/-- **A rectangle is listed in reading order.** -/
theorem pairwise_rectangle (first last : Address) :
    (rectangle first last).Pairwise fun a b => compare a b = .lt := by
  rw [rectangle, List.pairwise_flatMap]
  constructor
  · intro row _
    rw [List.pairwise_map]
    refine (pairwise_span _ _).imp ?_
    intro col col' hcol
    exact compare_eq_lt_iff.mpr (.inr ⟨rfl, hcol⟩)
  · refine (pairwise_span _ _).imp ?_
    intro row row' hrow a ha b hb
    obtain ⟨col, -, rfl⟩ := List.mem_map.mp ha
    obtain ⟨col', -, rfl⟩ := List.mem_map.mp hb
    exact compare_eq_lt_iff.mpr (.inl hrow)

/-! ### The corners -/

/-- The second pair of corners has the two rows of the first pair and its two columns, each in either
order. -/
structure Renames (first last first' last' : Address) : Prop where
  rows : first'.row = first.row ∧ last'.row = last.row ∨ first'.row = last.row ∧ last'.row = first.row
  cols : first'.col = first.col ∧ last'.col = last.col ∨ first'.col = last.col ∧ last'.col = first.col

theorem span_eq_of_swapped {i j i' j' : Nat} (h : i' = i ∧ j' = j ∨ i' = j ∧ j' = i) :
    span i' j' = span i j := by
  rcases h with ⟨rfl, rfl⟩ | ⟨rfl, rfl⟩
  · rfl
  · exact span_comm _ _

/-- **Any two opposite corners name the rectangle.** -/
theorem Renames.rectangle_eq (h : Renames first last first' last') :
    rectangle first' last' = rectangle first last := by
  rw [rectangle, rectangle, span_eq_of_swapped h.rows, span_eq_of_swapped h.cols]

/-- Two pairs of numbers that lie between each other are the same pair, in either order. -/
theorem swapped_of_between {i j i' j' : Nat} (hi' : min i j ≤ i' ∧ i' ≤ max i j)
    (hj' : min i j ≤ j' ∧ j' ≤ max i j) (hi : min i' j' ≤ i ∧ i ≤ max i' j')
    (hj : min i' j' ≤ j ∧ j ≤ max i' j') : i' = i ∧ j' = j ∨ i' = j ∧ j' = i := by
  omega

/-- **No other corners name the rectangle.** -/
theorem rectangle_eq_iff :
    rectangle first' last' = rectangle first last ↔ Renames first last first' last' := by
  refine ⟨fun heq => ?_, Renames.rectangle_eq⟩
  have hmem : ∀ a, Encloses first' last' a ↔ Encloses first last a := fun a => by
    rw [← mem_rectangle_iff, heq, mem_rectangle_iff]
  -- either pair of corners lies in the rectangle of the other one
  have hfirst' : Encloses first last first' := (hmem first').mp (encloses_first _ _)
  have hlast' : Encloses first last last' := (hmem last').mp (encloses_last _ _)
  have hfirst : Encloses first' last' first := (hmem first).mpr (encloses_first _ _)
  have hlast : Encloses first' last' last := (hmem last).mpr (encloses_last _ _)
  exact ⟨swapped_of_between hfirst'.row hlast'.row hfirst.row hlast.row,
    swapped_of_between hfirst'.col hlast'.col hfirst.col hlast.col⟩

end Worksheet.Address
