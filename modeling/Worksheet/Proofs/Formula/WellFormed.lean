import Worksheet.Proofs.Formula.Parsing
import Worksheet.Proofs.Formula.Reads
import Worksheet.Proofs.Graph.Edges

/-!
# Formulas that keep to the grid

The type of formulas has room for more than can be written: cells and rectangles beyond the grid, and
calls with any number of arguments of any kind. What is accepted as a formula has none of these
(`Formula.WellFormed`), wherever in it one may look. That is plain from the grammar, in which cells
are named in one place only and calls are made of what is named there.

It matters for the edges of the graph. The graph has no edges beyond the grid, and would pass over
such an edge without notice, so that a cell would not be computed again when it should be. But a
rectangle with both of its corners in the grid lies in the grid, whichever opposite corners they are.
So all that an accepted formula reads is in the grid, and no edge into its cell is passed over
(`Formula.parse_keeps_to_grid`).

## Main definitions

* `Formula.NamesCells` — a cell, or a rectangle, of the grid
* `Formula.WellFormed` — nothing in the formula is beyond the grid, and calls are as they should be
* `Graph.Gains` — a graph with an edge into one cell from each of some others

## Main results

* `Derives.wellFormed` — what the grammar derives is well-formed
* `Formula.WellFormed.contains_of_reads` — what a well-formed formula reads lies in the grid
* `Formula.parse_keeps_to_grid` — the headline: accepted formulas, and their edges
-/

namespace Worksheet

variable {grid : Grid} {a b : Address} {ts : List Token} {e : Formula} {place : Phrase}

/-! ### Well-formed formulas -/

namespace Formula

/-- The formula is a cell of the grid, or a rectangle with both corners in the grid. -/
inductive NamesCells (grid : Grid) : Formula → Prop
  | cell {a : Address} (ha : grid.contains a = true) : NamesCells grid (.cell a)
  | range {first last : Address} (hfirst : grid.contains first = true)
      (hlast : grid.contains last = true) : NamesCells grid (.range first last)

/-- Every cell and every corner of a rectangle in the formula is in the grid, and every call has one
argument, which is a cell or a rectangle. -/
inductive WellFormed (grid : Grid) : Formula → Prop
  | number (x : Float) : WellFormed grid (.number x)
  | reference {e : Formula} (h : NamesCells grid e) : WellFormed grid e
  | binary {op : Operator} {left right : Formula} (hleft : WellFormed grid left)
      (hright : WellFormed grid right) : WellFormed grid (.binary op left right)
  | call {f : Aggregate} {argument : Formula} (h : NamesCells grid argument) :
      WellFormed grid (.call f [argument])

theorem NamesCells.contains_of_reads (h : e.NamesCells grid) (ha : e.Reads a) :
    grid.contains a = true := by
  cases h with
  | cell hb =>
    rw [reads_cell_iff.mp ha]
    exact hb
  | range hfirst hlast => exact Grid.contains_of_mem_rectangle hfirst hlast (reads_range_iff.mp ha)

/-- **What a well-formed formula reads lies in the grid.** -/
theorem WellFormed.contains_of_reads (h : e.WellFormed grid) (ha : e.Reads a) :
    grid.contains a = true := by
  induction h with
  | number x => exact absurd ha not_reads_number
  | reference h => exact h.contains_of_reads ha
  | binary _ _ ihLeft ihRight => exact (reads_binary_iff.mp ha).elim ihLeft ihRight
  | call h =>
    obtain ⟨argument, hmem, ha⟩ := reads_call_iff.mp ha
    rw [List.mem_singleton.mp hmem] at ha
    exact h.contains_of_reads ha

end Formula

/-! ### What the grammar derives -/

theorem Argument.namesCells (h : Argument grid ts e) : e.NamesCells grid := by
  cases h with
  | cell ha => exact .cell (Grid.contains_of_parseChars? ha)
  | range ha hb => exact .range (Grid.contains_of_parseChars? ha) (Grid.contains_of_parseChars? hb)

/-- **What the grammar derives is well-formed**, one rule after the other. -/
theorem Derives.wellFormed (h : Derives grid place ts e) : e.WellFormed grid := by
  induction h with
  | term _ ih => exact ih
  | sum _ _ _ ihLeft ihRight => exact .binary ihLeft ihRight
  | operand _ ih => exact ih
  | product _ _ _ ihLeft ihRight => exact .binary ihLeft ihRight
  | number _ _ => exact .number _
  | call _ h => exact .call h.namesCells
  | argument h => exact .reference h.namesCells
  | parentheses _ ih => exact ih

theorem Formula.wellFormed_of_parse {text : String} (h : parse grid text = .ok e) :
    e.WellFormed grid := by
  obtain ⟨_, _, -, -, hderives⟩ := parse_eq_ok_iff.mp h
  exact hderives.wellFormed

/-! ### Edges of a well-formed formula -/

/-- The second graph has an edge into the cell from each of the given cells, and otherwise the edges
of the first one. -/
structure Graph.Gains (g h : Graph) (b : Address) (cells : List Address) : Prop where
  feeds_iff : ∀ x y, h.Feeds x y ↔ g.Feeds x y ∨ y = b ∧ x ∈ cells
  mem_precedentsOf_iff : ∀ x y, x ∈ h.precedentsOf y ↔ x ∈ g.precedentsOf y ∨ y = b ∧ x ∈ cells

/-- Between cells of the grid, no edge is passed over. -/
theorem Graph.gains_linkAll {g : Graph} {cells : List Address} (hb : g.grid.contains b = true)
    (hcells : ∀ a ∈ cells, g.grid.contains a = true) : g.Gains (g.linkAll b cells) b cells := by
  have hguard : ∀ x y, (y = b ∧ x ∈ cells ∧ g.grid.contains b = true ∧ g.grid.contains x = true) ↔
      y = b ∧ x ∈ cells := by
    intro x y
    exact and_congr_right' ⟨fun h => h.1, fun hx => ⟨hx, hb, hcells x hx⟩⟩
  constructor
  · intro x y
    rw [feeds_linkAll, hguard]
  · intro x y
    rw [mem_precedentsOf_linkAll, hguard]

/-- **Accepted formulas keep to the grid.** If a text is accepted as a formula, then every cell and
every corner of a rectangle in it is in the grid, and every call has one argument, a cell or a
rectangle. All cells that it reads are in the grid, those inside of rectangles too. So when a cell of
the grid is linked to them, in whatever graph, each of the edges is added. -/
theorem Formula.parse_keeps_to_grid {text : String} (h : parse grid text = .ok e) :
    e.WellFormed grid ∧ (∀ a ∈ e.dependencies, grid.contains a = true) ∧
    ∀ (g : Graph) (b : Address), g.grid = grid → grid.contains b = true →
      g.Gains (g.linkAll b e.dependencies) b e.dependencies := by
  have hwellFormed : e.WellFormed grid := wellFormed_of_parse h
  have hcells : ∀ a ∈ e.dependencies, grid.contains a = true := fun a ha =>
    hwellFormed.contains_of_reads (mem_dependencies.mp ha)
  refine ⟨hwellFormed, hcells, ?_⟩
  rintro g b rfl hb
  exact Graph.gains_linkAll hb hcells

theorem Formula.parse_keeps_to_grid_of_reversed_corners :
    let e : Formula := .binary .add (.call .sum [.range ⟨1, 1⟩ ⟨0, 0⟩]) (.cell ⟨0, 2⟩)
    parse .standard "= Sum( B2 : A1 ) + C1 " = .ok e ∧ e.WellFormed .standard ∧
      (∀ a ∈ e.dependencies, Grid.standard.contains a = true) ∧
      ∀ (g : Graph) (b : Address), g.grid = .standard → Grid.standard.contains b = true →
        g.Gains (g.linkAll b e.dependencies) b e.dependencies := by
  intro e
  have hparse : parse .standard "= Sum( B2 : A1 ) + C1 " = .ok e := by
    with_unfolding_all rfl
  exact ⟨hparse, parse_keeps_to_grid hparse⟩

end Worksheet
