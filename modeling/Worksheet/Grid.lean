import Worksheet.Address

/-!
# Grids

A grid says how many columns and rows a worksheet has. Its cells are the addresses within those
bounds, and only they have a meaning in the worksheet: a name that spells an address outside the
grid is no name.

The bounds fit a 64-bit word, so every row number that is accepted does so too. More columns than
letters are possible; the cells of such columns exist but cannot be named.

A cell can also be given by one number, its position when the grid is read line by line. Nothing is
lost by that as long as the cell is in the grid. The numbers below the number of cells are those of
its cells, and each cell can be read off its number. That the number of cells fits a word is not said
by the bounds, which only speak of columns and of rows; whoever needs a place for each cell has to
check it (`Grid.cellCount?`).

## Main definitions

* `Grid`, `Grid.contains`: the bounds, and the cells within them;
* `Grid.parse?`: the cell that a name stands for;
* `Grid.cellCount`, `Grid.indexOf`, `Grid.cellAt`: the cells numbered in reading order;
* `Grid.number?`: the number of a cell of the grid;
* `Grid.cellCount?`, `Grid.indexWord?`: the same in checked 64-bit arithmetic.

## Main results

* `Grid.number?_eq_some_iff`: a number stands for one cell of the grid;
* `Grid.compare_cellAt`: numbers are in reading order.
-/

namespace Worksheet

/-- The exclusive upper bound of the numbers of columns and rows, `2 ^ 64`: they fit a 64-bit word. -/
def sizeBound : Nat := 0x10000000000000000

/-- A number, if it fits a 64-bit word. -/
def word? (n : Nat) : Option Nat :=
  if n < sizeBound then some n else none

theorem word?_eq_some_iff {n m : Nat} : word? n = some m ↔ n < sizeBound ∧ n = m := by
  simp [word?]

/-- The size of a worksheet. -/
structure Grid where
  /-- The number of columns. -/
  columns : Nat
  /-- The number of rows. -/
  rows : Nat
  columns_lt : columns < sizeBound := by decide
  rows_lt : rows < sizeBound := by decide
deriving DecidableEq, Repr

namespace Grid

/-- Ten columns `A` to `J`, and twenty rows. -/
def standard : Grid where
  columns := 10
  rows := 20

instance : Inhabited Grid := ⟨standard⟩

/-- The grid of the given size, if the size fits. -/
def ofSize? (columns rows : Nat) : Option Grid :=
  if h : columns < sizeBound ∧ rows < sizeBound then some ⟨columns, rows, h.1, h.2⟩ else none

/-! ### The cells of a grid -/

/-- Whether a cell lies within the bounds. -/
def contains (grid : Grid) (cell : Address) : Bool :=
  decide (cell.col < grid.columns ∧ cell.row < grid.rows)

theorem contains_iff {grid : Grid} {cell : Address} :
    grid.contains cell = true ↔ cell.col < grid.columns ∧ cell.row < grid.rows :=
  decide_eq_true_iff

/-- The cell that the characters of a name stand for. -/
def parseChars? (grid : Grid) (text : List Char) : Option Address :=
  (Address.ofNameChars? text).filter grid.contains

/-- The cell that a name stands for in this grid. -/
def parse? (grid : Grid) (name : String) : Option Address :=
  grid.parseChars? name.toList

/-- A name stands for a cell of the grid only. -/
theorem contains_of_parseChars? {grid : Grid} {text : List Char} {cell : Address}
    (h : grid.parseChars? text = some cell) : grid.contains cell = true :=
  (Option.filter_eq_some_iff.mp h).2

/-- A rectangle with both corners in the grid lies in the grid. -/
theorem contains_of_mem_rectangle {grid : Grid} {a b c : Address} (ha : grid.contains a = true)
    (hb : grid.contains b = true) (hc : c ∈ Address.rectangle a b) : grid.contains c = true := by
  rw [contains_iff] at *
  rw [Address.mem_rectangle, Address.mem_span, Address.mem_span] at hc
  omega

/-- The letter of the last column. A grid with no column, or with more columns than letters, gives
the nearest letter. -/
def lastColumnLetter (grid : Grid) : Char :=
  columnLetter (max 1 (min grid.columns Address.letterCount) - 1)

/-! ### Cells by number -/

/-- The number of cells. -/
def cellCount (grid : Grid) : Nat :=
  grid.columns * grid.rows

/-- The position of a cell when the grid is read line by line. -/
def indexOf (grid : Grid) (cell : Address) : Nat :=
  cell.row * grid.columns + cell.col

/-- The cell at a position of that reading. -/
def cellAt (grid : Grid) (index : Nat) : Address :=
  ⟨index / grid.columns, index % grid.columns⟩

section Numbers

variable {grid : Grid} {a : Address} {n m : Nat}

theorem indexOf_lt_cellCount (ha : grid.contains a = true) : grid.indexOf a < grid.cellCount := by
  obtain ⟨hcol, hrow⟩ := contains_iff.mp ha
  calc grid.indexOf a
      < (a.row + 1) * grid.columns := by rw [indexOf, Nat.succ_mul]; omega
    _ ≤ grid.rows * grid.columns := Nat.mul_le_mul_right _ hrow
    _ = grid.cellCount := Nat.mul_comm _ _

theorem cellAt_indexOf (ha : grid.contains a = true) : grid.cellAt (grid.indexOf a) = a := by
  obtain ⟨hcol, -⟩ := contains_iff.mp ha
  have hpos : 0 < grid.columns := by omega
  have hrow : grid.indexOf a / grid.columns = a.row := by
    rw [indexOf, Nat.mul_comm, Nat.mul_add_div hpos, Nat.div_eq_of_lt hcol, Nat.add_zero]
  have hcol : grid.indexOf a % grid.columns = a.col := by
    rw [indexOf, Nat.mul_comm, Nat.mul_add_mod, Nat.mod_eq_of_lt hcol]
  rw [cellAt, hrow, hcol]

/-- Every number below the number of cells is that of a cell of the grid. -/
theorem contains_cellAt (hn : n < grid.cellCount) : grid.contains (grid.cellAt n) = true := by
  have hpos : 0 < grid.columns := Nat.pos_of_lt_mul_right hn
  exact contains_iff.mpr ⟨Nat.mod_lt n hpos, Nat.div_lt_of_lt_mul hn⟩

theorem indexOf_cellAt (grid : Grid) (n : Nat) : grid.indexOf (grid.cellAt n) = n :=
  Nat.div_add_mod' n grid.columns

theorem cellAt_injective (h : grid.cellAt n = grid.cellAt m) : n = m := by
  rw [← indexOf_cellAt grid n, h, indexOf_cellAt]

/-- Larger numbers are those of later cells. -/
theorem compare_cellAt (grid : Grid) (h : n < m) :
    compare (grid.cellAt n) (grid.cellAt m) = .lt := by
  refine Address.compare_eq_lt_iff.mpr ?_
  rcases Nat.lt_or_eq_of_le (Nat.div_le_div_right (c := grid.columns) (Nat.le_of_lt h)) with hlt | heq
  · exact .inl hlt
  · have hn := Nat.div_add_mod' n grid.columns
    have hm := Nat.div_add_mod' m grid.columns
    rw [heq] at hn
    exact .inr ⟨heq, show n % grid.columns < m % grid.columns by omega⟩

end Numbers

/-- The number by which a cell of the grid is stored. Other cells have none. -/
def number? (grid : Grid) (a : Address) : Option (Fin grid.cellCount) :=
  if h : grid.contains a = true then some ⟨grid.indexOf a, indexOf_lt_cellCount h⟩ else none

/-- The cells of a grid are those that have a number. -/
theorem exists_cellAt_eq {grid : Grid} {a : Address} (ha : grid.contains a = true) :
    ∃ n : Fin grid.cellCount, grid.cellAt n = a :=
  ⟨⟨grid.indexOf a, indexOf_lt_cellCount ha⟩, cellAt_indexOf ha⟩

theorem number?_cellAt {grid : Grid} (n : Fin grid.cellCount) :
    grid.number? (grid.cellAt n) = some n := by
  have hnumber : grid.indexOf (grid.cellAt n) = n := indexOf_cellAt grid n
  rw [number?, dif_pos (contains_cellAt n.isLt)]
  exact congrArg some (Fin.ext hnumber)

theorem number?_eq_none {grid : Grid} {a : Address} (ha : ¬ grid.contains a = true) :
    grid.number? a = none :=
  dif_neg ha

/-- A number stands for one cell, and that cell is in the grid. -/
theorem number?_eq_some_iff {grid : Grid} {a : Address} {n : Fin grid.cellCount} :
    grid.number? a = some n ↔ grid.cellAt n = a := by
  constructor
  · intro h
    by_cases ha : grid.contains a = true
    · obtain ⟨m, rfl⟩ := exists_cellAt_eq ha
      rw [number?_cellAt] at h
      rw [Option.some.inj h]
    · rw [number?_eq_none ha] at h
      cases h
  · rintro rfl
    exact number?_cellAt n

/-! ### Numbers in 64-bit words -/

/-- The number of cells, if it fits a word. -/
def cellCount? (grid : Grid) : Option Nat :=
  word? (grid.columns * grid.rows)

/-- The number of a cell, where the product and the sum each have to fit a word. -/
def indexWord? (grid : Grid) (a : Address) : Option Nat :=
  (word? (a.row * grid.columns)).bind fun start => word? (start + a.col)

end Grid

end Worksheet
