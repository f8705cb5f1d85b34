import Worksheet.Grid
import Worksheet.Log

/-!
# The dependency graph

The graph holds which cells read which: an edge leads from a cell to each cell whose formula reads
it, its *dependents*. The other way round, the cells that a formula reads are the *precedents* of its
cell. Both directions are stored, so that either question is a look-up, and so that all edges into
one cell can be removed without a search.

Cells are stored by number. A table of neighbours has one place for each cell of the grid, and in the
place of a cell are the numbers of its neighbours. Numbers are in the order of the cells, so what is
stored in ascending order is read off in reading order.

Cells outside the grid have no number, and no edges. An edge with an end outside is not added.

## Main definitions

* `Graph`, and `Graph.new?` to make one, if there can be a place for each cell;
* `Graph.link`, `Graph.unlink`: changes, and `Graph.ignoredEdges` for the log;
* `Graph.dependentsOf`, `Graph.precedentsOf`: the neighbours of a cell, in reading order;
* `Graph.sources`, `Graph.targets`: the cells that have an edge, as bounds for searches.
-/

namespace Worksheet

/-- Numbers of cells, held in ascending order. -/
abbrev NumberSet := Std.TreeSet Nat

/-- A place for each cell of a grid, by its number. -/
abbrev NeighbourTable (grid : Grid) := Vector NumberSet grid.cellCount

/-- Which cells read which. -/
structure Graph where
  /-- The grid that the cells belong to. -/
  grid : Grid
  /-- The numbers of the cells that read a cell, in the place of the cell that is read. -/
  dependents : NeighbourTable grid
  /-- The numbers of the cells that a cell reads, in the place of the cell that reads. -/
  precedents : NeighbourTable grid

namespace Graph

/-! ### Tables of neighbours -/

section Tables

variable {grid : Grid}

/-- The cells with these numbers, in reading order. -/
def cellsOf (grid : Grid) (numbers : NumberSet) : List Address :=
  numbers.toList.map grid.cellAt

/-- What a table holds for a cell. -/
def neighbours (table : NeighbourTable grid) (a : Address) : NumberSet :=
  match grid.number? a with
  | some n => table[n]
  | none => ∅

/-- The table without neighbours. -/
def noNeighbours (grid : Grid) : NeighbourTable grid := .replicate grid.cellCount ∅

/-- Puts a number in the place of a cell. -/
def addNeighbour (table : NeighbourTable grid) (n m : Fin grid.cellCount) : NeighbourTable grid :=
  table.set n (table[n].insert m)

/-- Takes a number from the place of a cell, if there is such a place. For a number that is stored there
always is. -/
def removeNeighbour (table : NeighbourTable grid) (n m : Nat) : NeighbourTable grid :=
  table.setIfInBounds n ((table[n]?.getD ∅).erase m)

end Tables

/-! ### Questions -/

/-- The cells that read a cell, in reading order. -/
def dependentsOf (g : Graph) (a : Address) : List Address :=
  cellsOf g.grid (neighbours g.dependents a)

/-- The cells that a cell reads, in reading order. -/
def precedentsOf (g : Graph) (a : Address) : List Address :=
  cellsOf g.grid (neighbours g.precedents a)

/-- The number of edges. -/
def edgeCount (g : Graph) : Nat :=
  g.dependents.foldl (fun count set => count + set.size) 0

/-! ### Changes -/

/-- The graph without edges. -/
def empty (grid : Grid) : Graph := ⟨grid, noNeighbours grid, noNeighbours grid⟩

/-- A graph without edges, if the number of its places fits a word. -/
def new? (grid : Grid) : Option Graph := grid.cellCount?.map fun _ => empty grid

/-- Records that the formula of `dependent` reads `precedent`. Nothing is recorded of cells outside
the grid. -/
def link (g : Graph) (dependent precedent : Address) : Graph :=
  match g.grid.number? dependent, g.grid.number? precedent with
  | some d, some p =>
    { g with
      dependents := addNeighbour g.dependents p d
      precedents := addNeighbour g.precedents d p }
  | _, _ => g

/-- Records that the formula of `dependent` reads each of these cells. -/
def linkAll (g : Graph) (dependent : Address) (precedents : List Address) : Graph :=
  precedents.foldl (fun g precedent => g.link dependent precedent) g

/-- What the log is told when these cells are linked: one warning for each edge that is not recorded. -/
def ignoredEdges (g : Graph) (dependent : Address) (precedents : List Address) : List Warning :=
  (precedents.filter fun precedent => !(g.grid.contains dependent && g.grid.contains precedent)).map
    (Warning.ignoredEdge dependent)

/-- Forgets everything that the formula of `dependent` reads. -/
def unlink (g : Graph) (dependent : Address) : Graph :=
  match g.grid.number? dependent with
  | some d =>
    { g with
      dependents := g.precedents[d].toList.foldl (fun table p => removeNeighbour table p d)
        g.dependents
      precedents := g.precedents.set d ∅ }
  | none => g

/-- Edges between cells of the grid are all recorded. -/
theorem ignoredEdges_eq_nil {g : Graph} {dependent : Address} {precedents : List Address}
    (hdependent : g.grid.contains dependent = true)
    (hprecedents : ∀ p ∈ precedents, g.grid.contains p = true) :
    g.ignoredEdges dependent precedents = [] := by
  rw [ignoredEdges, List.map_eq_nil_iff, List.filter_eq_nil_iff]
  intro p hp
  simp [hdependent, hprecedents p hp]

theorem link_cellAt (g : Graph) (d p : Fin g.grid.cellCount) :
    g.link (g.grid.cellAt d) (g.grid.cellAt p) =
      { g with
        dependents := addNeighbour g.dependents p d
        precedents := addNeighbour g.precedents d p } := by
  simp only [link, Grid.number?_cellAt]

theorem link_of_not_contains {g : Graph} {dependent precedent : Address}
    (h : ¬ (g.grid.contains dependent = true ∧ g.grid.contains precedent = true)) :
    g.link dependent precedent = g := by
  unfold link
  split
  · rename_i d p hd hp
    rw [← Grid.number?_eq_some_iff.mp hd, ← Grid.number?_eq_some_iff.mp hp] at h
    exact absurd ⟨Grid.contains_cellAt d.isLt, Grid.contains_cellAt p.isLt⟩ h
  · rfl

theorem unlink_cellAt (g : Graph) (d : Fin g.grid.cellCount) :
    g.unlink (g.grid.cellAt d) =
      { g with
        dependents := g.precedents[d].toList.foldl (fun table p => removeNeighbour table p d)
          g.dependents
        precedents := g.precedents.set d ∅ } := by
  simp only [unlink, Grid.number?_cellAt]

theorem unlink_of_not_contains {g : Graph} {dependent : Address}
    (h : ¬ g.grid.contains dependent = true) : g.unlink dependent = g := by
  simp only [unlink, Grid.number?_eq_none h]

@[simp] theorem grid_link (g : Graph) (a b : Address) : (g.link a b).grid = g.grid := by
  unfold link
  split <;> rfl

@[simp] theorem grid_unlink (g : Graph) (a : Address) : (g.unlink a).grid = g.grid := by
  unfold unlink
  split <;> rfl

@[simp] theorem grid_linkAll (g : Graph) (a : Address) (bs : List Address) :
    (g.linkAll a bs).grid = g.grid := by
  induction bs generalizing g with
  | nil => rfl
  | cons b bs ih =>
    have step : g.linkAll a (b :: bs) = (g.link a b).linkAll a bs := rfl
    rw [step, ih, grid_link]

theorem new?_eq_some_iff {grid : Grid} {g : Graph} :
    new? grid = some g ↔ grid.cellCount < sizeBound ∧ empty grid = g := by
  simp [new?, Grid.cellCount?, word?, Grid.cellCount]

/-! ### Stored cells -/

theorem mem_cellsOf {grid : Grid} {numbers : NumberSet} {a : Address} :
    a ∈ cellsOf grid numbers ↔ ∃ n ∈ numbers, grid.cellAt n = a := by
  simp [cellsOf]

/-- Ascending numbers are those of cells in reading order. -/
theorem pairwise_cellsOf (grid : Grid) (numbers : NumberSet) :
    (cellsOf grid numbers).Pairwise fun a b => compare a b = .lt := by
  rw [cellsOf, List.pairwise_map]
  exact Std.TreeSet.ordered_toList.imp fun h => grid.compare_cellAt (Nat.compare_eq_lt.mp h)

/-! ### Bounds for searches

A search looks at no more than the cells that have an edge. -/

/-- The cells that have dependents. -/
def sources (g : Graph) : List Address :=
  g.dependents.toList.zipIdx.filterMap fun (numbers, n) =>
    if numbers.isEmpty then none else some (g.grid.cellAt n)

/-- The cells that are a dependent of some cell. -/
def targets (g : Graph) : List Address :=
  g.dependents.toList.flatMap (cellsOf g.grid)

/-- A cell that is no source has no dependents. -/
theorem dependentsOf_eq_nil {g : Graph} {a : Address} (h : a ∉ g.sources) :
    g.dependentsOf a = [] := by
  cases ha : g.grid.number? a with
  | none =>
    simp only [dependentsOf, neighbours, ha]
    rfl
  | some n =>
    obtain rfl := Grid.number?_eq_some_iff.mp ha
    have hplace : (g.dependents[n], n.val) ∈ g.dependents.toList.zipIdx :=
      List.mem_zipIdx_iff_getElem?.mpr (by simp)
    have hempty : g.dependents[n].isEmpty = true := by
      by_cases hempty : g.dependents[n].isEmpty = true
      · exact hempty
      · exact absurd (List.mem_filterMap.mpr ⟨_, hplace, if_neg hempty⟩) h
    have hnil : g.dependents[n].toList = [] := by
      rw [← List.isEmpty_iff, Std.TreeSet.isEmpty_toList, hempty]
    simp only [dependentsOf, neighbours, ha, cellsOf, hnil, List.map_nil]

/-- Every dependent of a cell is a target. -/
theorem mem_targets_of_mem_dependentsOf {g : Graph} {a b : Address} (h : b ∈ g.dependentsOf a) :
    b ∈ g.targets := by
  unfold dependentsOf neighbours at h
  split at h
  · rename_i n _
    refine List.mem_flatMap.mpr ⟨g.dependents[n], ?_, h⟩
    exact Vector.mem_toList_iff.mpr (Vector.getElem_mem n.isLt)
  · obtain ⟨m, hm, -⟩ := mem_cellsOf.mp h
    exact absurd hm Std.TreeSet.not_mem_emptyc

end Graph

end Worksheet
