import Mathlib.Data.Finset.Card
import Mathlib.Data.Finset.Filter
import Mathlib.Data.Finset.Insert
import Worksheet.Proofs.Graph.Edges
import Worksheet.Proofs.Numbering

/-!
# The two tables of a graph as one relation

A graph stores each edge twice, by number, and takes the edges into a cell out of one table by way of
the other. What it stands for is nevertheless a plain set of pairs, each of a cell and a cell that
reads it. Adding an edge inserts a pair if both its cells are in the grid, and removing the edges into
a cell erases the pairs that have the cell in the second place (`Graph.Change.record`). A graph that is
built by such changes has the pairs of the set in either table, and no others
(`Graph.represents_build`).

The step from one change to the next needs that the tables are transposes of each other, which is
`Graph.Coherent`. A removal goes through the stored precedents of the cell; if one of its edges were in
the other table only, it would stay there for ever.

That numbers can stand for cells takes three things. Numbers that are stored have to be those of cells
of the grid, or a removal would look for a place that does not exist. Numbering has to be undone by
what reads a cell off its number. And a number has to fit a word, which is why no graph is made for a
grid that has too many cells (`Graph.new?`).

## Main definitions

* `Graph.Change.record`, `Graph.recorded` — the set of pairs that changes call for
* `Graph.Represents` — a graph stands for a set
* `Graph.build?` — a graph that is made for a grid and then changed

## Main results

* `Graph.feeds_build_iff` — the edges of a built graph
* `Graph.represents_build` — the headline: a built graph stands for the recorded set
-/

namespace Worksheet.Graph

variable {grid : Grid} {g : Graph} {a b d : Address} {pairs : Finset (Address × Address)}
  {change : Change}

/-! ### The recorded pairs -/

/-- The cells that a change names. -/
def Change.cells : Change → List Address
  | link dependent precedent => [dependent, precedent]
  | unlink dependent => [dependent]

/-- What a change does to a set of pairs: it inserts a pair of cells of the grid, or erases the pairs
with this dependent. -/
def Change.record (grid : Grid) (pairs : Finset (Address × Address)) :
    Change → Finset (Address × Address)
  | link dependent precedent =>
    if grid.contains dependent ∧ grid.contains precedent then
      insert (precedent, dependent) pairs
    else pairs
  | unlink dependent => pairs.filter fun pair => pair.2 ≠ dependent

/-- The pairs that a sequence of changes leaves, where there were none before. -/
def recorded (grid : Grid) (changes : List Change) : Finset (Address × Address) :=
  changes.foldl (Change.record grid) ∅

/-- A change does to the edges what it does to the set. -/
theorem Coherent.feeds_after_iff (hg : g.Coherent) (h : ∀ a b, g.Feeds a b ↔ (a, b) ∈ pairs)
    (change : Change) (a b : Address) :
    (g.after change).Feeds a b ↔ (a, b) ∈ change.record g.grid pairs := by
  cases change with
  | link dependent precedent =>
    show (g.link dependent precedent).Feeds a b ↔ _
    rw [feeds_link, h, Change.record]
    split <;> simp_all [or_comm]
  | unlink dependent =>
    show (g.unlink dependent).Feeds a b ↔ _
    rw [hg.feeds_unlink, h]
    simp [Change.record]

/-- **The edges of a built graph** are the recorded pairs. -/
theorem feeds_build_iff (grid : Grid) (changes : List Change) (a b : Address) :
    (build grid changes).Feeds a b ↔ (a, b) ∈ recorded grid changes := by
  induction changes using List.reverseRecOn generalizing a b with
  | nil => exact iff_of_false (not_feeds_empty grid) (Finset.notMem_empty _)
  | append_singleton changes change ih =>
    have hstep := (coherent_build grid changes).feeds_after_iff ih change a b
    rw [grid_build] at hstep
    simpa [build, recorded, List.foldl_append] using hstep

/-! ### Standing for a set -/

/-- The graph stands for a set of pairs, each of a cell and a cell that reads it. -/
structure Represents (g : Graph) (pairs : Finset (Address × Address)) : Prop where
  /-- The pairs are those of a cell and its dependents. -/
  mem_dependentsOf_iff : ∀ a b, b ∈ g.dependentsOf a ↔ (a, b) ∈ pairs
  /-- The same pairs are those of a cell and its precedents. -/
  mem_precedentsOf_iff : ∀ a b, a ∈ g.precedentsOf b ↔ (a, b) ∈ pairs
  /-- Dependents are listed in reading order, each once. -/
  dependentsOf_ascending : ∀ a, (g.dependentsOf a).Pairwise fun b c => compare b c = .lt
  /-- Precedents are listed in reading order, each once. -/
  precedentsOf_ascending : ∀ b, (g.precedentsOf b).Pairwise fun a c => compare a c = .lt
  /-- A pair is stored under the numbers of its cells, in either table. -/
  holds_of_mem : ∀ a b, (a, b) ∈ pairs → g.grid.contains a = true ∧ g.grid.contains b = true ∧
    Holds g.dependents (g.grid.indexOf a) (g.grid.indexOf b) ∧
    Holds g.precedents (g.grid.indexOf b) (g.grid.indexOf a)
  /-- Numbers that are stored are less than the number of cells, and their cells are a pair. -/
  mem_of_holds_dependents : ∀ n m, Holds g.dependents n m →
    n < g.grid.cellCount ∧ m < g.grid.cellCount ∧ (g.grid.cellAt n, g.grid.cellAt m) ∈ pairs
  /-- The same holds for the other table. -/
  mem_of_holds_precedents : ∀ n m, Holds g.precedents m n →
    n < g.grid.cellCount ∧ m < g.grid.cellCount ∧ (g.grid.cellAt n, g.grid.cellAt m) ∈ pairs
  /-- The edges are counted. -/
  edgeCount_eq : g.edgeCount = pairs.card

/-- Numbers that are stored are those of cells of the grid. -/
theorem Coherent.lt_of_holds (hg : g.Coherent) {n m : Nat} (h : Holds g.dependents n m) :
    n < g.grid.cellCount ∧ m < g.grid.cellCount :=
  ⟨h.lt, ((hg.holds_iff n m).mp h).lt⟩

/-- A coherent graph stands for the set of its edges. -/
theorem Coherent.represents (hg : g.Coherent) (h : ∀ a b, g.Feeds a b ↔ (a, b) ∈ pairs) :
    g.Represents pairs where
  mem_dependentsOf_iff := h
  mem_precedentsOf_iff a b := (hg.mirrored a b).symm.trans (h a b)
  dependentsOf_ascending := g.pairwise_dependentsOf
  precedentsOf_ascending := g.pairwise_precedentsOf
  holds_of_mem a b hab := by
    obtain ⟨ha, hb⟩ := hg.inside a b ((h a b).mpr hab)
    have hholds : Holds g.dependents (g.grid.indexOf a) (g.grid.indexOf b) := by
      rw [← stores_cellAt, Grid.cellAt_indexOf ha, Grid.cellAt_indexOf hb]
      exact (h a b).mpr hab
    exact ⟨ha, hb, hholds, (hg.holds_iff _ _).mp hholds⟩
  mem_of_holds_dependents n m hnm := by
    obtain ⟨hn, hm⟩ := hg.lt_of_holds hnm
    exact ⟨hn, hm, (h _ _).mp (stores_cellAt.mpr hnm)⟩
  mem_of_holds_precedents n m hmn := by
    have hnm := (hg.holds_iff n m).mpr hmn
    obtain ⟨hn, hm⟩ := hg.lt_of_holds hnm
    exact ⟨hn, hm, (h _ _).mp (stores_cellAt.mpr hnm)⟩
  edgeCount_eq := by
    rw [← Finset.length_toList]
    refine edgeCount_eq_length (Finset.nodup_toList _) fun a b => ?_
    rw [Finset.mem_toList, h]

/-! ### Changes outside the grid -/

/-- A change that names a cell outside the grid leaves both tables as they are. -/
theorem after_eq_self (hchange : ∃ a ∈ change.cells, g.grid.contains a = false) :
    g.after change = g := by
  obtain ⟨a, hmem, ha⟩ := hchange
  have hnot : ¬ g.grid.contains a = true := Bool.eq_false_iff.mp ha
  cases change with
  | link dependent precedent =>
    simp only [Change.cells, List.mem_cons, List.not_mem_nil, or_false] at hmem
    refine link_of_not_contains ?_
    rintro ⟨hd, hp⟩
    rcases hmem with rfl | rfl
    · exact hnot hd
    · exact hnot hp
  | unlink dependent =>
    obtain rfl : a = dependent := List.mem_singleton.mp hmem
    exact unlink_of_not_contains hnot

/-! ### Graphs for a grid -/

/-- The graph that a sequence of changes makes of a new one. -/
def build? (grid : Grid) (changes : List Change) : Option Graph :=
  (new? grid).map fun g => changes.foldl after g

theorem build?_eq_some_iff {changes : List Change} :
    build? grid changes = some g ↔ grid.cellCount < sizeBound ∧ build grid changes = g := by
  rw [build?, Option.map_eq_some_iff]
  constructor
  · rintro ⟨g, hnew, rfl⟩
    obtain ⟨hfits, rfl⟩ := new?_eq_some_iff.mp hnew
    exact ⟨hfits, rfl⟩
  · rintro ⟨hfits, rfl⟩
    exact ⟨_, new?_eq_some_iff.mpr ⟨hfits, rfl⟩, rfl⟩

/-- **A graph stands for one set of pairs.** There is a graph for every grid whose number of cells fits
a word, whatever the changes. However a graph is built by adding and removing edges, of cells in the
grid or outside it, either of its tables holds the pairs that the changes have recorded and no others,
in reading order and by their numbers, and the edges are counted once each. A change that names a cell
outside the grid does nothing at all. No number that is computed for a cell overflows a word. -/
theorem represents_build (grid : Grid) (changes : List Change) :
    ((build? grid changes).isSome = true ↔ grid.cellCount < sizeBound) ∧
    ∀ g ∈ build? grid changes,
      g.grid = grid ∧
      g.Represents (recorded grid changes) ∧
      (∀ change : Change, (∃ a ∈ change.cells, grid.contains a = false) → g.after change = g) ∧
      ∀ a, grid.contains a = true → grid.indexWord? a = some (grid.indexOf a) := by
  refine ⟨?_, ?_⟩
  · rw [Option.isSome_iff_exists]
    simp only [build?_eq_some_iff, exists_and_left, exists_eq', and_true]
  · intro g hg
    obtain ⟨hfits, rfl⟩ := build?_eq_some_iff.mp hg
    refine ⟨grid_build grid changes,
      (coherent_build grid changes).represents (feeds_build_iff grid changes), ?_,
      fun a ha => Grid.indexWord?_eq hfits ha⟩
    rintro change ⟨a, hmem, ha⟩
    exact after_eq_self ⟨a, hmem, by rwa [grid_build]⟩

end Worksheet.Graph
