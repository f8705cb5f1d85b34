import Mathlib.Data.List.Chain
import Mathlib.Data.List.Nodup
import Mathlib.Logic.Relation
import Worksheet.Graph.Basic

/-!
# Edges of a graph

A graph stores its edges twice, by the cell that is read and by the cell that reads. Proofs use one
relation instead, `Graph.Feeds`: a cell feeds another if the formula of the other reads it. That the
two tables hold the same edges, and only edges between cells of the grid, is `Graph.Coherent`. It is
more than a nicety: all edges into a cell are removed by way of the table of precedents, so an edge
that is missing there would never go away.

The tables are tables of numbers. What a change does to them is first said of numbers
(`Graph.Holds`), where the places of a table are told apart, and then of the cells that the numbers
stand for (`Graph.Stores`). The step from one to the other is that no two numbers stand for one cell.
No proof outside this module looks into a table.

## Main definitions

* `Graph.Feeds` — the edges, as a relation
* `Graph.Holds`, `Graph.Stores` — what is stored in a table, in numbers and in cells
* `Graph.Coherent` — the two tables hold the same edges, all of them within the grid
* `Graph.Change`, `Graph.build` — changes of the edges, and what a sequence of them builds
* `Graph.edges` — the edges, as a list

## Main results

* `Graph.Coherent.feeds_unlink`, `Graph.feeds_linkAll` — what an edit does to the edges
* `Graph.coherent_build` — every graph that can be built is coherent
* `Graph.dependentsOf_congr`, `Graph.Coherent.precedentsOf_congr` — the edges determine the stored
  lists
* `Graph.edgeCount_eq_length` — the edges are counted once each
-/

namespace Worksheet

namespace Graph

variable {g h : Graph} {a b c d p : Address}

/-- The formula of the second cell reads the first cell. -/
def Feeds (g : Graph) (a b : Address) : Prop := b ∈ g.dependentsOf a

/-! ### Tables of neighbours -/

section Tables

variable {grid : Grid} {table : NeighbourTable grid} {n m : Nat}

/-- The second number is stored in the place of the first one. -/
def Holds (table : NeighbourTable grid) (n m : Nat) : Prop := m ∈ table[n]?.getD ∅

/-- There are places for the numbers of cells only. -/
theorem Holds.lt (h : Holds table n m) : n < grid.cellCount := by
  by_contra hn
  rw [Holds, Vector.getElem?_eq_none (Nat.le_of_not_lt hn)] at h
  exact Std.TreeSet.not_mem_emptyc h

theorem not_holds_noNeighbours : ¬ Holds (noNeighbours grid) n m := by
  intro h
  have hn := h.lt
  rw [Holds, noNeighbours, Vector.getElem?_replicate, if_pos hn] at h
  exact Std.TreeSet.not_mem_emptyc h

/-- Putting a set in a place leaves the other places alone. -/
theorem holds_set {numbers : NumberSet} {k : Nat} (hk : k < grid.cellCount) :
    Holds (table.set k numbers hk) n m ↔ (n = k ∧ m ∈ numbers) ∨ (n ≠ k ∧ Holds table n m) := by
  rw [Holds, Vector.getElem?_set]
  by_cases hn : n = k
  · simp [hn]
  · simp [hn, Ne.symm hn, Holds]

theorem holds_addNeighbour (a b : Fin grid.cellCount) :
    Holds (addNeighbour table a b) n m ↔ (n = a ∧ m = b) ∨ Holds table n m := by
  rw [addNeighbour, holds_set, Std.TreeSet.mem_insert, Std.LawfulEqOrd.compare_eq_iff_eq]
  by_cases hn : n = a
  · simp [hn, Holds, eq_comm]
  · simp [hn]

theorem holds_removeNeighbour (a b : Nat) :
    Holds (removeNeighbour table a b) n m ↔ Holds table n m ∧ ¬ (n = a ∧ m = b) := by
  by_cases ha : a < grid.cellCount
  · have hset : removeNeighbour table a b = table.set a ((table[a]?.getD ∅).erase b) ha := by
      simp [removeNeighbour, Vector.setIfInBounds, Vector.set, Array.setIfInBounds, ha]
    rw [hset, holds_set, Std.TreeSet.mem_erase, Ne, Std.LawfulEqOrd.compare_eq_iff_eq]
    by_cases hn : n = a
    · simp [hn, Holds, eq_comm, and_comm]
    · simp [hn]
  · rw [removeNeighbour, Vector.setIfInBounds_eq_of_size_le (Nat.le_of_not_lt ha)]
    refine (and_iff_left_of_imp fun h hn => ?_).symm
    exact ha (hn.1 ▸ h.lt)

/-- Taking a number from several places. -/
theorem holds_foldl_removeNeighbour (numbers : List Nat) (b : Nat) (table : NeighbourTable grid) :
    Holds (numbers.foldl (fun table a => removeNeighbour table a b) table) n m ↔
      Holds table n m ∧ ¬ (n ∈ numbers ∧ m = b) := by
  induction numbers generalizing table with
  | nil => simp
  | cons a numbers ih =>
    rw [List.foldl_cons, ih, holds_removeNeighbour, List.mem_cons]
    tauto

/-- The second cell is stored in the place of the first one. -/
def Stores (table : NeighbourTable grid) (a b : Address) : Prop :=
  b ∈ cellsOf grid (neighbours table a)

theorem stores_iff : Stores table a b ↔
    ∃ n m, grid.cellAt n = a ∧ grid.cellAt m = b ∧ Holds table n m := by
  rw [Stores, mem_cellsOf]
  constructor
  · rintro ⟨m, hm, hb⟩
    cases ha : grid.number? a with
    | none =>
      simp only [neighbours, ha] at hm
      exact absurd hm Std.TreeSet.not_mem_emptyc
    | some n =>
      simp only [neighbours, ha] at hm
      exact ⟨n, m, Grid.number?_eq_some_iff.mp ha, hb, by simpa [Holds] using hm⟩
  · rintro ⟨n, m, rfl, rfl, h⟩
    refine ⟨m, ?_, rfl⟩
    simp only [neighbours, Grid.number?_cellAt ⟨n, h.lt⟩]
    simpa [Holds, h.lt] using h

/-- Numbers and cells say the same. -/
theorem stores_cellAt : Stores table (grid.cellAt n) (grid.cellAt m) ↔ Holds table n m := by
  rw [stores_iff]
  constructor
  · rintro ⟨n', m', hn, hm, h⟩
    rwa [Grid.cellAt_injective hn, Grid.cellAt_injective hm] at h
  · exact fun h => ⟨n, m, rfl, rfl, h⟩

/-- There are places for the cells of the grid only. -/
theorem Stores.contains (h : Stores table a b) : grid.contains a = true := by
  obtain ⟨n, m, rfl, -, h⟩ := stores_iff.mp h
  exact Grid.contains_cellAt h.lt

theorem stores_addNeighbour (k l : Fin grid.cellCount) :
    Stores (addNeighbour table k l) a b ↔
      (a = grid.cellAt k ∧ b = grid.cellAt l) ∨ Stores table a b := by
  rw [stores_iff, stores_iff]
  simp only [holds_addNeighbour]
  constructor
  · rintro ⟨n, m, rfl, rfl, ⟨rfl, rfl⟩ | h⟩
    · exact .inl ⟨rfl, rfl⟩
    · exact .inr ⟨n, m, rfl, rfl, h⟩
  · rintro (⟨rfl, rfl⟩ | ⟨n, m, rfl, rfl, h⟩)
    · exact ⟨k, l, rfl, rfl, .inl ⟨rfl, rfl⟩⟩
    · exact ⟨n, m, rfl, rfl, .inr h⟩

end Tables

/-! ### Coherent graphs -/

theorem feeds_iff : g.Feeds a b ↔ Stores g.dependents a b := Iff.rfl

theorem mem_precedentsOf : a ∈ g.precedentsOf b ↔ Stores g.precedents b a := Iff.rfl

/-- The two tables hold the same edges, and both ends of every edge are in the grid. -/
structure Coherent (g : Graph) : Prop where
  mirrored : ∀ a b, g.Feeds a b ↔ a ∈ g.precedentsOf b
  inside : ∀ a b, g.Feeds a b → g.grid.contains a = true ∧ g.grid.contains b = true

/-- In numbers: the tables are the transposes of each other. -/
theorem Coherent.holds_iff (hg : g.Coherent) (n m : Nat) :
    Holds g.dependents n m ↔ Holds g.precedents m n := by
  rw [← stores_cellAt, ← stores_cellAt]
  exact hg.mirrored _ _

theorem not_feeds_empty (grid : Grid) : ¬ (Graph.empty grid).Feeds a b := by
  rw [feeds_iff, stores_iff]
  rintro ⟨n, m, -, -, h⟩
  exact not_holds_noNeighbours h

theorem not_mem_precedentsOf_empty (grid : Grid) : a ∉ (Graph.empty grid).precedentsOf b := by
  rw [mem_precedentsOf, stores_iff]
  rintro ⟨n, m, -, -, h⟩
  exact not_holds_noNeighbours h

theorem coherent_empty (grid : Grid) : (Graph.empty grid).Coherent where
  mirrored _ _ := iff_of_false (not_feeds_empty grid) (not_mem_precedentsOf_empty grid)
  inside _ _ hab := absurd hab (not_feeds_empty grid)

/-- Adding an edge adds that edge, if its ends are in the grid. -/
theorem feeds_link : (g.link d p).Feeds a b ↔
    g.Feeds a b ∨ (a = p ∧ b = d ∧ g.grid.contains d = true ∧ g.grid.contains p = true) := by
  by_cases hinside : g.grid.contains d = true ∧ g.grid.contains p = true
  · obtain ⟨⟨n, rfl⟩, ⟨m, rfl⟩⟩ := hinside.imp Grid.exists_cellAt_eq Grid.exists_cellAt_eq
    rw [link_cellAt, feeds_iff, feeds_iff, stores_addNeighbour]
    tauto
  · rw [link_of_not_contains hinside]
    tauto

theorem mem_precedentsOf_link : a ∈ (g.link d p).precedentsOf b ↔
    a ∈ g.precedentsOf b ∨
      (a = p ∧ b = d ∧ g.grid.contains d = true ∧ g.grid.contains p = true) := by
  by_cases hinside : g.grid.contains d = true ∧ g.grid.contains p = true
  · obtain ⟨⟨n, rfl⟩, ⟨m, rfl⟩⟩ := hinside.imp Grid.exists_cellAt_eq Grid.exists_cellAt_eq
    rw [link_cellAt, mem_precedentsOf, mem_precedentsOf, stores_addNeighbour]
    tauto
  · rw [link_of_not_contains hinside]
    tauto

theorem Coherent.link (hg : g.Coherent) (d p : Address) : (g.link d p).Coherent where
  mirrored a b := by rw [feeds_link, mem_precedentsOf_link, hg.mirrored]
  inside a b hab := by
    rw [grid_link]
    rcases feeds_link.mp hab with hab | ⟨rfl, rfl, hb, ha⟩
    · exact hg.inside a b hab
    · exact ⟨ha, hb⟩

/-- What adding an edge does to either table, adding one after another does too. -/
theorem linkAll_iff {r : Graph → Address → Address → Prop}
    (hlink : ∀ g d p a b, r (g.link d p) a b ↔
      r g a b ∨ (a = p ∧ b = d ∧ g.grid.contains d = true ∧ g.grid.contains p = true))
    (cells : List Address) : r (g.linkAll d cells) a b ↔
      r g a b ∨ (b = d ∧ a ∈ cells ∧ g.grid.contains d = true ∧ g.grid.contains a = true) := by
  induction cells generalizing g with
  | nil => simp [linkAll]
  | cons p cells ih =>
    rw [show g.linkAll d (p :: cells) = (g.link d p).linkAll d cells from rfl, ih, hlink,
      grid_link, List.mem_cons]
    constructor
    · rintro ((hab | ⟨rfl, rfl, hd, ha⟩) | ⟨rfl, ha, hd, ha'⟩)
      · exact .inl hab
      · exact .inr ⟨rfl, .inl rfl, hd, ha⟩
      · exact .inr ⟨rfl, .inr ha, hd, ha'⟩
    · rintro (hab | ⟨rfl, rfl | ha, hd, ha'⟩)
      · exact .inl (.inl hab)
      · exact .inl (.inr ⟨rfl, rfl, hd, ha'⟩)
      · exact .inr ⟨rfl, ha, hd, ha'⟩

/-- Linking a cell adds an edge from every cell in the grid that its formula reads. -/
theorem feeds_linkAll (cells : List Address) : (g.linkAll d cells).Feeds a b ↔
    g.Feeds a b ∨ (b = d ∧ a ∈ cells ∧ g.grid.contains d = true ∧ g.grid.contains a = true) :=
  linkAll_iff (r := Feeds) (fun _ _ _ _ _ => feeds_link) cells

theorem mem_precedentsOf_linkAll (cells : List Address) : a ∈ (g.linkAll d cells).precedentsOf b ↔
    a ∈ g.precedentsOf b ∨
      (b = d ∧ a ∈ cells ∧ g.grid.contains d = true ∧ g.grid.contains a = true) :=
  linkAll_iff (r := fun g a b => a ∈ g.precedentsOf b) (fun _ _ _ _ _ => mem_precedentsOf_link) cells

theorem Coherent.linkAll (hg : g.Coherent) (d : Address) (cells : List Address) :
    (g.linkAll d cells).Coherent := by
  induction cells generalizing g with
  | nil => exact hg
  | cons p cells ih => exact ih (hg.link d p)

/-- Unlinking a cell takes away the edges into it, and no others. The numbers that are gone through are
the stored precedents, so this depends on the tables being transposes of each other. -/
theorem Coherent.feeds_unlink (hg : g.Coherent) : (g.unlink d).Feeds a b ↔ g.Feeds a b ∧ b ≠ d := by
  by_cases hd : g.grid.contains d = true
  · obtain ⟨k, rfl⟩ := Grid.exists_cellAt_eq hd
    have hstored : ∀ n, n ∈ g.precedents[k].toList ↔ Holds g.precedents k n := by simp [Holds]
    rw [unlink_cellAt, feeds_iff, feeds_iff, stores_iff, stores_iff]
    simp only [holds_foldl_removeNeighbour, hstored]
    constructor
    · rintro ⟨n, m, rfl, rfl, h, hnot⟩
      refine ⟨⟨n, m, rfl, rfl, h⟩, fun hm => hnot ?_⟩
      obtain rfl := Grid.cellAt_injective hm
      exact ⟨(hg.holds_iff n k).mp h, rfl⟩
    · rintro ⟨⟨n, m, rfl, rfl, h⟩, hm⟩
      exact ⟨n, m, rfl, rfl, h, fun hk => hm (congrArg _ hk.2)⟩
  · rw [unlink_of_not_contains hd]
    refine (and_iff_left_of_imp ?_).symm
    rintro hab rfl
    exact hd (hg.inside a b hab).2

theorem mem_precedentsOf_unlink :
    a ∈ (g.unlink d).precedentsOf b ↔ a ∈ g.precedentsOf b ∧ b ≠ d := by
  by_cases hd : g.grid.contains d = true
  · obtain ⟨k, rfl⟩ := Grid.exists_cellAt_eq hd
    rw [unlink_cellAt, mem_precedentsOf, mem_precedentsOf, stores_iff, stores_iff]
    simp only [holds_set, Std.TreeSet.not_mem_emptyc, and_false, false_or]
    constructor
    · rintro ⟨n, m, rfl, rfl, hn, h⟩
      exact ⟨⟨n, m, rfl, rfl, h⟩, fun heq => hn (Grid.cellAt_injective heq)⟩
    · rintro ⟨⟨n, m, rfl, rfl, h⟩, hn⟩
      exact ⟨n, m, rfl, rfl, fun heq => hn (congrArg _ heq), h⟩
  · rw [unlink_of_not_contains hd]
    refine (and_iff_left_of_imp ?_).symm
    rintro ha rfl
    exact hd (mem_precedentsOf.mp ha).contains

theorem Coherent.unlink (hg : g.Coherent) (d : Address) : (g.unlink d).Coherent where
  mirrored a b := by rw [hg.feeds_unlink, mem_precedentsOf_unlink, hg.mirrored]
  inside a b hab := by
    rw [grid_unlink]
    exact hg.inside a b (hg.feeds_unlink.mp hab).1

/-- There are finitely many edges. -/
theorem mem_sources_or_targets (hab : g.Feeds a b) :
    a ∈ g.sources ++ g.targets ∧ b ∈ g.sources ++ g.targets := by
  refine ⟨List.mem_append_left _ ?_, List.mem_append_right _ (mem_targets_of_mem_dependentsOf hab)⟩
  by_contra ha
  rw [Feeds, dependentsOf_eq_nil ha] at hab
  cases hab

/-! ### Built graphs

A graph comes about by changes, one after another, of the graph without edges. -/

/-- A change of the edges. -/
inductive Change where
  | link (dependent precedent : Address)
  | unlink (dependent : Address)
deriving DecidableEq, Repr

/-- The graph after a change. -/
def after (g : Graph) : Change → Graph
  | .link dependent precedent => g.link dependent precedent
  | .unlink dependent => g.unlink dependent

/-- The graph that a sequence of changes makes of the one without edges. -/
def build (grid : Grid) (changes : List Change) : Graph := changes.foldl after (empty grid)

@[simp] theorem grid_after (g : Graph) (change : Change) : (g.after change).grid = g.grid := by
  cases change with
  | link d p => exact grid_link g d p
  | unlink d => exact grid_unlink g d

theorem Coherent.after (hg : g.Coherent) (change : Change) : (g.after change).Coherent := by
  cases change with
  | link d p => exact hg.link d p
  | unlink d => exact hg.unlink d

theorem grid_build (grid : Grid) (changes : List Change) : (build grid changes).grid = grid :=
  List.foldlRecOn (motive := fun g => g.grid = grid) changes after rfl
    fun g hg change _ => (grid_after g change).trans hg

/-- **Every graph that can be built** is coherent. -/
theorem coherent_build (grid : Grid) (changes : List Change) : (build grid changes).Coherent :=
  List.foldlRecOn changes after (coherent_empty grid) fun _ hg change _ => hg.after change

/-! ### Stored lists

The lists of neighbours are in reading order, so they are the same if their cells are. -/

theorem pairwise_dependentsOf (g : Graph) (a : Address) :
    (g.dependentsOf a).Pairwise fun b c => compare b c = .lt :=
  pairwise_cellsOf g.grid _

theorem pairwise_precedentsOf (g : Graph) (b : Address) :
    (g.precedentsOf b).Pairwise fun a c => compare a c = .lt :=
  pairwise_cellsOf g.grid _

theorem dependentsOf_congr (heq : ∀ a b, g.Feeds a b ↔ h.Feeds a b) (a : Address) :
    g.dependentsOf a = h.dependentsOf a :=
  Address.eq_of_pairwise_lt (pairwise_dependentsOf g a) (pairwise_dependentsOf h a) (heq a)

theorem precedentsOf_eq_of_mem_iff (heq : ∀ a, a ∈ g.precedentsOf b ↔ a ∈ h.precedentsOf b) :
    g.precedentsOf b = h.precedentsOf b :=
  Address.eq_of_pairwise_lt (pairwise_precedentsOf g b) (pairwise_precedentsOf h b) heq

theorem Coherent.precedentsOf_congr (hg : g.Coherent) (hh : h.Coherent)
    (heq : ∀ a b, g.Feeds a b ↔ h.Feeds a b) (b : Address) :
    g.precedentsOf b = h.precedentsOf b := by
  refine precedentsOf_eq_of_mem_iff fun a => ?_
  rw [← hg.mirrored, ← hh.mirrored]
  exact heq a b

/-! ### Counting edges

The count adds up the sizes of the stored sets. It is the length of the list of all edges, and so of
any other list that has every edge once. -/

/-- Pairs of a key and of something that belongs to it. -/
theorem nodup_flatMap_pairs {α : Type} {items : List α} {key : α → Address} {f : α → List Address}
    (hkeys : items.Pairwise fun x y => compare (key x) (key y) = .lt)
    (hf : ∀ x ∈ items, (f x).Nodup) :
    (items.flatMap fun x => (f x).map (Prod.mk (key x))).Nodup := by
  refine List.nodup_flatMap.mpr ⟨fun x hx => ?_, hkeys.imp ?_⟩
  · exact (hf x hx).map fun _ _ heq => (Prod.mk.inj heq).2
  · intro x y hlt pair hx hy
    obtain ⟨b, -, rfl⟩ := List.mem_map.mp hx
    obtain ⟨c, -, heq⟩ := List.mem_map.mp hy
    exact Address.ne_of_compare_eq_lt hlt (Prod.mk.inj heq).1.symm

/-- The cells of the grid, by their numbers. -/
def places (g : Graph) : List Address :=
  (List.range g.grid.cellCount).map g.grid.cellAt

/-- The edges, each once. -/
def edges (g : Graph) : List (Address × Address) :=
  g.places.flatMap fun a => (g.dependentsOf a).map (Prod.mk a)

theorem mem_edges : (a, b) ∈ g.edges ↔ g.Feeds a b := by
  constructor
  · intro hpair
    obtain ⟨a', -, hpair⟩ := List.mem_flatMap.mp hpair
    obtain ⟨b', hb, heq⟩ := List.mem_map.mp hpair
    cases heq
    exact hb
  · intro hab
    obtain ⟨n, rfl⟩ := Grid.exists_cellAt_eq (feeds_iff.mp hab).contains
    have hplace : g.grid.cellAt n ∈ g.places := List.mem_map_of_mem (List.mem_range.mpr n.isLt)
    exact List.mem_flatMap.mpr ⟨_, hplace, List.mem_map_of_mem hab⟩

theorem pairwise_places (g : Graph) : g.places.Pairwise fun a b => compare a b = .lt := by
  rw [places, List.pairwise_map]
  exact List.pairwise_lt_range.imp fun h => Grid.compare_cellAt g.grid h

theorem nodup_edges (g : Graph) : g.edges.Nodup :=
  nodup_flatMap_pairs g.pairwise_places fun a _ =>
    Address.nodup_of_pairwise_lt (g.pairwise_dependentsOf a)

/-- A cell has as many dependents as there are numbers in its place. -/
theorem length_dependentsOf_cellAt (g : Graph) {n : Nat} (hn : n < g.grid.cellCount) :
    (g.dependentsOf (g.grid.cellAt n)).length = g.dependents[n].size := by
  simp [dependentsOf, neighbours, Grid.number?_cellAt ⟨n, hn⟩, cellsOf]

theorem edgeCount_eq_length_edges (g : Graph) : g.edgeCount = g.edges.length := by
  have hplaces : g.dependents.toList.map Std.TreeSet.size =
      g.places.map fun a => (g.dependentsOf a).length := by
    refine List.ext_getElem (by simp [places]) fun n hn _ => ?_
    have hn : n < g.grid.cellCount := by simpa using hn
    simpa [places] using (g.length_dependentsOf_cellAt hn).symm
  rw [edgeCount, ← Vector.foldl_toList, edges, List.length_flatMap]
  simp only [List.length_map]
  rw [← hplaces, List.sum_eq_foldl, List.foldl_map]

/-- **The number of edges** is the length of any list that has every edge once. -/
theorem edgeCount_eq_length {pairs : List (Address × Address)} (hnodup : pairs.Nodup)
    (h : ∀ a b, (a, b) ∈ pairs ↔ g.Feeds a b) : g.edgeCount = pairs.length := by
  rw [edgeCount_eq_length_edges]
  refine ((List.perm_ext_iff_of_nodup g.nodup_edges hnodup).mpr ?_).length_eq
  rintro ⟨a, b⟩
  rw [mem_edges, h]

theorem edgeCount_congr (heq : ∀ a b, g.Feeds a b ↔ h.Feeds a b) : g.edgeCount = h.edgeCount := by
  rw [h.edgeCount_eq_length_edges]
  exact edgeCount_eq_length h.nodup_edges fun a b => mem_edges.trans (heq a b).symm

end Graph

end Worksheet
