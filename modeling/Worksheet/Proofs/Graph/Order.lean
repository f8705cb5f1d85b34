import Mathlib.Data.List.Basic
import Worksheet.Proofs.Graph.Search

/-!
# What it means to put cells in order

Cells are put in order so that each comes after those of them that it reads. That can fail for one
reason only, a directed cycle among the cells, and then a cycle is named. Both outcomes are described
here without regard to how the search goes about it, and the search is shown to have no third one
(`Graph.topologicalOrder_exact`).

Cells outside the grid are passed over, and so are repetitions. What is put in order is therefore a
set of cells, and a cycle that leaves the set is no obstacle.

## Main definitions

* `Graph.AcyclicWithin` — no directed cycle stays within a set of cells
* `Graph.Sorts` — a list has the cells of a set once each, and none before a cell that it reads
* `Graph.IsSimpleCycleWithin` — a directed cycle within a set that comes to no cell twice

## Main results

* `Ordered.idxOf_lt` — where an edge leads in an order
* `Graph.topologicalOrder_exact` — an order exactly if there is no cycle, and a cycle otherwise
-/

namespace Worksheet

variable {feeds : Address → Address → Prop} {S : Set Address} {a b : Address}
  {cells order cycle : List Address}

/-- In an order, edges lead to later places. -/
theorem Ordered.idxOf_lt (h : Ordered feeds S cells) (hnodup : cells.Nodup) (ha : a ∈ cells)
    (hb : b ∈ S) (hab : feeds a b) : cells.idxOf a < cells.idxOf b := by
  induction cells with
  | nil => cases ha
  | cons c rest ih =>
    obtain ⟨hc, hrest⟩ := List.nodup_cons.mp hnodup
    rcases List.mem_cons.mp ha with rfl | ha
    · have hne : a ≠ b := fun heq => hc (heq ▸ h.1 b hb hab)
      rw [List.idxOf_cons_self, List.idxOf_cons_ne rest hne]
      exact Nat.succ_pos _
    · have hca : c ≠ a := fun heq => hc (heq ▸ ha)
      have hcb : c ≠ b := fun heq => hc (heq ▸ h.2.mem_of_feeds ha hb hab)
      rw [List.idxOf_cons_ne rest hca, List.idxOf_cons_ne rest hcb]
      exact Nat.succ_lt_succ (ih h.2 hrest ha)

namespace Graph

variable {g : Graph}

/-- No directed cycle stays within the set. -/
def AcyclicWithin (g : Graph) (S : Set Address) : Prop :=
  ∀ cycle, ¬ ClosedChain (Within g.Feeds S) cycle

/-- The list has every cell of the set once and no others, and every cell comes after those of them
that it reads. -/
structure Sorts (g : Graph) (S : Set Address) (order : List Address) : Prop where
  nodup : order.Nodup
  mem_iff : ∀ a, a ∈ order ↔ a ∈ S
  before : ∀ a ∈ S, ∀ b ∈ S, g.Feeds a b → order.idxOf a < order.idxOf b

/-- The list is a directed cycle of distinct cells of the set. -/
structure IsSimpleCycleWithin (g : Graph) (S : Set Address) (cycle : List Address) : Prop where
  isCycle : g.IsCycle cycle
  nodup : cycle.Nodup
  mem : ∀ a ∈ cycle, a ∈ S

theorem IsSimpleCycleWithin.closedChain (h : g.IsSimpleCycleWithin S cycle) :
    ClosedChain (Within g.Feeds S) cycle :=
  ClosedChain.mono h.isCycle fun a ha b hb hab => ⟨hab, h.mem a ha, h.mem b hb⟩

/-- The cells of a list that lie in the grid. -/
def members (g : Graph) (cells : List Address) : Set Address :=
  {a | a ∈ cells ∧ g.grid.contains a = true}

theorem sorts_of_topologicalOrder (h : g.topologicalOrder cells = .ok order) :
    g.Sorts (g.members cells) order := by
  obtain ⟨hnodup, hordered, hmem⟩ := ordered_of_topologicalOrder h
  exact ⟨hnodup, hmem, fun a ha b hb => hordered.idxOf_lt hnodup ((hmem a).mpr ha) hb⟩

/-- Cells that can be put in order have no cycle: from none of them can a walk go on for ever. -/
theorem acyclicWithin_of_topologicalOrder (h : g.topologicalOrder cells = .ok order) :
    g.AcyclicWithin (g.members cells) := by
  intro cycle hcycle
  obtain ⟨-, hordered, hmem⟩ := ordered_of_topologicalOrder h
  obtain ⟨a, ha⟩ := List.exists_mem_of_ne_nil cycle hcycle.ne_nil
  have hinside : {x | x ∈ cycle} ⊆ g.members cells := by
    intro x hx
    obtain ⟨y, -, hxy⟩ := hcycle.exists_rel hx
    exact hxy.2.1
  refine hordered.not_endless ((hmem a).mpr (hinside ha)) ⟨{x | x ∈ cycle}, hinside, ha, ?_⟩
  intro x hx
  obtain ⟨y, hy, hxy⟩ := hcycle.exists_rel hx
  exact ⟨y, hy, hxy.1⟩

theorem isSimpleCycleWithin_of_topologicalOrder (h : g.topologicalOrder cells = .error cycle) :
    g.IsSimpleCycleWithin (g.members cells) cycle where
  isCycle := (closedChain_of_topologicalOrder h).mono fun _ _ _ _ hab => hab.edge
  nodup := nodup_of_topologicalOrder_eq_error h
  mem _ ha := (isRing_of_closedChain (closedChain_of_topologicalOrder h)).subset ha

/-- **Putting cells in order is exact.** Whatever the graph and whatever the cells, they are put in
order exactly if those of them that lie in the grid have no directed cycle among them. The result
is then an order of these cells, and otherwise it is a cycle among them. -/
theorem topologicalOrder_exact (g : Graph) (cells : List Address) :
    ((∃ order, g.topologicalOrder cells = .ok order) ↔ g.AcyclicWithin (g.members cells)) ∧
    (∀ order, g.topologicalOrder cells = .ok order → g.Sorts (g.members cells) order) ∧
    ∀ cycle, g.topologicalOrder cells = .error cycle →
      g.IsSimpleCycleWithin (g.members cells) cycle := by
  refine ⟨⟨?_, ?_⟩, fun order => sorts_of_topologicalOrder,
    fun cycle => isSimpleCycleWithin_of_topologicalOrder⟩
  · rintro ⟨order, horder⟩
    exact acyclicWithin_of_topologicalOrder horder
  · intro hacyclic
    cases hresult : g.topologicalOrder cells with
    | ok order => exact ⟨order, rfl⟩
    | error cycle =>
      exact absurd (isSimpleCycleWithin_of_topologicalOrder hresult).closedChain (hacyclic cycle)

end Graph

end Worksheet
