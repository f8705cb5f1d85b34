import Worksheet.Proofs.Graph.Order

/-!
# What it means to find a cycle

A search from a cell finds a cycle exactly if there is one that can be reached from the cell along
dependents (`Graph.detectCycle_exact`). The cell itself need not lie on that cycle, and the cycle
that is found need not be the only one; but it is always a cycle of distinct cells, all of which can
be reached.

The harder half is that a search which ends without a cycle has not missed one. A dependent that the
search has left before is passed over, whatever can be reached from there. This is safe because the
cells that were left are in an order, so that no walk from them goes on for ever, while from a cell
that leads to a cycle a walk can go on for ever, round and round.

Nothing of this depends on how the graph came about. Only that a cell outside the grid never leads to
a cycle does: the graph has no edges there, as long as it was built by adding and removing edges.

## Main definitions

* `Graph.ReachesCycle` — a directed cycle can be reached from a cell

## Main results

* `Graph.ReachesCycle.endless` — what a search that ends without a cycle excludes
* `Graph.exists_detectCycle_iff` — when a cycle is found
* `Graph.detectCycle_exact` — the same for the cells of a grid, and what is found
-/

namespace Worksheet.Graph

open Relation (ReflTransGen TransGen)

variable {g : Graph} {a b : Address} {cycle : List Address}

/-- A directed cycle can be reached from the cell along dependents. The cell may be on it. -/
def ReachesCycle (g : Graph) (a : Address) : Prop :=
  ∃ b, ReflTransGen g.Feeds a b ∧ g.OnCycle b

/-- From a cell that leads to a cycle, a walk can go on for ever. -/
theorem ReachesCycle.endless (h : g.ReachesCycle a) :
    Endless g.Feeds {b | ReflTransGen g.Feeds a b} a := by
  obtain ⟨b, hab, hb⟩ := h
  have hbb : TransGen g.Feeds b b := onCycle_iff.mp hb
  -- the walk stays among the cells from which it can still get to the cycle
  refine ⟨{x | ReflTransGen g.Feeds a x ∧ ReflTransGen g.Feeds x b}, fun x hx => hx.1,
    ⟨.refl, hab⟩, ?_⟩
  rintro x ⟨hax, hxb⟩
  have hxb' : TransGen g.Feeds x b := TransGen.trans_right hxb hbb
  obtain ⟨y, hxy, hyb⟩ := TransGen.head'_iff.mp hxb'
  exact ⟨y, ⟨hax.tail hxy, hyb⟩, hxy⟩

/-- The cycle that is found has each of its cells once, and they can all be reached. -/
theorem isSimpleCycleWithin_of_detectCycle (h : g.detectCycle a = some cycle) :
    g.IsSimpleCycleWithin {b | ReflTransGen g.Feeds a b} cycle where
  isCycle := (closedChain_of_detectCycle h).mono fun _ _ _ _ hxy => hxy.edge
  nodup := nodup_of_detectCycle h
  mem _ hx := (isRing_of_closedChain (closedChain_of_detectCycle h)).subset hx

/-- **A cycle is found** from the cells that lead to one, and from no others. -/
theorem exists_detectCycle_iff :
    (∃ cycle, g.detectCycle a = some cycle) ↔ g.ReachesCycle a := by
  constructor
  · rintro ⟨cycle, hcycle⟩
    have hfound := isSimpleCycleWithin_of_detectCycle hcycle
    obtain ⟨b, hb⟩ := List.exists_mem_of_ne_nil cycle hfound.isCycle.ne_nil
    exact ⟨b, hfound.mem b hb, cycle, hfound.isCycle, hb⟩
  · intro hreach
    cases hresult : g.detectCycle a with
    | none => exact absurd hreach.endless (not_endless_of_detectCycle hresult)
    | some cycle => exact ⟨cycle, rfl⟩

/-- Cells outside the grid do not lead to a cycle. -/
theorem ReachesCycle.contains (h : g.ReachesCycle a) (hg : g.Coherent) :
    g.grid.contains a = true := by
  obtain ⟨b, hab, -⟩ := h.endless.exists_feeds
  exact (hg.inside a b hab).1

/-- **Finding a cycle is exact.** In any graph that is built by adding and removing edges, a cycle is
found from a cell just if the cell is in the grid and leads to a cycle. What is found is then a
directed cycle that comes to no cell twice, and all of it can be reached from the cell. -/
theorem detectCycle_exact (grid : Grid) (changes : List Change) (a : Address) :
    ((∃ cycle, (build grid changes).detectCycle a = some cycle) ↔
      grid.contains a = true ∧ (build grid changes).ReachesCycle a) ∧
    ∀ cycle, (build grid changes).detectCycle a = some cycle →
      (build grid changes).IsSimpleCycleWithin
        {b | ReflTransGen (build grid changes).Feeds a b} cycle := by
  refine ⟨?_, fun cycle => isSimpleCycleWithin_of_detectCycle⟩
  rw [exists_detectCycle_iff]
  refine (and_iff_right_of_imp fun hreach => ?_).symm
  have hinside := hreach.contains (coherent_build grid changes)
  rwa [grid_build] at hinside

end Worksheet.Graph
