import Worksheet.Graph.Search

/-!
# Cycles and orders of a graph

Two questions are put to the graph when a cell has changed: whether it leads into a circular
reference, and in which order the cells that depend on it have to be computed again. A depth-first
search answers both. The first one is put to the whole graph, the second one to a list of cells.

## Main definitions

* `Graph.detectCycle`: a cycle that can be reached from a cell;
* `Graph.topologicalOrder`: cells in an order in which each comes after those of them that it reads,
  or a cycle among them.

## Main results

* `Graph.exists_of_topologicalOrder_eq_error`: a cycle among cells starts with one of them.
-/

namespace Worksheet.Graph

/-- A cycle that can be reached from a cell along dependents, if there is one. It is the first one
that a depth-first search comes upon, and starts with the cell where the search closed it. -/
def detectCycle (g : Graph) (a : Address) : Option (List Address) :=
  match Search.explore g (fun _ => true) [a] .start with
  | .ok _ => none
  | .error cycle => some cycle

/-- The cells of the list that lie in the grid, each once, in an order in which every cell comes
after those of them that it reads. If there is a cycle among them, the cycle. -/
def topologicalOrder (g : Graph) (cells : List Address) : Except (List Address) (List Address) :=
  let roots := cells.filter g.grid.contains
  let members : AddressSet := .ofList roots
  match Search.explore g members.contains roots .start with
  | .ok s => .ok s.finished
  | .error cycle => .error cycle

/-- How a cycle among cells is reported. -/
def cycleMessage (cycle : List Address) : String :=
  "circular reference: " ++ pathText cycle

/-- A cycle that is reported for a list of cells starts with one of them. -/
theorem exists_of_topologicalOrder_eq_error {g : Graph} {cells cycle : List Address}
    (h : g.topologicalOrder cells = .error cycle) : ∃ a rest, cycle = a :: rest ∧ a ∈ cells := by
  simp only [topologicalOrder] at h
  split at h
  · cases h
  · rename_i found hfound
    cases h
    obtain ⟨a, rest, rfl, ha⟩ := Search.exists_of_explore_eq_error hfound
    refine ⟨a, rest, rfl, ?_⟩
    rw [Std.TreeSet.contains_ofList, List.contains_iff_mem] at ha
    exact (List.mem_filter.mp ha).1

end Worksheet.Graph
