import Worksheet.Graph.Order
import Worksheet.Graph.Reach

/-!
# What a change calls for

When a cell has changed, some cells have to show that they are part of a circular reference, and
others have to be computed again. Which cells these are, and in which order they come, is a matter of
the graph alone. It is settled in a *plan* before any value is touched.

A cycle that can be reached from the changed cell is pinned first. The other cells that depend on the
changed cell are then put in order. As long as that fails because of a cycle among them, the cells of
the cycle are pinned as well and the rest is tried again. A failure names a cell of the list that was
tried, so the list gets shorter each time.

## Main definitions

* `Plan`: cycles to be pinned, and cells to be computed;
* `Graph.planFor`: the plan after a change of a cell.
-/

namespace Worksheet

/-- What is to be done after a change. -/
structure Plan where
  /-- The cycles whose cells are to show a circular reference, in the order in which they were
  found. -/
  cycles : List (List Address)
  /-- The cells that are to be computed again, in this order. -/
  order : List Address
deriving DecidableEq, Repr

/-- The cells that are to show a circular reference. -/
def Plan.pinned (plan : Plan) : List Address := plan.cycles.flatten

namespace Graph

/-- The cells that are not on a cycle. -/
def without (cycle cells : List Address) : List Address :=
  cells.filter fun a => !cycle.contains a

/-- Puts cells in order, after pinning the cycles among them. -/
def settle (g : Graph) (cycles : List (List Address)) (pending : List Address) : Plan :=
  match _h : g.topologicalOrder pending with
  | .ok order => ⟨cycles, order⟩
  | .error cycle => settle g (cycles ++ [cycle]) (without cycle pending)
termination_by pending.length
decreasing_by
  obtain ⟨a, rest, rfl, ha⟩ := exists_of_topologicalOrder_eq_error _h
  exact List.length_filter_lt_length_iff_exists.mpr ⟨a, ha, by simp⟩

/-- The plan after a change of a cell. -/
def planFor (g : Graph) (origin : Address) : Plan :=
  let cycles := (g.detectCycle origin).toList
  settle g cycles (without cycles.flatten (g.transitiveDependents origin))

end Graph

end Worksheet
