import Worksheet.Graph.Basic

/-!
# Cells that depend on a cell

The dependents of a cell, their dependents, and so on, are the cells that a change may affect. They
are found by a walk that keeps the cells still to be visited on a stack: it visits the cell on top,
and puts those dependents on the stack that it has not come across before.

Each cell is reported when it is come across. The dependents of one cell are reported in the reverse
of reading order and visited in reading order. The cell that the walk starts from is reported only if
it depends on itself.

## Main definitions

* `Graph.transitiveDependents`.
-/

namespace Worksheet.Graph

/-- The dependents of a cell that are not among the cells come across before. -/
def freshDependents (g : Graph) (seen : AddressSet) (a : Address) : List Address :=
  (g.dependentsOf a).filter fun b => !seen.contains b

/-- The number of targets that have not been come across. -/
def unseenCount (g : Graph) (seen : AddressSet) : Nat :=
  (g.targets.filter fun b => !seen.contains b).length

theorem nodup_freshDependents (g : Graph) (seen : AddressSet) (a : Address) :
    (g.freshDependents seen a).Nodup :=
  (Address.nodup_of_pairwise_lt (pairwise_cellsOf g.grid _)).filter _

/-- Taking distinct members out of a list leaves at least as many fewer. -/
theorem length_filter_add_length_le {taken cells : List Address} (hnodup : taken.Nodup)
    (hmem : ∀ b ∈ taken, b ∈ cells) :
    (cells.filter fun c => !taken.contains c).length + taken.length ≤ cells.length := by
  induction taken generalizing cells with
  | nil => exact List.length_filter_le _ _
  | cons b taken ih =>
    obtain ⟨hb, hrest⟩ := List.nodup_cons.mp hnodup
    have hle := @ih (cells.filter (· != b)) hrest fun c hc => by
      refine List.mem_filter.mpr ⟨hmem c (List.mem_cons_of_mem b hc), ?_⟩
      exact bne_iff_ne.mpr fun heq => hb (heq ▸ hc)
    have hlt : (cells.filter (· != b)).length < cells.length :=
      List.length_filter_lt_length_iff_exists.mpr ⟨b, hmem b List.mem_cons_self, by simp⟩
    have hsplit : (cells.filter fun c => !(b :: taken).contains c) =
        (cells.filter (· != b)).filter fun c => !taken.contains c := by
      rw [List.filter_filter]
      congr 1
      funext c
      rw [List.contains_cons, Bool.not_or, Bool.and_comm]
      rfl
    rw [hsplit, List.length_cons]
    omega

/-- Coming across fresh dependents leaves as many fewer targets unseen. -/
theorem unseenCount_insertMany_add_length_le (g : Graph) (seen : AddressSet) (a : Address) :
    g.unseenCount (seen.insertMany (g.freshDependents seen a)) +
      (g.freshDependents seen a).length ≤ g.unseenCount seen := by
  have hmem : ∀ b ∈ g.freshDependents seen a, b ∈ g.targets.filter fun c => !seen.contains c := by
    intro b hb
    obtain ⟨hdependent, hunseen⟩ := List.mem_filter.mp hb
    exact List.mem_filter.mpr ⟨mem_targets_of_mem_dependentsOf hdependent, hunseen⟩
  have hle := length_filter_add_length_le (nodup_freshDependents g seen a) hmem
  rw [List.filter_filter] at hle
  simp only [unseenCount, Std.TreeSet.contains_insertMany_list, Bool.not_or]
  simpa only [Bool.and_comm] using hle

/-- Visits the cells of a stack. The cells that were come across are carried along, the last one
first, and again as a set. -/
def visit (g : Graph) : List Address → AddressSet → List Address → List Address
  | [], _, latest => latest
  | a :: stack, seen, latest =>
    let fresh := g.freshDependents seen a
    visit g (fresh ++ stack) (seen.insertMany fresh) (fresh ++ latest)
termination_by stack seen => g.unseenCount seen + stack.length
decreasing_by
  have := unseenCount_insertMany_add_length_le g seen a
  simp only [List.length_append, List.length_cons]
  omega

/-- The cells that depend on a cell, directly or through others, each once, in the order in which
the walk comes across them. -/
def transitiveDependents (g : Graph) (a : Address) : List Address :=
  (visit g [a] ∅ []).reverse

end Worksheet.Graph
