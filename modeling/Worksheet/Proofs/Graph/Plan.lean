import Worksheet.Graph.Plan
import Worksheet.Proofs.Graph.Reach
import Worksheet.Proofs.Graph.Search

/-!
# What a plan pins, and what it orders

A plan pins the cycle that a first search comes upon, and then one cycle after another for as long
as the rest cannot be put in order. Each of them is a ring of the cells that were left at the time,
so what is pinned in the end is what clearing takes out of the cells that depend on the changed one
(`Graph.settles_planFor`). What can be put in order has no ring any more.

The first search is the odd one out. It looks at the whole graph from the changed cell, which need
not be among the cells that depend on it. But a cycle that can be reached from the changed cell
consists of such cells, and a ring stays a ring in a smaller scope.

## Main definitions

* `Graph.Settles` — a plan clears a set of cells and orders the rest of it
* `Graph.Pinned` — a cell that is taken out when the whole graph is cleared

## Main results

* `Graph.settles_settle` — settling goes on from what was pinned before
* `Graph.settles_planFor` — the plan after a change of a cell
-/

namespace Worksheet

open Relation (ReflTransGen TransGen)

namespace Graph

variable {g : Graph} {a origin : Address} {cycles : List (List Address)} {pending cycle : List Address}
  {plan : Plan} {R P : Set Address}

/-- The plan pins what clearing takes out of `R`, and puts the rest of `R` in order. -/
structure Settles (g : Graph) (R : Set Address) (plan : Plan) : Prop where
  clears : Clears g.Feeds R {a | a ∈ plan.pinned}
  nodup : plan.order.Nodup
  ordered : Ordered g.Feeds (R \ {a | a ∈ plan.pinned}) plan.order
  mem_order_iff : ∀ a, a ∈ plan.order ↔ a ∈ R \ {a | a ∈ plan.pinned}

theorem mem_without : a ∈ without cycle pending ↔ a ∈ pending ∧ a ∉ cycle := by
  rw [without, List.mem_filter, Bool.not_eq_true', ← Bool.not_eq_true, List.contains_iff_mem]

/-- Settling goes on from cycles that were pinned before, as long as they can be taken out first. -/
theorem settles_settle (hgrid : ∀ a ∈ R, g.grid.contains a = true)
    (hpending : ∀ a, a ∈ pending ↔ a ∈ R \ {a | a ∈ cycles.flatten})
    (hfirst : ∀ P, Clears g.Feeds {a | a ∈ pending} P →
      Clears g.Feeds R ({a | a ∈ cycles.flatten} ∪ P)) :
    g.Settles R (g.settle cycles pending) := by
  fun_induction g.settle cycles pending with
  | case1 cycles pending order horder =>
    have hscope : {a | a ∈ pending ∧ g.grid.contains a = true} = R \ {a | a ∈ cycles.flatten} := by
      ext a
      rw [← hpending]
      exact and_iff_left_of_imp fun ha => hgrid a ((hpending a).mp ha).1
    obtain ⟨hnodup, hordered, hmem⟩ := ordered_of_topologicalOrder horder
    have hmem' : ∀ a, a ∈ order ↔ a ∈ R \ {a | a ∈ cycles.flatten} := fun a =>
      (hmem a).trans (Set.ext_iff.mp hscope a)
    rw [hscope] at hordered
    refine ⟨?_, hnodup, hordered, hmem'⟩
    have hset : {a | a ∈ pending} = R \ {a | a ∈ cycles.flatten} := by
      ext a
      exact hpending a
    have hdone : Clears g.Feeds {a | a ∈ pending} ∅ := by
      rw [hset]
      exact .done fun a ha => hordered.not_endless ((hmem' a).mpr ha.mem) ha
    have hpinned := hfirst ∅ hdone
    rwa [Set.union_empty] at hpinned
  | case2 cycles pending cycle hcycle ih =>
    have hscope : {a | a ∈ pending ∧ g.grid.contains a = true} = {a | a ∈ pending} := by
      ext a
      exact and_iff_left_of_imp fun ha => hgrid a ((hpending a).mp ha).1
    have hring := isRing_of_closedChain (closedChain_of_topologicalOrder hcycle)
    rw [hscope] at hring
    have hpinned : {a | a ∈ (cycles ++ [cycle]).flatten} =
        {a | a ∈ cycles.flatten} ∪ {a | a ∈ cycle} := by
      ext a
      rw [List.flatten_append, List.flatten_singleton]
      exact List.mem_append
    have hwithout : {a | a ∈ without cycle pending} = {a | a ∈ pending} \ {a | a ∈ cycle} := by
      ext a
      exact mem_without
    refine ih ?_ ?_
    · intro a
      rw [mem_without, hpending, hpinned, ← Set.sdiff_sdiff]
      rfl
    · intro P hP
      rw [hpinned, Set.union_assoc]
      rw [hwithout] at hP
      exact hfirst _ (.ring hring hP)

/-- The cycle that is found first is a ring of the cells that depend on the changed cell. -/
theorem isRing_of_detectCycle (h : g.detectCycle origin = some cycle) :
    IsRing g.Feeds {a | TransGen g.Feeds origin a} {a | a ∈ cycle} := by
  have hring := isRing_of_closedChain (closedChain_of_detectCycle h)
  refine hring.restrict ?_ fun a ha => TransGen.to_reflTransGen ha
  intro a ha
  have hreach : ReflTransGen g.Feeds origin a := hring.subset ha
  exact TransGen.trans_right hreach (hring.transGen ha)

/-- **The plan after a change** clears the cells that depend on the changed cell, and orders those
that are left of them. -/
theorem settles_planFor (hg : g.Coherent) (origin : Address) :
    g.Settles {a | TransGen g.Feeds origin a} (g.planFor origin) := by
  have hgrid : ∀ a ∈ {a | TransGen g.Feeds origin a}, g.grid.contains a = true := by
    intro a ha
    obtain ⟨b, -, hba⟩ := TransGen.tail'_iff.mp ha
    exact (hg.inside b a hba).2
  have hpending : ∀ cycle, {a | a ∈ without cycle (g.transitiveDependents origin)} =
      {a | TransGen g.Feeds origin a} \ {a | a ∈ cycle} := by
    intro cycle
    ext a
    exact mem_without.trans (and_congr_left' mem_transitiveDependents)
  refine settles_settle hgrid (Set.ext_iff.mp (hpending _)) ?_
  intro P hP
  rw [hpending] at hP
  cases hfound : g.detectCycle origin with
  | none => simpa [hfound] using hP
  | some cycle =>
    have hpinned : (some cycle).toList.flatten = cycle := List.flatten_singleton
    rw [hfound, hpinned] at hP
    rw [hpinned]
    exact .ring (isRing_of_detectCycle hfound) hP

/-! ### Pinned cells -/

/-- The cell is taken out when the whole graph is cleared. -/
def Pinned (g : Graph) (a : Address) : Prop := ∃ P, Clears g.Feeds Set.univ P ∧ a ∈ P

theorem pinned_iff (hP : Clears g.Feeds Set.univ P) : g.Pinned a ↔ a ∈ P := by
  constructor
  · rintro ⟨Q, hQ, ha⟩
    rwa [hP.unique hQ]
  · exact fun ha => ⟨P, hP, ha⟩

/-- Only cells on a cycle are pinned. -/
theorem Pinned.onCycle (h : g.Pinned a) : g.OnCycle a := by
  obtain ⟨P, hP, ha⟩ := h
  exact onCycle_iff.mpr (hP.transGen ha)

end Graph

end Worksheet
