import Worksheet.Proofs.Graph.Detection
import Worksheet.Proofs.Sheet.Locality

/-!
# What the log is told

The log is told of the cycles that edits lead into, and of nothing else. It could also be told of edges
that are not recorded, but a formula that has been accepted reads cells of the grid only, so all its
edges are (`Sheet.Stored.warnings_write`).

A plan pins the first cycle that it finds and then others, for as long as it finds some. That it finds
none at all is a matter of the first search. If that comes to nothing, then no cycle can be reached
from the changed cell, and those that would be found later could be (`Graph.cycles_planFor_eq_nil_iff`).

## Main definitions

* `Sheet.warnings` — what the log is told in the course of edits

## Main results

* `Graph.cycles_planFor_eq_nil_iff` — when a plan pins nothing
* `Graph.isSimpleCycleWithin_of_mem_cycles` — what a plan pins
* `Sheet.warnings_eq_nil_iff` — when the log is told nothing
-/

namespace Worksheet

open Relation (ReflTransGen TransGen)

/-! ### The cycles of a plan -/

namespace Graph

variable {g : Graph} {a : Address} {cycle pending : List Address} {cycles : List (List Address)}

theorem mem_of_mem_without {b : Address} (h : b ∈ without cycle pending) : b ∈ pending :=
  (mem_without.mp h).1

/-- A cycle among cells that can be reached. -/
theorem isSimpleCycleWithin_reached (h : g.topologicalOrder pending = .error cycle)
    (hpending : ∀ b ∈ pending, TransGen g.Feeds a b) :
    g.IsSimpleCycleWithin {b | ReflTransGen g.Feeds a b} cycle where
  isCycle := (isSimpleCycleWithin_of_topologicalOrder h).isCycle
  nodup := (isSimpleCycleWithin_of_topologicalOrder h).nodup
  mem b hb :=
    (hpending b ((isSimpleCycleWithin_of_topologicalOrder h).mem b hb).1).to_reflTransGen

theorem isSimpleCycleWithin_of_mem_settle (hpending : ∀ b ∈ pending, TransGen g.Feeds a b)
    (hcycles : ∀ c ∈ cycles, g.IsSimpleCycleWithin {b | ReflTransGen g.Feeds a b} c) :
    ∀ c ∈ (g.settle cycles pending).cycles,
      g.IsSimpleCycleWithin {b | ReflTransGen g.Feeds a b} c := by
  fun_induction g.settle cycles pending with
  | case1 cycles pending order horder => exact hcycles
  | case2 cycles pending cycle hcycle ih =>
    refine ih (fun b hb => hpending b (mem_of_mem_without hb)) fun c hc => ?_
    rcases List.mem_append.mp hc with hc | hc
    · exact hcycles c hc
    · obtain rfl := List.mem_singleton.mp hc
      exact isSimpleCycleWithin_reached hcycle hpending

/-- **What a plan pins** are directed cycles of distinct cells, all of which can be reached from the
changed cell. -/
theorem isSimpleCycleWithin_of_mem_cycles (h : cycle ∈ (g.planFor a).cycles) :
    g.IsSimpleCycleWithin {b | ReflTransGen g.Feeds a b} cycle := by
  refine isSimpleCycleWithin_of_mem_settle (fun b hb => ?_) (fun c hc => ?_) cycle h
  · exact mem_transitiveDependents.mp (mem_of_mem_without hb)
  · exact isSimpleCycleWithin_of_detectCycle (Option.mem_toList.mp hc)

theorem IsSimpleCycleWithin.reachesCycle
    (h : g.IsSimpleCycleWithin {b | ReflTransGen g.Feeds a b} cycle) : g.ReachesCycle a := by
  obtain ⟨b, hb⟩ := List.exists_mem_of_ne_nil cycle h.isCycle.ne_nil
  exact ⟨b, h.mem b hb, cycle, h.isCycle, hb⟩

/-- What has been pinned stays pinned. -/
theorem mem_cycles_settle (h : cycle ∈ cycles) : cycle ∈ (g.settle cycles pending).cycles := by
  fun_induction g.settle cycles pending with
  | case1 cycles pending order horder => exact h
  | case2 cycles pending found hfound ih => exact ih (List.mem_append_left _ h)

/-- **A plan pins nothing** just if the changed cell does not lead into a cycle. -/
theorem cycles_planFor_eq_nil_iff : (g.planFor a).cycles = [] ↔ ¬ g.ReachesCycle a := by
  constructor
  · intro hnil hreach
    obtain ⟨cycle, hcycle⟩ := exists_detectCycle_iff.mpr hreach
    have hmem : cycle ∈ (g.planFor a).cycles := by
      refine mem_cycles_settle ?_
      rw [hcycle]
      exact List.mem_singleton_self cycle
    rw [hnil] at hmem
    cases hmem
  · intro hnot
    refine List.eq_nil_iff_forall_not_mem.mpr fun cycle hcycle => hnot ?_
    exact (isSimpleCycleWithin_of_mem_cycles hcycle).reachesCycle

end Graph

namespace Sheet

variable {s : Sheet} {a : Address} {edit : Edit} {warning : Warning}

/-! ### The warnings of an edit -/

/-- Typing a text into a cell of the grid tells the log of the cycles that are pinned. -/
theorem Stored.warnings_write (h : s.Stored) (ha : s.grid.contains a = true) (input : String) :
    (s.write a input).warnings = ((s.replace a input).graph.planFor a).cycles.map .circular := by
  have hstored : (s.replace a input).Stored := h.replace ha input
  have hgrid : (s.replace a input).graph.grid = s.grid := grid_replace s a input
  have hnone : (s.replace a input).graph.ignoredEdges a
      ((s.replace a input).dependenciesOf a) = [] := by
    refine Graph.ignoredEdges_eq_nil (by rwa [hgrid]) fun p hp => ?_
    rw [hstored.dependenciesOf_eq] at hp
    exact Cell.contains_of_mem_dependsOn_ofInput hp
  rw [write_of_contains ha, warningsFor, hnone, List.nil_append]

/-- The edit is of a cell of the grid, and the cell leads into a cycle afterwards. -/
def LeadsIntoCycle (s : Sheet) (edit : Edit) : Prop :=
  ∃ a, edit.address? s.grid = some a ∧ s.grid.contains a = true ∧
    (s.after edit).graph.ReachesCycle a

/-- What the log is told of an edit is that cycles were found. They can be reached from the edited
cell. -/
theorem Stored.exists_of_mem_warnings_apply (h : s.Stored) (hw : warning ∈ (edit.apply s).warnings) :
    ∃ a cycle, edit.address? s.grid = some a ∧ s.grid.contains a = true ∧
      warning = .circular cycle ∧ (s.after edit).graph.IsSimpleCycleWithin
        {b | ReflTransGen (s.after edit).graph.Feeds a b} cycle := by
  rcases s.apply_eq_or_refused edit with ⟨a, haddress, ha, heq⟩ | ⟨f, -, heq⟩
  · rw [heq, h.warnings_write ha] at hw
    obtain ⟨cycle, hcycle, rfl⟩ := List.mem_map.mp hw
    refine ⟨a, cycle, haddress, ha, rfl, ?_⟩
    rw [after, heq, write_of_contains ha]
    exact Graph.isSimpleCycleWithin_of_mem_cycles hcycle
  · rw [heq] at hw
    cases hw

/-- The log is told of an edit just if the edit leads into a cycle. -/
theorem Stored.warnings_apply_eq_nil_iff (h : s.Stored) :
    (edit.apply s).warnings = [] ↔ ¬ s.LeadsIntoCycle edit := by
  constructor
  · rintro hnil ⟨a, haddress, ha, hreach⟩
    rw [after, apply_of_address? haddress, write_of_contains ha] at hreach
    rw [apply_of_address? haddress, h.warnings_write ha, List.map_eq_nil_iff,
      Graph.cycles_planFor_eq_nil_iff] at hnil
    exact hnil hreach
  · intro hnot
    refine List.eq_nil_iff_forall_not_mem.mpr fun warning hw => hnot ?_
    obtain ⟨a, cycle, haddress, ha, -, hcycle⟩ := h.exists_of_mem_warnings_apply hw
    exact ⟨a, haddress, ha, hcycle.reachesCycle⟩

/-! ### The warnings of a run -/

/-- What the log is told in the course of edits, one after the other. -/
def warnings (s : Sheet) : List Edit → List Warning
  | [] => []
  | edit :: edits => (edit.apply s).warnings ++ (s.after edit).warnings edits

theorem mem_warnings_iff {edits : List Edit} : warning ∈ s.warnings edits ↔
    ∃ done edit rest, edits = done ++ edit :: rest ∧
      warning ∈ (edit.apply (done.foldl after s)).warnings := by
  induction edits generalizing s with
  | nil => simp [warnings]
  | cons first edits ih =>
    rw [warnings, List.mem_append, ih]
    constructor
    · rintro (hw | ⟨done, edit, rest, rfl, hw⟩)
      · exact ⟨[], first, edits, rfl, hw⟩
      · exact ⟨first :: done, edit, rest, rfl, hw⟩
    · rintro ⟨done, edit, rest, heq, hw⟩
      cases done with
      | nil =>
        cases heq
        exact .inl hw
      | cons _ done =>
        cases heq
        exact .inr ⟨done, edit, rest, rfl, hw⟩

/-- **The log is told nothing** in the course of edits just if none of them leads into a cycle. -/
theorem warnings_eq_nil_iff (grid : Grid) (edits : List Edit) : (empty grid).warnings edits = [] ↔
    ∀ done edit rest, edits = done ++ edit :: rest → ¬ (run grid done).LeadsIntoCycle edit := by
  simp only [List.eq_nil_iff_forall_not_mem, mem_warnings_iff,
    ← (stored_run grid _).warnings_apply_eq_nil_iff]
  constructor
  · intro hnone done edit rest heq warning hw
    exact hnone warning ⟨done, edit, rest, heq, hw⟩
  · rintro hnone warning ⟨done, edit, rest, heq, hw⟩
    exact hnone done edit rest heq warning hw

end Sheet

end Worksheet
