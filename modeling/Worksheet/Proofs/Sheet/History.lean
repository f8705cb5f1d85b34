import Worksheet.Proofs.Sheet.Texts

/-!
# A sheet has no history

What a sheet shows depends on the texts that its cells hold now, and not on the edits by which they
came to hold them (`Sheet.same_run`). This is so for sheets with cycles too. Which cells are pinned
could have depended on where a search had started; but the sheet is settled, so the pinned cells are
those that are taken out when the graph is cleared of rings, and these are determined by the graph
(`Clears.unique`).

The rest is a walk along the edges. A cell that is not pinned holds what its formula makes of the
cells that it reads, and where nothing is endless one can go from the cells that are read to those
that read them. The walk is the one that shows texts to be invisible (`Sheet.Settled.cell?_eq_of_alike`),
with inputs that do not differ at all.

## Main definitions

* `Sheet.Same` — two sheets that have everything in common

## Main results

* `Sheet.Settled.cell?_eq` — settled sheets with the same inputs keep the same cells
* `Sheet.same_run` — the edits do not matter beyond the inputs that they leave
-/

namespace Worksheet

namespace Sheet

variable {s t : Sheet} {a : Address} {P Q : Set Address}

/-- The sheets keep the same cells, with the same inputs, formulas and values, and their graphs have
the same edges. -/
structure Same (s t : Sheet) : Prop where
  grid : s.grid = t.grid
  occupied : s.occupied = t.occupied
  cell? : ∀ a, s.cell? a = t.cell? a
  dependentsOf : ∀ a, s.graph.dependentsOf a = t.graph.dependentsOf a
  precedentsOf : ∀ a, s.graph.precedentsOf a = t.graph.precedentsOf a

theorem occupied_congr (h : ∀ a, s.cell? a = t.cell? a) : s.occupied = t.occupied :=
  Std.TreeMap.Equiv.toList_eq (.of_forall_constGet?_eq h)

section Inputs

variable (hs : s.Stored) (ht : t.Stored) (hgrid : s.grid = t.grid)
  (hinput : ∀ a, s.grid.contains a = true → s.inputOf a = t.inputOf a)

include hs ht hgrid hinput

theorem Stored.feeds_congr (a b : Address) : s.graph.Feeds a b ↔ t.graph.Feeds a b :=
  hs.feeds_iff_of_alike ht hgrid (fun a ha => .inl (hinput a ha)) a b

/-- The cells that are pinned are the same. -/
theorem Settled.pinned_eq (hP : s.Settled P) (hQ : t.Settled Q) : P = Q :=
  hP.pinned_eq_of_alike hs ht hgrid (fun a ha => .inl (hinput a ha)) hQ

/-- **Settled sheets with the same inputs keep the same cells.** -/
theorem Settled.cell?_eq (hP : s.Settled P) (hQ : t.Settled P) (a : Address) :
    s.cell? a = t.cell? a := by
  refine hP.cell?_eq_of_alike hs ht hgrid (fun a ha => .inl (hinput a ha)) hQ a ?_
  by_cases ha : s.grid.contains a = true
  · exact hinput a ha
  · rw [hs.inputOf_eq_of_not_contains ha, ht.inputOf_eq_of_not_contains (hgrid ▸ ha)]

end Inputs

/-- **A sheet has no history.** If two sequences of edits leave the same inputs in the cells of the
grid, they leave the same sheet, with or without cycles. -/
theorem same_run (grid : Grid) (edits edits' : List Edit)
    (h : ∀ a, grid.contains a = true → (run grid edits).inputOf a = (run grid edits').inputOf a) :
    Same (run grid edits) (run grid edits') := by
  have hs := stored_run grid edits
  have ht := stored_run grid edits'
  obtain ⟨P, hP⟩ := exists_settled_run grid edits
  obtain ⟨Q, hQ⟩ := exists_settled_run grid edits'
  have hgrid : (run grid edits).grid = (run grid edits').grid := by rw [grid_run, grid_run]
  have hinput : ∀ a, (run grid edits).grid.contains a = true →
      (run grid edits).inputOf a = (run grid edits').inputOf a := by rwa [grid_run]
  obtain rfl : P = Q := hP.pinned_eq hs ht hgrid hinput hQ
  have hcells := hP.cell?_eq hs ht hgrid hinput hQ
  have hfeeds := hs.feeds_congr ht hgrid hinput
  exact {
    grid := hgrid
    occupied := occupied_congr hcells
    cell? := hcells
    dependentsOf := Graph.dependentsOf_congr hfeeds
    precedentsOf := hs.coherent.precedentsOf_congr ht.coherent hfeeds }

theorem same_run_of_reordered_cycle :
    (∀ a, Grid.standard.contains a = true →
      (run .standard [.write ⟨0, 0⟩ "=B1", .write ⟨0, 1⟩ "=A1"]).inputOf a =
        (run .standard [.write ⟨0, 1⟩ "=A1", .write ⟨0, 0⟩ "2", .write ⟨0, 0⟩ "=B1"]).inputOf a) ∧
      Same (run .standard [.write ⟨0, 0⟩ "=B1", .write ⟨0, 1⟩ "=A1"])
        (run .standard [.write ⟨0, 1⟩ "=A1", .write ⟨0, 0⟩ "2", .write ⟨0, 0⟩ "=B1"]) := by
  have hinput : ∀ a, Grid.standard.contains a = true →
      (run .standard [.write ⟨0, 0⟩ "=B1", .write ⟨0, 1⟩ "=A1"]).inputOf a =
        (run .standard
          [.write ⟨0, 1⟩ "=A1", .write ⟨0, 0⟩ "2", .write ⟨0, 0⟩ "=B1"]).inputOf a := by
    intro a _
    have hleft : (run .standard [.write ⟨0, 0⟩ "=B1", .write ⟨0, 1⟩ "=A1"]).inputOf a =
        if a = ⟨0, 1⟩ then "=A1" else if a = ⟨0, 0⟩ then "=B1" else "" := by
      refine (inputOf_run_write [_] rfl "=A1" a).trans (if_congr Iff.rfl rfl ?_)
      exact inputOf_run_write [] rfl "=B1" a
    have hright : (run .standard [.write ⟨0, 1⟩ "=A1", .write ⟨0, 0⟩ "2",
        .write ⟨0, 0⟩ "=B1"]).inputOf a = if a = ⟨0, 0⟩ then "=B1" else
          if a = ⟨0, 0⟩ then "2" else if a = ⟨0, 1⟩ then "=A1" else "" := by
      refine (inputOf_run_write [_, _] rfl "=B1" a).trans (if_congr Iff.rfl rfl ?_)
      refine (inputOf_run_write [_] rfl "2" a).trans (if_congr Iff.rfl rfl ?_)
      exact inputOf_run_write [] rfl "=A1" a
    rw [hleft, hright]
    by_cases hfirst : a = ⟨0, 0⟩
    · rw [if_pos hfirst, hfirst]
      decide
    · rw [if_neg hfirst, if_neg hfirst, if_neg hfirst]
  exact ⟨hinput, same_run .standard _ _ hinput⟩

end Sheet

end Worksheet
