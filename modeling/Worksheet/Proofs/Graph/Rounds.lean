import Worksheet.Proofs.Graph.Plan
import Worksheet.Proofs.Graph.Traversal

/-!
# The rounds of a plan

The cells that depend on a changed cell are put in order in rounds. A round that fails has found a
cycle; its cells are pinned, none of the cells that are pinned by now stays pending, and the next round
tries the rest. Nothing in this says how many rounds there are. What bounds them is that a cycle is
never empty and consists of pending cells (`Graph.progress_of_topologicalOrder`), so each round that
fails leaves fewer of them.

The same fact keeps the pinned cells apart from the pending ones (`Round.Clean`), and that in turn is
why it does not matter whether the cells of the last cycle are taken from the pending ones or all cells
that have ever been pinned (`Round.pin_eq`). The rounds here take all of them, settling takes the last
cycle, and they come to the same plan (`Graph.exists_rounds`).

## Main definitions

* `Round`, `Round.pin` — what is pinned and what is pending, and the next round after a cycle
* `Round.Clean`, `Round.Progress` — the invariant of the rounds, and what each of them achieves
* `Graph.Rounds` — rounds that follow one another until one succeeds

## Main results

* `Graph.Rounds.forall_clean`, `Graph.Rounds.length_le` — the invariant, and the number of rounds
* `Graph.exists_rounds` — settling goes through such rounds
* `Graph.loops_end` — the headline: every loop that a change sets going comes to an end
-/

namespace Worksheet

/-- A round: the cycles that have been pinned before it, in the order in which they were found, and the
cells that it has to put in order. -/
structure Round where
  cycles : List (List Address)
  pending : List Address

variable {g : Graph} {r : Round} {later : List Round} {plan : Plan} {cycle : List Address}

namespace Round

open Worksheet.Graph (without mem_without)

/-- The cells that have been pinned before a round. -/
def pinned (r : Round) : List Address := r.cycles.flatten

/-- The next round, after the cells of a cycle have been pinned. No cell that has been pinned by now is
pending in it. -/
def pin (r : Round) (cycle : List Address) : Round :=
  ⟨r.cycles ++ [cycle], without (r.pinned ++ cycle) r.pending⟩

theorem pinned_pin (r : Round) (cycle : List Address) : (r.pin cycle).pinned = r.pinned ++ cycle := by
  simp [pinned, pin]

/-- No cell has been pinned twice, and none that has been pinned is pending. -/
structure Clean (r : Round) : Prop where
  nodup : r.pinned.Nodup
  disjoint : r.pinned.Disjoint r.pending

theorem clean_start (pending : List Address) : Clean ⟨[], pending⟩ where
  nodup := List.nodup_nil
  disjoint := List.disjoint_nil_left _

/-- Cells that are pinned for the first time can be pinned. -/
theorem Clean.pin (h : r.Clean) (hcycle : cycle.Nodup) (hnew : r.pinned.Disjoint cycle) :
    (r.pin cycle).Clean where
  nodup := by
    rw [pinned_pin]
    exact h.nodup.append hcycle hnew
  disjoint a hpinned hpending := by
    rw [pinned_pin] at hpinned
    exact (mem_without.mp hpending).2 hpinned

/-- **Only the last cycle has to be taken out**, since what was pinned before is not pending. -/
theorem Clean.pin_eq (h : r.Clean) (cycle : List Address) :
    r.pin cycle = ⟨r.cycles ++ [cycle], without cycle r.pending⟩ := by
  have hwithout : without (r.pinned ++ cycle) r.pending = without cycle r.pending := by
    refine List.filter_congr fun a ha => ?_
    have hnot : a ∉ r.pinned := fun hpinned => h.disjoint hpinned ha
    simp [hnot]
  rw [Round.pin, hwithout]

/-- The cycle has a cell, none of them twice, and all of them are pending; when it has been pinned,
fewer cells are. -/
structure Progress (r : Round) (cycle : List Address) : Prop where
  ne_nil : cycle ≠ []
  nodup : cycle.Nodup
  mem : ∀ a ∈ cycle, a ∈ r.pending
  sublist : (r.pin cycle).pending.Sublist r.pending
  length_lt : (r.pin cycle).pending.length < r.pending.length

theorem Progress.clean (h : r.Progress cycle) (hr : r.Clean) : (r.pin cycle).Clean :=
  hr.pin h.nodup fun _ hpinned hcycle => hr.disjoint hpinned (h.mem _ hcycle)

end Round

namespace Graph

/-- **A round that fails makes progress.** -/
theorem progress_of_topologicalOrder (h : g.topologicalOrder r.pending = .error cycle) :
    r.Progress cycle := by
  have hcycle := isSimpleCycleWithin_of_topologicalOrder h
  have hmem : ∀ a ∈ cycle, a ∈ r.pending := fun a ha => (hcycle.mem a ha).1
  obtain ⟨a, ha⟩ := List.exists_mem_of_ne_nil cycle hcycle.isCycle.ne_nil
  exact {
    ne_nil := hcycle.isCycle.ne_nil
    nodup := hcycle.nodup
    mem := hmem
    sublist := List.filter_sublist
    length_lt := List.length_filter_lt_length_iff_exists.mpr ⟨a, hmem a ha, by simp [ha]⟩ }

/-- Rounds that follow one another until one succeeds, and the plan that they come to. The list has
the rounds after the first one. -/
inductive Rounds (g : Graph) : Round → List Round → Plan → Prop
  | sorted {r : Round} {order : List Address} (h : g.topologicalOrder r.pending = .ok order) :
      Rounds g r [] ⟨r.cycles, order⟩
  | retry {r : Round} {cycle : List Address} {later : List Round} {plan : Plan}
      (h : g.topologicalOrder r.pending = .error cycle) (hlater : Rounds g (r.pin cycle) later plan) :
      Rounds g r (r.pin cycle :: later) plan

/-- All rounds are clean if the first one is. -/
theorem Rounds.forall_clean (h : g.Rounds r later plan) (hr : r.Clean) :
    ∀ q ∈ r :: later, q.Clean := by
  induction h with
  | sorted _ => exact List.forall_mem_singleton.mpr hr
  | retry h _ ih =>
    exact List.forall_mem_cons.mpr ⟨hr, ih ((progress_of_topologicalOrder h).clean hr)⟩

/-- There are no more retries than cells that were pending at first. -/
theorem Rounds.length_le (h : g.Rounds r later plan) : later.length ≤ r.pending.length := by
  induction h with
  | sorted _ => exact Nat.zero_le _
  | retry h _ ih => exact Nat.lt_of_le_of_lt ih (progress_of_topologicalOrder h).length_lt

/-- **Settling goes through rounds** until one of them succeeds. -/
theorem exists_rounds (h : r.Clean) :
    ∃ later, g.Rounds r later (g.settle r.cycles r.pending) := by
  obtain ⟨cycles, pending⟩ := r
  change ∃ later, g.Rounds ⟨cycles, pending⟩ later (g.settle cycles pending)
  fun_induction g.settle cycles pending with
  | case1 cycles pending order horder => exact ⟨[], .sorted horder⟩
  | case2 cycles pending cycle hcycle ih =>
    have hnext := (progress_of_topologicalOrder (r := ⟨cycles, pending⟩) hcycle).clean h
    rw [h.pin_eq] at hnext
    obtain ⟨later, hlater⟩ := ih hnext
    rw [← h.pin_eq cycle] at hlater
    exact ⟨_, .retry hcycle hlater⟩

/-- The first round after a change of a cell. What depends on the cell is pending, apart from a cycle
that can be reached from the cell and is pinned beforehand. -/
def firstRound (g : Graph) (origin : Address) : Round :=
  match g.detectCycle origin with
  | some cycle => Round.pin ⟨[], g.transitiveDependents origin⟩ cycle
  | none => ⟨[], g.transitiveDependents origin⟩

theorem clean_firstRound (g : Graph) (origin : Address) : (g.firstRound origin).Clean := by
  unfold firstRound
  split
  · rename_i cycle hcycle
    exact (Round.clean_start _).pin (nodup_of_detectCycle hcycle) (List.disjoint_nil_left _)
  · exact Round.clean_start _

theorem planFor_eq_settle (g : Graph) (origin : Address) :
    g.planFor origin = g.settle (g.firstRound origin).cycles (g.firstRound origin).pending := by
  cases hcycle : g.detectCycle origin with
  | none => simp [planFor, firstRound, hcycle, without]
  | some cycle => simp [planFor, firstRound, hcycle, Round.pin, Round.pinned]

/-- **Every loop that a change sets going comes to an end**, in every graph and for every cell.

* The plan for the change is made in rounds, the last of which succeeds. There are no more retries than
  cells that were pending at first. In no round has a cell been pinned twice, and none that has been
  pinned is pending. A round that fails reports a cycle of pending cells, which is not empty, and
  leaves fewer of them.
* The search for a cycle puts no cell on its path twice and looks at no edge twice, and all edges that
  it looks at are stored in the graph. So its loop takes no more turns than there are edges and cells
  that depend on the changed one, itself included.
* The same holds for the search that puts cells in order, whichever cells these are. -/
theorem loops_end (g : Graph) (origin : Address) :
    (∃ later, g.Rounds (g.firstRound origin) later (g.planFor origin) ∧
      later.length ≤ (g.firstRound origin).pending.length ∧
      ∀ r ∈ g.firstRound origin :: later, r.Clean ∧
        ∀ cycle, g.topologicalOrder r.pending = .error cycle → r.Progress cycle) ∧
    (∃ done result, Search.Completes g (fun _ => true) [origin] done result ∧
      Search.outcome result = g.detectCycle origin ∧ Search.Frugal g done ∧
      Search.turns done ≤ g.edgeCount + (origin :: g.transitiveDependents origin).length) ∧
    ∀ cells, ∃ done result,
      Search.Completes g (.ofList (cells.filter g.grid.contains) : AddressSet).contains
        (cells.filter g.grid.contains) done result ∧
      result.map Search.finished = g.topologicalOrder cells ∧ Search.Frugal g done ∧
      Search.turns done ≤ g.edgeCount + cells.length := by
  refine ⟨?_, g.exists_completes_detectCycle origin, g.exists_completes_topologicalOrder⟩
  have hclean := g.clean_firstRound origin
  obtain ⟨later, hrounds⟩ := exists_rounds (g := g) hclean
  rw [← planFor_eq_settle] at hrounds
  exact ⟨later, hrounds, hrounds.length_le,
    fun r hr => ⟨hrounds.forall_clean hclean r hr, fun _ => progress_of_topologicalOrder⟩⟩

end Graph

end Worksheet
