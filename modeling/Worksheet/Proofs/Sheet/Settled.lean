import Worksheet.Proofs.Sheet.Edits

/-!
# The values of a sheet

The values of a sheet are settled if no cell shows anything but what its formula makes of the values
of the sheet as it is, except for the cells that are taken out when the graph is cleared of rings.
These show a circular reference.

An edit that is carried out keeps a sheet settled. Three sorts of cells have to be looked at. Those
that depend on the edited cell were pinned or computed among the final values, which is what a plan
is for. The edited cell itself was computed among the values before the edit, and cells that the
edit does not reach were computed long ago. Neither of these reads a cell that has been touched
since: if it did, it would depend on the edited cell. That the pinned cells are still those that are
taken out, although only a part of the graph was looked at, is `Clears.update`.

## Main definitions

* `Sheet.Settled` — the invariant of the values

## Main results

* `Sheet.Settled.write` — an edit keeps the values settled
* `Sheet.exists_settled_run` — the values of every sheet are settled
* `Sheet.value_current` — a formula cell holds the result of its formula, or shows a circular
  reference on a cycle
-/

namespace Worksheet

open Relation (ReflTransGen TransGen)

namespace Sheet

variable {s : Sheet} {a b x : Address} {input : String} {c : Cell} {P : Set Address}

/-- The invariant of the values: the cells of `P` are taken out when the graph is cleared, and show
a circular reference. Computing any other cell again makes no difference. -/
structure Settled (s : Sheet) (P : Set Address) : Prop where
  clears : Clears s.graph.Feeds Set.univ P
  pinned : ∀ a ∈ P, ∃ c, s.cell? a = some c ∧ c.value = .fault Cell.circularReference
  computed : ∀ a c, a ∉ P → s.cell? a = some c → c.recompute s.context = c

theorem settled_empty (grid : Grid) : (empty grid).Settled ∅ where
  clears := .done fun a ha => by
    obtain ⟨b, hab, -⟩ := ha.exists_feeds
    exact Graph.not_feeds_empty grid hab
  pinned a ha := absurd ha (Set.notMem_empty a)
  computed a c _ hc := by
    rw [cell?, empty, Std.TreeMap.getElem?_emptyc] at hc
    cases hc

/-- Outside the cells that are taken out, statements about cells can be proved by going from the
cells that are read to those that read them. -/
theorem Settled.wellFounded_within (hs : s.Settled P) :
    WellFounded (Within s.graph.Feeds (Set.univ \ P)) :=
  Worksheet.wellFounded_within (fun _ _ => Graph.mem_sources_or_targets) hs.clears.not_endless

/-! ### An edit -/

section Write

variable (h : s.Stored) (ha : s.grid.contains a = true)

include h ha

/-- Cells that cannot be reached from the edited one are not touched. -/
theorem Stored.cell?_write_of_not_reflTransGen
    (hx : ¬ ReflTransGen (s.replace a input).graph.Feeds a x) :
    ((s.replace a input).recalculate a).cell? x = s.cell? x := by
  have hne : x ≠ a := by
    rintro rfl
    exact hx .refl
  rw [(h.replace ha input).cell?_recalculate_of_not_transGen fun hax => hx hax.to_reflTransGen,
    cell?_replace_of_ne s input hne]

/-- A cell that does not depend on the edited one reads no cell that is touched. -/
theorem Stored.context_write_of_mem (hb : ¬ TransGen (s.replace a input).graph.Feeds a b)
    (hc : (s.replace a input).cell? b = some c) (hx : x ∈ c.dependsOn) :
    s.context x = ((s.replace a input).recalculate a).context x := by
  have ht := h.replace ha input
  refine CellTable.context_congr (h.cell?_write_of_not_reflTransGen ha fun hax => hb ?_).symm
  have hgrid : (s.replace a input).grid.contains x = true := by
    rcases Relation.reflTransGen_iff_eq_or_transGen.mp hax with rfl | hax
    · rwa [grid_replace]
    · obtain ⟨y, -, hyx⟩ := TransGen.tail'_iff.mp hax
      exact (ht.coherent.inside y x hyx).2
  exact TransGen.tail' hax (ht.feeds hc hx hgrid)

/-- **An edit keeps the values settled.** -/
theorem Settled.write (hs : s.Settled P) (input : String) :
    ∃ Q, ((s.replace a input).recalculate a).Settled Q := by
  have ht := h.replace ha input
  have hplan := ht.settles a
  have hclears := hs.clears.update hplan.clears fun x y hy => (h.feeds_replace hy).symm
  refine ⟨_, hclears, ?_, ?_⟩
  · rintro x (hx | ⟨hx, hreach⟩)
    · obtain ⟨y, -, hyx⟩ := TransGen.tail'_iff.mp (hplan.clears.subset hx)
      obtain ⟨c, hc, -⟩ := ht.exists_of_feeds hyx
      refine ⟨c.pin, ?_, rfl⟩
      rw [ht.cell?_recalculate_of_mem_pinned hx, hc, Option.map_some]
    · rw [h.cell?_write_of_not_reflTransGen ha hreach]
      exact hs.pinned x hx
  · intro b c hb hc
    rw [Set.mem_union, not_or] at hb
    obtain ⟨hpin, hkept⟩ := hb
    by_cases hreach : TransGen (s.replace a input).graph.Feeds a b
    · rw [ht.cell?_recalculate_of_transGen hreach hpin] at hc
      obtain ⟨d, -, rfl⟩ := Option.map_eq_some_iff.mp hc
      exact Cell.recompute_recompute _ _ d
    · rw [ht.cell?_recalculate_of_not_transGen hreach] at hc
      rw [← Cell.recompute_congr fun x hx => h.context_write_of_mem ha hreach hc hx]
      by_cases hba : b = a
      · rw [hba, cell?_replace_self] at hc
        split at hc
        · cases hc
        · cases hc
          exact Cell.recompute_recompute _ _ _
      · rw [cell?_replace_of_ne s input hba] at hc
        refine hs.computed b c (fun hbP => hkept ⟨hbP, fun hab => ?_⟩) hc
        rcases Relation.reflTransGen_iff_eq_or_transGen.mp hab with heq | hab
        · exact hba heq
        · exact hreach hab

end Write

/-- **Every sheet is settled**, whatever the edits that it comes from. -/
theorem exists_settled_run (grid : Grid) (edits : List Edit) : ∃ P, (run grid edits).Settled P := by
  have hboth : (run grid edits).Stored ∧ ∃ P, (run grid edits).Settled P := by
    refine run_induction (motive := fun s => s.Stored ∧ ∃ P, s.Settled P)
      ⟨stored_empty grid, ∅, settled_empty grid⟩ ?_ edits
    rintro s a input hgrid ha ⟨hs, P, hP⟩
    rw [← hgrid] at ha
    exact ⟨(hs.replace ha input).recalculate a, hP.write hs ha input⟩
  exact hboth.2

/-! ### What a formula cell holds -/

theorem Settled.value_eq {formula : Formula} (hs : s.Settled P) (ha : a ∉ P)
    (hc : s.cell? a = some c) (hformula : c.formula = some formula) :
    c.value = .ofResult (formula.evaluate s.context) := by
  have hself := congrArg Cell.value (hs.computed a c ha hc)
  simp only [Cell.recompute, hformula] at hself
  exact hself.symm

/-- **No value is stale.** A formula cell holds what its formula makes of the values of the sheet as
it is, or it is on a cycle and shows a circular reference. -/
theorem value_current (grid : Grid) (edits : List Edit) {a : Address} {c : Cell} {formula : Formula}
    (hc : (run grid edits).cell? a = some c) (hformula : c.formula = some formula) :
    c.value = .ofResult (formula.evaluate (run grid edits).context) ∨
      (run grid edits).graph.OnCycle a ∧
        c.value = .fault (.circular "Circular reference detected") := by
  obtain ⟨P, hP⟩ := exists_settled_run grid edits
  by_cases ha : a ∈ P
  · right
    obtain ⟨d, hd, hvalue⟩ := hP.pinned a ha
    cases hc.symm.trans hd
    exact ⟨Graph.onCycle_iff.mpr (hP.clears.transGen ha), hvalue⟩
  · exact .inl (hP.value_eq ha hc hformula)

theorem value_current_of_broken_cycle :
    let s := run .standard [.write ⟨0, 0⟩ "=B1+1", .write ⟨0, 1⟩ "=A1", .write ⟨0, 1⟩ "2"]
    ∃ c formula, s.cell? ⟨0, 0⟩ = some c ∧ c.formula = some formula ∧
      (c.value = .ofResult (formula.evaluate s.context) ∨ s.graph.OnCycle ⟨0, 0⟩ ∧
        c.value = .fault (.circular "Circular reference detected")) := by
  intro s
  have hinput : s.inputOf ⟨0, 0⟩ = "=B1+1" := calc
    s.inputOf ⟨0, 0⟩
      = (run .standard [.write ⟨0, 0⟩ "=B1+1", .write ⟨0, 1⟩ "=A1"]).inputOf ⟨0, 0⟩ :=
        inputOf_run_write_of_ne [_, _] rfl "2" (by decide)
    _ = (run .standard [.write ⟨0, 0⟩ "=B1+1"]).inputOf ⟨0, 0⟩ :=
        inputOf_run_write_of_ne [_] rfl "=A1" (by decide)
    _ = "=B1+1" := inputOf_run_write_self [] rfl "=B1+1"
  have hgrid : s.grid = .standard := grid_run .standard _
  have hne : s.inputOf ⟨0, 0⟩ ≠ "" := by
    rw [hinput]
    decide
  obtain ⟨c, hc, -, hformula⟩ := (stored_run .standard _).exists_of_inputOf_ne hne
  have hsome : c.formula.isSome = true := by
    rw [hformula, hinput, hgrid]
    decide +kernel
  obtain ⟨formula, hformula⟩ := Option.isSome_iff_exists.mp hsome
  exact ⟨c, formula, hc, hformula, value_current _ _ hc hformula⟩

end Sheet

end Worksheet
