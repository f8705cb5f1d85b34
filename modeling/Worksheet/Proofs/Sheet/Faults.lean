import Worksheet.Proofs.Sheet.Settled

/-!
# Faults spread

No formula gets rid of a fault. If a cell that a formula reads holds one, evaluation ends in a fault
too, whatever the formula does with the cell: a rectangle that stands by itself is never looked at,
and neither is the argument of a function that is not a rectangle, but these are faults of their own.

For the cells of a sheet the same has to hold of what they keep, and there it is not a matter of one
evaluation. A cell may have been passed over by the last edits, or have been computed when the cells
of a cycle had been pinned already. Since the sheet is settled neither matters: a cell is pinned, and
then holds a fault anyway, or it holds what its formula makes of the cells that it reads as they are.
So a fault goes along every edge (`Sheet.Settled.holdsFault_of_feeds`). As every cycle has a pinned
cell, all cells of a cycle hold faults, and so do all cells that can be reached from one.

## Main definitions

* `Sheet.HoldsFault` — the value of the cell is a fault

## Main results

* `Formula.exists_evaluate_eq_error` — a fault in a cell that is read makes for a fault
* `Sheet.Settled.holdsFault_of_feeds`, `Sheet.Settled.holdsFault_of_onCycle` — where faults are
* `Sheet.faults_spread` — no number is downstream of a fault or of a cycle
-/

namespace Worksheet

open Relation (ReflTransGen TransGen)

/-- **Evaluation passes faults on.** A fault in a cell that the formula reads ends the evaluation in
a fault, though it may be another one that is met earlier. -/
theorem Formula.exists_evaluate_eq_error {formula : Formula} {context : Context} {a : Address}
    {f : Fault} (ha : a ∈ formula.dependencies) (hfault : context a = .fault f) :
    ∃ e, formula.evaluate context = .error e := by
  cases hresult : formula.evaluate context with
  | ok x => exact absurd hfault (not_fault_of_evaluate_eq_ok hresult (mem_dependencies.mp ha) f)
  | error e => exact ⟨e, rfl⟩

namespace Sheet

variable {s : Sheet} {a b : Address} {c : Cell} {f : Fault} {P : Set Address}

/-- The value of the cell is a fault. -/
def HoldsFault (s : Sheet) (a : Address) : Prop :=
  ∃ c f, s.cell? a = some c ∧ c.value = .fault f

theorem context_eq_fault_iff :
    s.context a = .fault f ↔ ∃ c, s.cell? a = some c ∧ c.value = .fault f := by
  constructor
  · intro h
    cases hc : s.cell? a with
    | none =>
      rw [context_eq_of_cell?_eq_none hc] at h
      cases h
    | some c => exact ⟨c, rfl, by rwa [← context_eq_of_cell? hc]⟩
  · rintro ⟨c, hc, hvalue⟩
    rwa [context_eq_of_cell? hc]

theorem holdsFault_iff_context : s.HoldsFault a ↔ ∃ f, s.context a = .fault f := by
  simp only [HoldsFault, context_eq_fault_iff]
  exact exists_comm

namespace Settled

theorem holdsFault_of_mem (hs : s.Settled P) (ha : a ∈ P) : s.HoldsFault a := by
  obtain ⟨c, hc, hvalue⟩ := hs.pinned a ha
  exact ⟨c, _, hc, hvalue⟩

/-- **A fault goes along every edge.** -/
theorem holdsFault_of_feeds (h : s.Stored) (hs : s.Settled P) (hba : s.graph.Feeds b a)
    (hb : s.HoldsFault b) : s.HoldsFault a := by
  by_cases ha : a ∈ P
  · exact hs.holdsFault_of_mem ha
  obtain ⟨f, hf⟩ := holdsFault_iff_context.mp hb
  obtain ⟨c, hc, hread⟩ := h.exists_of_feeds hba
  obtain ⟨formula, hformula, hread⟩ := Cell.mem_dependsOn.mp hread
  obtain ⟨e, he⟩ := Formula.exists_evaluate_eq_error (Formula.mem_dependencies.mpr hread) hf
  have hvalue := hs.value_eq ha hc hformula
  rw [he] at hvalue
  exact ⟨c, e, hc, hvalue⟩

theorem holdsFault_of_reflTransGen (h : s.Stored) (hs : s.Settled P)
    (hba : ReflTransGen s.graph.Feeds b a) (hb : s.HoldsFault b) : s.HoldsFault a := by
  induction hba with
  | refl => exact hb
  | tail _ hcd ih => exact hs.holdsFault_of_feeds h hcd ih

/-- Every cell of a cycle holds a fault, since one of them is pinned. -/
theorem holdsFault_of_onCycle (h : s.Stored) (hs : s.Settled P) (ha : s.graph.OnCycle a) :
    s.HoldsFault a := by
  obtain ⟨cells, hcycle, hmem⟩ := ha
  obtain ⟨b, hb, hnot⟩ := hcycle.exists_notMem hs.clears.not_endless
  have hpinned : b ∈ P := by
    by_contra hbP
    exact hnot ⟨Set.mem_univ b, hbP⟩
  exact hs.holdsFault_of_reflTransGen h (hcycle.transGen hb hmem).to_reflTransGen
    (hs.holdsFault_of_mem hpinned)

end Settled

/-- **Faults are contagious.** A cell holds a fault if one of the cells that its formula reads does,
or if it can be reached from a cell on a cycle. The first half rests on what evaluation does for any
formula, even one that cannot be written, among any values. -/
theorem faults_spread (grid : Grid) (edits : List Edit) :
    (∀ a, ((∃ b ∈ (run grid edits).dependenciesOf a, (run grid edits).HoldsFault b) ∨
        ∃ b, (run grid edits).graph.OnCycle b ∧ ReflTransGen (run grid edits).graph.Feeds b a) →
      (run grid edits).HoldsFault a) ∧
    ∀ (formula : Formula) (context : Context),
      (∃ a ∈ formula.dependencies, ∃ f, context a = .fault f) →
        ∃ e, formula.evaluate context = .error e := by
  have h := stored_run grid edits
  obtain ⟨P, hs⟩ := exists_settled_run grid edits
  refine ⟨?_, ?_⟩
  · rintro a (⟨b, hread, hb⟩ | ⟨b, hb, hba⟩)
    · obtain ⟨c, f, hc, hvalue⟩ := hb
      have hba := (h.feeds_iff b a).mpr ⟨h.contains b c hc, hread⟩
      exact hs.holdsFault_of_feeds h hba ⟨c, f, hc, hvalue⟩
    · exact hs.holdsFault_of_reflTransGen h hba (hs.holdsFault_of_onCycle h hb)
  · rintro formula context ⟨a, ha, f, hf⟩
    exact Formula.exists_evaluate_eq_error ha hf

end Sheet

end Worksheet
