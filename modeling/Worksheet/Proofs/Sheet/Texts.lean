import Worksheet.Proofs.Sheet.Settled

/-!
# Texts are invisible

What a text says is of no concern to the formulas of a sheet. Arithmetic takes any text for zero, the
functions skip it, and a cell that holds nothing reads as a text too. So a cell may be cleared, left
blank or filled with words, and nothing else in the sheet shows which (`Sheet.text_invisible`).

For one formula that is plain from how it is evaluated. For a whole sheet two more things have to be
seen. A text depends on nothing, so the edges are the same, and with them the cells that are pinned,
which are determined by the edges (`Clears.unique`). And a value differs at most where a text stands,
never further on: this is shown along the edges, from the cells that are read to those that read them,
as far as nothing is endless.

Neither argument cares how the two sheets came about. So they are stated for any two settled sheets
with inputs that are the same or both texts (`Sheet.Settled.cell?_eq_of_alike`), whether there is one
such text or many. Inputs that are the same everywhere are a special case.

## Main definitions

* `IsText` — the inputs that are texts, the empty one included
* `InputsAlike` — inputs that other cells cannot tell apart
* `Sheet.SameBut` — two sheets with everything in common but one cell

## Main results

* `Sheet.Settled.cell?_eq_of_alike` — settled sheets with inputs that are alike
* `Sheet.text_invisible` — one text in place of another
-/

namespace Worksheet

/-! ### Inputs that are texts -/

/-- The input is empty, or it is not marked as a formula and has a text as its value. -/
inductive IsText : String → Prop
  | empty : IsText ""
  | literal {input content : String} (hmarked : Formula.isMarked input = false)
      (hvalue : Value.ofLiteral input = .text content) : IsText input

/-- The cell of a text has no formula. -/
theorem IsText.exists_ofInput_eq {input : String} (h : IsText input) (grid : Grid) :
    ∃ content, Cell.ofInput grid input = ⟨input, none, .text content⟩ := by
  cases h with
  | empty => exact ⟨"", rfl⟩
  | @literal _ content hmarked hvalue =>
    exact ⟨content, by rw [Cell.ofInput_of_not_marked hmarked, hvalue]⟩

/-- The inputs are the same, or both are texts. -/
def InputsAlike (input input' : String) : Prop :=
  input = input' ∨ IsText input ∧ IsText input'

/-- Inputs that are alike call for the same edges. -/
theorem InputsAlike.dependsOn_eq {input input' : String} (h : InputsAlike input input')
    (grid : Grid) : (Cell.ofInput grid input).dependsOn = (Cell.ofInput grid input').dependsOn := by
  rcases h with rfl | ⟨htext, htext'⟩
  · rfl
  · obtain ⟨_, heq⟩ := htext.exists_ofInput_eq grid
    obtain ⟨_, heq'⟩ := htext'.exists_ofInput_eq grid
    rw [heq, heq']
    rfl

namespace Sheet

variable {s t : Sheet} {a b : Address} {c : Cell} {P Q : Set Address} {grid : Grid}
  {input input' : String}

/-- Formulas find a text in a cell with a text, and also in one that holds nothing. -/
theorem Stored.exists_context_eq_text (h : s.Stored) (htext : IsText (s.inputOf a)) :
    ∃ content, s.context a = .text content := by
  obtain ⟨content, heq⟩ := htext.exists_ofInput_eq s.grid
  cases hc : s.cell? a with
  | none => exact ⟨"", context_eq_of_cell?_eq_none hc⟩
  | some c =>
    rw [inputOf_eq_of_cell? hc] at heq
    have hkept := h.kept a c hc
    have hformula : c.formula = none := by rw [hkept.formula_eq, heq]
    have hvalue : c.value = .text content := by rw [hkept.literal hformula, heq]
    exact ⟨content, (context_eq_of_cell? hc).trans hvalue⟩

/-! ### Sheets with inputs that are alike -/

section Alike

variable (hs : s.Stored) (ht : t.Stored) (hgrid : s.grid = t.grid)
  (hinput : ∀ a, s.grid.contains a = true → InputsAlike (s.inputOf a) (t.inputOf a))

include hs ht hgrid hinput

/-- Outside the grid there are no inputs to differ. -/
theorem Stored.inputsAlike (a : Address) : InputsAlike (s.inputOf a) (t.inputOf a) := by
  by_cases ha : s.grid.contains a = true
  · exact hinput a ha
  · rw [hs.inputOf_eq_of_not_contains ha, ht.inputOf_eq_of_not_contains (hgrid ▸ ha)]
    exact .inl rfl

theorem Stored.feeds_iff_of_alike (a b : Address) : s.graph.Feeds a b ↔ t.graph.Feeds a b := by
  rw [hs.feeds_iff, ht.feeds_iff, hs.dependenciesOf_eq, ht.dependenciesOf_eq, ← hgrid,
    (hs.inputsAlike ht hgrid hinput b).dependsOn_eq]

/-- The cells that are pinned are the same. -/
theorem Settled.pinned_eq_of_alike (hP : s.Settled P) (hQ : t.Settled Q) : P = Q := by
  have hfeeds : s.graph.Feeds = t.graph.Feeds := by
    funext a b
    exact propext (hs.feeds_iff_of_alike ht hgrid hinput a b)
  have hclears := hQ.clears
  rw [← hfeeds] at hclears
  exact hP.clears.unique hclears

omit hgrid hinput in
/-- Cells with the same input are both occupied or both not. -/
theorem Stored.exists_cell?_eq (heq : s.inputOf a = t.inputOf a) (hc : s.cell? a = some c) :
    ∃ d, t.cell? a = some d ∧ c.input = d.input := by
  have hne : t.inputOf a ≠ "" := by
    rw [← heq, inputOf_eq_of_cell? hc]
    exact (hs.kept a c hc).input_ne
  obtain ⟨d, hd, hdinput, -⟩ := ht.exists_of_inputOf_ne hne
  exact ⟨d, hd, by rw [hdinput, ← heq, inputOf_eq_of_cell? hc]⟩

omit hinput in
theorem Settled.cell?_eq_of_mem (hP : s.Settled P) (hQ : t.Settled P) (ha : a ∈ P)
    (heq : s.inputOf a = t.inputOf a) : s.cell? a = t.cell? a := by
  obtain ⟨c, hc, hcvalue⟩ := hP.pinned a ha
  obtain ⟨d, hd, hdvalue⟩ := hQ.pinned a ha
  obtain ⟨d', hd', hcd⟩ := hs.exists_cell?_eq ht heq hc
  cases hd.symm.trans hd'
  have hformula : c.formula = d.formula := by
    rw [(hs.kept a c hc).formula_eq, (ht.kept a d hd).formula_eq, hcd, hgrid]
  have hvalue : c.value = d.value := hcvalue.trans hdvalue.symm
  rw [hc, hd]
  cases c
  cases d
  cases hcd
  cases hformula
  cases hvalue
  rfl

/-- What formulas find in a cell is alike, once the cell is known to be the same if its input is. -/
theorem Stored.alike_context (hcell : s.inputOf a = t.inputOf a → s.cell? a = t.cell? a) :
    (s.context a).Alike (t.context a) := by
  rcases hs.inputsAlike ht hgrid hinput a with heq | ⟨htext, htext'⟩
  · exact .of_eq (CellTable.context_congr (hcell heq))
  · obtain ⟨content, hcontent⟩ := hs.exists_context_eq_text htext
    obtain ⟨content', hcontent'⟩ := ht.exists_context_eq_text htext'
    rw [hcontent, hcontent']
    exact .texts content content'

/-- **Texts are all one to the other cells.** In settled sheets with inputs that are alike, cells with
the same input are the same, values included. -/
theorem Settled.cell?_eq_of_alike (hP : s.Settled P) (hQ : t.Settled P) (a : Address)
    (heq : s.inputOf a = t.inputOf a) : s.cell? a = t.cell? a := by
  induction a using hP.wellFounded_within.induction with
  | _ a ih =>
    by_cases ha : a ∈ P
    · exact hP.cell?_eq_of_mem hs ht hgrid hQ ha heq
    cases hc : s.cell? a with
    | none =>
      rw [hs.cell?_eq_none_iff, heq, ← ht.cell?_eq_none_iff] at hc
      exact hc.symm
    | some c =>
      obtain ⟨d, hd, hcd⟩ := hs.exists_cell?_eq ht heq hc
      have hreads : ∀ x ∈ c.dependsOn, (s.context x).Alike (t.context x) := by
        intro x hx
        refine hs.alike_context ht hgrid hinput fun hxeq => ?_
        by_cases hxP : x ∈ P
        · exact hP.cell?_eq_of_mem hs ht hgrid hQ hxP hxeq
        by_cases hgridx : s.grid.contains x = true
        · exact ih x ⟨hs.feeds hc hx hgridx, ⟨Set.mem_univ x, hxP⟩, ⟨Set.mem_univ a, ha⟩⟩ hxeq
        · have hempty : s.inputOf x = "" := hs.inputOf_eq_of_not_contains hgridx
          rw [hs.cell?_eq_none_iff.mpr hempty, ht.cell?_eq_none_iff.mpr (hxeq ▸ hempty)]
      have hkept : d.Kept s.grid := hgrid ▸ ht.kept a d hd
      have hcell : c = d := calc
        c = c.recompute s.context := (hP.computed a c ha hc).symm
        _ = c.recompute t.context := Cell.recompute_congr_of_alike hreads
        _ = d.recompute t.context := (hs.kept a c hc).recompute_eq hkept hcd t.context
        _ = d := hQ.computed a d ha hd
      rw [hd, hcell]

end Alike

/-! ### One text in place of another -/

/-- The sheets have everything in common but what they keep of one cell. -/
structure SameBut (a : Address) (s t : Sheet) : Prop where
  grid : s.grid = t.grid
  /-- All other cells are the same, with their inputs, formulas and values. -/
  cell? : ∀ b, b ≠ a → s.cell? b = t.cell? b
  /-- The edges are the same, those of the one cell among them. -/
  dependentsOf : ∀ b, s.graph.dependentsOf b = t.graph.dependentsOf b
  precedentsOf : ∀ b, s.graph.precedentsOf b = t.graph.precedentsOf b
  edgeCount : s.graph.edgeCount = t.graph.edgeCount

/-- Settled sheets that differ in the text of one cell have everything else in common. -/
theorem Settled.sameBut (hs : s.Stored) (ht : t.Stored) (hP : s.Settled P) (hQ : t.Settled Q)
    (hgrid : s.grid = t.grid) (htext : IsText (s.inputOf a)) (htext' : IsText (t.inputOf a))
    (hothers : ∀ b, b ≠ a → s.inputOf b = t.inputOf b) : SameBut a s t := by
  have hinput : ∀ b, s.grid.contains b = true → InputsAlike (s.inputOf b) (t.inputOf b) := by
    intro b _
    by_cases hba : b = a
    · rw [hba]
      exact .inr ⟨htext, htext'⟩
    · exact .inl (hothers b hba)
  obtain rfl : P = Q := hP.pinned_eq_of_alike hs ht hgrid hinput hQ
  have hfeeds := hs.feeds_iff_of_alike ht hgrid hinput
  exact {
    grid := hgrid
    cell? := fun b hba => hP.cell?_eq_of_alike hs ht hgrid hinput hQ b (hothers b hba)
    dependentsOf := Graph.dependentsOf_congr hfeeds
    precedentsOf := hs.coherent.precedentsOf_congr ht.coherent hfeeds
    edgeCount := Graph.edgeCount_congr hfeeds }

/-- **Texts are invisible.** Whatever the edits before, and also if the cell was on a cycle: when one
text is typed into a cell of the grid, or else, from the same sheet, another one, the two sheets are
the same but for this cell. A text may be empty, which clears the cell. -/
theorem text_invisible (grid : Grid) (edits : List Edit) (ha : grid.contains a = true)
    (htext : IsText input) (htext' : IsText input') :
    ((run grid edits).write a input).refusal = none ∧
      ((run grid edits).write a input').refusal = none ∧
      SameBut a ((run grid edits).write a input).sheet ((run grid edits).write a input').sheet := by
  obtain ⟨hok, hsheet⟩ := write_run edits ha input
  obtain ⟨hok', hsheet'⟩ := write_run edits ha input'
  refine ⟨hok, hok', ?_⟩
  rw [hsheet, hsheet']
  obtain ⟨P, hP⟩ := exists_settled_run grid (edits ++ [.write a input])
  obtain ⟨Q, hQ⟩ := exists_settled_run grid (edits ++ [.write a input'])
  refine hP.sameBut (stored_run grid _) (stored_run grid _) hQ ?_ ?_ ?_ fun b hba => ?_
  · rw [grid_run, grid_run]
  · rwa [inputOf_run_write_self edits ha]
  · rwa [inputOf_run_write_self edits ha]
  · rw [inputOf_run_write_of_ne edits ha input hba, inputOf_run_write_of_ne edits ha input' hba]

theorem text_invisible_of_broken_cycle :
    let edits : List Edit :=
      [.write ⟨0, 0⟩ "=B1+1", .write ⟨0, 1⟩ "=A1", .write ⟨0, 2⟩ "=SUM(A1:B1)"]
    let s := run .standard edits
    Grid.standard.contains ⟨0, 0⟩ = true ∧ IsText "" ∧ IsText " n/a" ∧
      (s.write ⟨0, 0⟩ "").refusal = none ∧ (s.write ⟨0, 0⟩ " n/a").refusal = none ∧
      SameBut ⟨0, 0⟩ (s.write ⟨0, 0⟩ "").sheet (s.write ⟨0, 0⟩ " n/a").sheet := by
  intro edits s
  have hvalue : Value.ofLiteral " n/a" = .text " n/a" := by decide
  have hword : IsText " n/a" := .literal (by decide) hvalue
  exact ⟨rfl, .empty, hword, text_invisible .standard edits rfl .empty hword⟩

end Sheet

end Worksheet
