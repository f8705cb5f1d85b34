import Worksheet.Proofs.Sheet.Mirror
import Worksheet.Proofs.Sheet.Settled

/-!
# What an edit leaves alone

An edit of a cell replaces that cell and the edges into it. Of all other cells it changes at most the
values, and these only where a cell depends on the edited one (`Sheet.DiffersAt`). An edit that is
refused changes nothing, and it is refused for one of two reasons only, which have nothing to do with
the text that is typed (`Edit.Refused`).

Which cells depend on the edited one is a question to a graph, and the edit changes the graph. But it
makes no difference whether the graph before or after the edit is asked. A way from the edited cell to
another one that comes back to the edited cell can be cut short there, and no other part of it uses an
edge into that cell.

## Main definitions

* `Sheet.DiffersAt` — two sheets that differ at most in what an edit of one cell may change
* `Edit.Refused` — the edits that are refused, and why

## Main results

* `transGen_iff_of_agree` — the cells that depend on a cell, with other edges into it
* `Sheet.Stored.differsAt` — typing a text into a cell
* `Sheet.after_differsAt_or_refused` — an edit of any sheet
-/

namespace Worksheet

open Relation (ReflTransGen TransGen)

variable {r r' : Address → Address → Prop} {a b x y : Address}

/-! ### Cells that depend on the edited one -/

/-- Edges into the cell where a walk starts are of no use to it. -/
theorem reflTransGen_of_agree (hagree : ∀ x y, y ≠ a → r x y → r' x y) (h : ReflTransGen r a b) :
    ReflTransGen r' a b := by
  induction h with
  | refl => exact .refl
  | @tail x y _ hxy ih =>
    by_cases hya : y = a
    · rw [hya]
    · exact ih.tail (hagree x y hya hxy)

theorem transGen_iff_reflTransGen (hba : b ≠ a) : TransGen r a b ↔ ReflTransGen r a b := by
  rw [Relation.reflTransGen_iff_eq_or_transGen]
  exact (or_iff_right hba).symm

/-- Relations that differ only in what leads to a cell agree about the other cells that can be
reached from it. -/
theorem transGen_iff_of_agree (hagree : ∀ x y, y ≠ a → (r x y ↔ r' x y)) (hba : b ≠ a) :
    TransGen r a b ↔ TransGen r' a b := by
  rw [transGen_iff_reflTransGen hba, transGen_iff_reflTransGen hba]
  constructor
  · exact reflTransGen_of_agree fun x y hya => (hagree x y hya).mp
  · exact reflTransGen_of_agree fun x y hya => (hagree x y hya).mpr

/-! ### Edits that are refused -/

/-- The edit is refused for this reason: its cell is not in the grid, or its name stands for no cell
of the grid. -/
inductive Edit.Refused (grid : Grid) : Edit → EditFault → Prop
  | write {a : Address} {input : String} (h : grid.contains a = false) :
      Refused grid (.write a input) (.outOfBounds a grid)
  | writeAt {name input : String} (h : grid.parse? name = none) :
      Refused grid (.writeAt name input) (.invalidReference name)
  | clear {a : Address} (h : grid.contains a = false) :
      Refused grid (.clear a) (.outOfBounds a grid)

namespace Sheet

variable {s t : Sheet} {edit : Edit} {input : String}

/-- An edit types its text into a cell of the grid, or is refused. -/
theorem apply_eq_or_refused (s : Sheet) (edit : Edit) :
    (∃ a, edit.address? s.grid = some a ∧ s.grid.contains a = true ∧
      edit.apply s = s.write a edit.input) ∨
    ∃ f, edit.Refused s.grid f ∧ edit.apply s = ⟨s, [], some f⟩ := by
  cases edit with
  | write a input =>
    cases ha : s.grid.contains a with
    | true => exact .inl ⟨a, rfl, ha, rfl⟩
    | false => exact .inr ⟨_, .write ha, write_of_not_contains ha input⟩
  | writeAt name input =>
    cases hname : s.grid.parse? name with
    | none => exact .inr ⟨_, .writeAt hname, by simp only [Edit.apply, writeAt, hname]⟩
    | some a =>
      -- a name stands for a cell of the grid only
      have ha : s.grid.contains a = true := Grid.contains_of_parseChars? hname
      have haddress : (Edit.writeAt name input).address? s.grid = some a := hname
      exact .inl ⟨a, hname, ha, apply_of_address? haddress⟩
  | clear a =>
    cases ha : s.grid.contains a with
    | true => exact .inl ⟨a, rfl, ha, rfl⟩
    | false => exact .inr ⟨_, .clear ha, write_of_not_contains ha ""⟩

/-! ### What differs after an edit -/

/-- The second sheet differs from the first one at most in what an edit of the cell may change. -/
structure DiffersAt (a : Address) (s t : Sheet) : Prop where
  grid_eq : t.grid = s.grid
  /-- Other cells stay occupied, or stay empty. -/
  isSome_eq : ∀ b, b ≠ a → (t.cell? b).isSome = (s.cell? b).isSome
  /-- They keep their inputs. -/
  inputOf_eq : ∀ b, b ≠ a → t.inputOf b = s.inputOf b
  /-- They keep their formulas. -/
  formulaOf_eq : ∀ b, b ≠ a → t.formulaOf b = s.formulaOf b
  /-- They depend on the same cells. -/
  dependenciesOf_eq : ∀ b, b ≠ a → t.dependenciesOf b = s.dependenciesOf b
  /-- The same other cells depend on the edited one as before. -/
  mem_transitiveDependents_iff : ∀ b, b ≠ a →
    (b ∈ t.graph.transitiveDependents a ↔ b ∈ s.graph.transitiveDependents a)
  /-- All others are kept with their values. -/
  cell?_eq : ∀ b, b ≠ a → b ∉ s.graph.transitiveDependents a → t.cell? b = s.cell? b
  /-- The edges into other cells are the same, looked up from where they start. -/
  mem_dependentsOf_iff : ∀ x y, y ≠ a → (y ∈ t.dependentsOf x ↔ y ∈ s.dependentsOf x)
  /-- They are the same, looked up from where they end. -/
  precedentsOf_eq : ∀ y, y ≠ a → t.graph.precedentsOf y = s.graph.precedentsOf y

section Write

variable (h : s.Stored)

include h

/-- The same other cells depend on the edited one before and after. -/
theorem Stored.mem_transitiveDependents_write (input : String) (hba : b ≠ a) :
    b ∈ ((s.replace a input).recalculate a).graph.transitiveDependents a ↔
      b ∈ s.graph.transitiveDependents a := by
  rw [Graph.mem_transitiveDependents, Graph.mem_transitiveDependents]
  exact transGen_iff_of_agree (fun _ _ hya => h.feeds_replace hya) hba

variable (ha : s.grid.contains a = true)

include ha

/-- Of another cell, an edit changes nothing but the value. -/
theorem Stored.exists_cell?_write (input : String) (hba : b ≠ a) : ∃ f : Cell → Cell,
    ((s.replace a input).recalculate a).cell? b = (s.cell? b).map f ∧
      (∀ c, (f c).input = c.input) ∧ ∀ c, (f c).formula = c.formula := by
  obtain ⟨f, hf, hinput, hformula, -⟩ := (h.replace ha input).exists_cell?_recalculate a b
  rw [cell?_replace_of_ne s input hba] at hf
  exact ⟨f, hf, hinput, hformula⟩

/-- A cell that does not depend on the edited one is kept as it is. -/
theorem Stored.cell?_write_of_notMem (input : String) (hba : b ≠ a)
    (hb : b ∉ s.graph.transitiveDependents a) :
    ((s.replace a input).recalculate a).cell? b = s.cell? b := by
  rw [← h.mem_transitiveDependents_write input hba, Graph.mem_transitiveDependents,
    transGen_iff_reflTransGen hba] at hb
  exact h.cell?_write_of_not_reflTransGen ha hb

/-- **Typing a text into a cell** changes nothing beyond that cell, the edges into it, and the values
of the cells that depend on it. -/
theorem Stored.differsAt (input : String) :
    DiffersAt a s ((s.replace a input).recalculate a) where
  grid_eq := by rw [grid_recalculate, grid_replace]
  isSome_eq b hba := by
    obtain ⟨f, hf, -⟩ := h.exists_cell?_write ha input hba
    rw [hf, Option.isSome_map]
  inputOf_eq b hba := by
    obtain ⟨f, hf, hinput, -⟩ := h.exists_cell?_write ha input hba
    rw [inputOf, inputOf, hf]
    cases s.cell? b with
    | none => rfl
    | some c => exact hinput c
  formulaOf_eq b hba := by
    obtain ⟨f, hf, -, hformula⟩ := h.exists_cell?_write ha input hba
    rw [formulaOf, formulaOf, hf]
    cases s.cell? b with
    | none => rfl
    | some c => exact hformula c
  dependenciesOf_eq b hba := by
    rw [(h.replace ha input).dependenciesOf_recalculate, dependenciesOf, dependenciesOf,
      cell?_replace_of_ne s input hba]
  mem_transitiveDependents_iff b hba := h.mem_transitiveDependents_write input hba
  cell?_eq b hba hb := h.cell?_write_of_notMem ha input hba hb
  mem_dependentsOf_iff x y hya := h.feeds_replace hya
  precedentsOf_eq y hya := by
    refine Graph.precedentsOf_eq_of_mem_iff fun x => ?_
    rw [← ((h.replace ha input).recalculate a).coherent.mirrored, ← h.coherent.mirrored]
    exact h.feeds_replace hya

end Write

/-- **An edit is local, or is refused.** Whatever the sheet and the text, an edit of a cell of the
grid succeeds, and the sheet then differs at most in the cell, in the edges into it, and in the
values of the cells that depend on it. Any other edit is refused for the reason that there is no such
cell, and the sheet stays as it was. -/
theorem after_differsAt_or_refused (grid : Grid) (edits : List Edit) (edit : Edit) :
    (∃ a, edit.address? grid = some a ∧ grid.contains a = true ∧
      (edit.apply (run grid edits)).refusal = none ∧
      DiffersAt a (run grid edits) (edit.apply (run grid edits)).sheet) ∨
    ∃ f, edit.Refused grid f ∧ (edit.apply (run grid edits)).refusal = some f ∧
      (edit.apply (run grid edits)).sheet = run grid edits := by
  have hgrid : (run grid edits).grid = grid := grid_run grid edits
  rcases (run grid edits).apply_eq_or_refused edit with ⟨a, haddress, ha, heq⟩ | ⟨f, hf, heq⟩
  · left
    refine ⟨a, hgrid ▸ haddress, hgrid ▸ ha, ?_, ?_⟩
    · rw [heq, write_of_contains ha]
    · rw [heq, write_of_contains ha]
      exact (stored_run grid edits).differsAt ha _
  · right
    rw [heq]
    exact ⟨f, hgrid ▸ hf, rfl, rfl⟩

end Sheet

end Worksheet
