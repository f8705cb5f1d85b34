import Worksheet.Proofs.Formula.WellFormed
import Worksheet.Proofs.Sheet.Edits

/-!
# A sheet mirrors the last inputs

The cells and the edges of a sheet are what the texts typed last call for, and nothing of the texts
before them is left (`Sheet.mirrors_run`).

That no edge is dropped needs something from the parser. The graph has no edges beyond the grid, and
would pass over such an edge without notice. But the formula of a cell is one that was accepted, and
accepted formulas are well-formed: what they read lies in the grid.

## Main definitions

* `Edit.address?`, `Edit.input` — the cell that an edit is of, and the text that it types
* `lastInput` — the text that was typed last into a cell
* `Sheet.Mirrors` — everything in a sheet but the values, in terms of the inputs

## Main results

* `Cell.contains_of_mem_dependsOn_ofInput` — what the formula of an input reads lies in the grid
* `Sheet.inputOf_run` — the input of a cell is the text that was typed last
* `Sheet.mirrors_run` — every sheet mirrors the last inputs
-/

namespace Worksheet

variable {grid : Grid} {a b : Address}

theorem Cell.contains_of_mem_dependsOn_ofInput {input : String}
    (ha : a ∈ (Cell.ofInput grid input).dependsOn) : grid.contains a = true := by
  obtain ⟨formula, hformula, hread⟩ := Cell.mem_dependsOn.mp ha
  unfold Cell.ofInput at hformula
  split at hformula
  · split at hformula
    · rename_i hparse
      cases hformula
      exact (Formula.wellFormed_of_parse hparse).contains_of_reads hread
    · cases hformula
  · cases hformula

/-! ### The last input -/

/-- The cell that an edit is of, if its name stands for one. -/
def Edit.address? (grid : Grid) : Edit → Option Address
  | write a _ => some a
  | writeAt name _ => grid.parse? name
  | clear a => some a

/-- The text that an edit types into its cell. -/
def Edit.input : Edit → String
  | write _ input => input
  | writeAt _ input => input
  | clear _ => ""

/-- The text that was typed last into a cell, empty if there was none. -/
def lastInput (grid : Grid) (edits : List Edit) (b : Address) : String :=
  match edits.reverse.find? fun edit => edit.address? grid == some b with
  | some edit => edit.input
  | none => ""

theorem lastInput_append (edits : List Edit) (edit : Edit) (b : Address) :
    lastInput grid (edits ++ [edit]) b =
      if edit.address? grid = some b then edit.input else lastInput grid edits b := by
  unfold lastInput
  rw [List.reverse_append, List.reverse_singleton, List.singleton_append, List.find?_cons]
  by_cases h : edit.address? grid = some b
  · rw [if_pos h, beq_iff_eq.mpr h]
  · rw [if_neg h, beq_eq_false_iff_ne.mpr h]

namespace Sheet

variable {s t : Sheet} {edit : Edit}

/-- An edit of a cell types its text into the cell. -/
theorem apply_of_address? (h : edit.address? s.grid = some a) :
    edit.apply s = s.write a edit.input := by
  cases edit with
  | write b input =>
    cases h
    rfl
  | writeAt name input =>
    simp only [Edit.address?] at h
    simp only [Edit.apply, writeAt, h, Edit.input]
  | clear b =>
    cases h
    rfl

/-- An edit of no cell is refused and changes nothing. -/
theorem apply_of_address?_eq_none (h : edit.address? s.grid = none) :
    ∃ f, edit.apply s = ⟨s, [], some f⟩ := by
  cases edit with
  | write b input => cases h
  | writeAt name input =>
    simp only [Edit.address?] at h
    simp only [Edit.apply, writeAt, h]
    exact ⟨_, rfl⟩
  | clear b => cases h

/-- **An edit succeeds** just if it is of a cell of the grid. -/
theorem refusal_apply_eq_none_iff : (edit.apply s).refusal = none ↔
    ∃ a, edit.address? s.grid = some a ∧ s.grid.contains a = true := by
  cases haddress : edit.address? s.grid with
  | none =>
    obtain ⟨f, hf⟩ := apply_of_address?_eq_none haddress
    rw [hf]
    constructor
    · rintro ⟨⟩
    · rintro ⟨_, ⟨⟩, _⟩
  | some a =>
    rw [apply_of_address? haddress]
    cases ha : s.grid.contains a with
    | true => exact iff_of_true (congrArg Edited.refusal (write_of_contains ha _)) ⟨a, rfl, ha⟩
    | false =>
      rw [write_of_not_contains ha]
      constructor
      · rintro ⟨⟩
      · rintro ⟨_, ⟨⟩, ha'⟩
        cases ha.symm.trans ha'

/-- What an edit does to the input of a cell of the grid. -/
theorem Stored.inputOf_after (h : s.Stored) (hb : s.grid.contains b = true) (edit : Edit) :
    (s.after edit).inputOf b =
      if edit.address? s.grid = some b then edit.input else s.inputOf b := by
  cases haddress : edit.address? s.grid with
  | none =>
    obtain ⟨f, hf⟩ := apply_of_address?_eq_none haddress
    rw [if_neg nofun, after, hf]
  | some a =>
    have hafter : s.after edit = s.after (.write a edit.input) := by
      rw [after, after, apply_of_address? haddress]
      rfl
    cases ha : s.grid.contains a with
    | true =>
      rw [hafter, h.inputOf_after_write ha]
      simp only [Option.some.injEq, eq_comm]
    | false =>
      have hba : a ≠ b := by
        rintro rfl
        cases ha.symm.trans hb
      have hrefused : s.after (.write a edit.input) = s := by
        rw [after, Edit.apply, write_of_not_contains ha]
      rw [hafter, hrefused, if_neg fun heq => hba (Option.some.inj heq)]

/-- **The input of a cell** is the text that was typed last into it. -/
theorem inputOf_run (edits : List Edit) (hb : grid.contains b = true) :
    (run grid edits).inputOf b = lastInput grid edits b := by
  induction edits using List.reverseRecOn with
  | nil =>
    rw [run, List.foldl_nil, inputOf, cell?, empty, Std.TreeMap.getElem?_emptyc]
    rfl
  | append_singleton edits edit ih =>
    have hgrid : (run grid edits).grid = grid := grid_run grid edits
    have hafter := (stored_run grid edits).inputOf_after (hgrid.symm ▸ hb) edit
    rw [hgrid, ih] at hafter
    rw [lastInput_append, ← hafter, run_append]

/-! ### Mirrors -/

/-- Everything in a sheet but the values of its formulas is what the inputs call for. -/
structure Mirrors (s : Sheet) (input : Address → String) : Prop where
  /-- The sheet keeps the inputs. -/
  inputOf_eq : ∀ b, s.grid.contains b = true → s.inputOf b = input b
  /-- The cells with a text are occupied. -/
  isSome_iff : ∀ b, s.grid.contains b = true → ((s.cell? b).isSome = true ↔ input b ≠ "")
  /-- The formula of a cell is that of its text. -/
  formulaOf_eq : ∀ b, s.grid.contains b = true →
    s.formulaOf b = (Cell.ofInput s.grid (input b)).formula
  /-- A cell depends on what its text reads. -/
  dependenciesOf_eq : ∀ b, s.grid.contains b = true →
    s.dependenciesOf b = (Cell.ofInput s.grid (input b)).dependsOn
  /-- The occupied cells are listed. -/
  mem_occupied_iff : ∀ b c, (b, c) ∈ s.occupied ↔ s.cell? b = some c
  /-- They are listed in reading order, each once. -/
  occupied_ascending : s.occupied.Pairwise fun x y => compare x.1 y.1 = .lt
  /-- No other cell than those of the grid is occupied. -/
  occupied_inside : ∀ entry ∈ s.occupied, s.grid.contains entry.1 = true
  /-- The edges out of a cell lead to the cells that depend on it. -/
  mem_dependentsOf_iff : ∀ a b, b ∈ s.dependentsOf a ↔ a ∈ s.dependenciesOf b
  /-- The edges into a cell come from the cells that it depends on. -/
  mem_precedentsOf_iff : ∀ a b, a ∈ s.graph.precedentsOf b ↔ a ∈ s.dependenciesOf b
  /-- The dependents of a cell are listed in reading order, each once. -/
  dependentsOf_ascending : ∀ a, (s.dependentsOf a).Pairwise fun b c => compare b c = .lt
  /-- There are as many edges as dependencies of all cells. -/
  edgeCount_eq :
    s.graph.edgeCount = (s.occupied.map fun entry => entry.2.dependsOn.length).sum

namespace Stored

theorem formulaOf_eq (h : s.Stored) (b : Address) :
    s.formulaOf b = (Cell.ofInput s.grid (s.inputOf b)).formula := by
  by_cases hb : s.inputOf b = ""
  · rw [formulaOf, h.cell?_eq_none_iff.mpr hb, hb]
    rfl
  · obtain ⟨c, hc, -, hformula⟩ := h.exists_of_inputOf_ne hb
    rw [formulaOf, hc, ← hformula]
    rfl

/-- No dependency is without its edge. -/
theorem feeds_iff_mem (h : s.Stored) (a b : Address) :
    s.graph.Feeds a b ↔ a ∈ s.dependenciesOf b := by
  rw [h.feeds_iff]
  refine and_iff_right_of_imp fun ha => ?_
  rw [h.dependenciesOf_eq] at ha
  exact Cell.contains_of_mem_dependsOn_ofInput ha

theorem mem_occupied_iff {c : Cell} : (b, c) ∈ s.occupied ↔ s.cell? b = some c :=
  Std.TreeMap.mem_toList_iff_getElem?_eq_some

/-- **The edges are counted** by the dependencies of all cells. -/
theorem edgeCount_eq (h : s.Stored) :
    s.graph.edgeCount = (s.occupied.map fun entry => entry.2.dependsOn.length).sum := by
  -- every edge once, with the cell that reads in front
  have hnodup : (s.occupied.flatMap fun entry => entry.2.dependsOn.map (Prod.mk entry.1)).Nodup :=
    Graph.nodup_flatMap_pairs Std.TreeMap.ordered_keys_toList fun entry _ =>
      entry.2.nodup_dependsOn
  have hmem : ∀ a b, (a, b) ∈ (s.occupied.flatMap fun entry =>
      entry.2.dependsOn.map (Prod.mk entry.1)).map Prod.swap ↔ s.graph.Feeds a b := by
    intro a b
    rw [h.feeds_iff_mem, List.mem_map]
    constructor
    · rintro ⟨pair, hpair, heq⟩
      obtain ⟨⟨b', c⟩, hentry, hpair⟩ := List.mem_flatMap.mp hpair
      obtain ⟨a', ha, rfl⟩ := List.mem_map.mp hpair
      cases heq
      rwa [dependenciesOf_eq_of_cell? (mem_occupied_iff.mp hentry)]
    · intro ha
      obtain ⟨c, hc, hread⟩ := h.exists_of_feeds ((h.feeds_iff_mem a b).mpr ha)
      exact ⟨(b, a), List.mem_flatMap.mpr ⟨(b, c), mem_occupied_iff.mpr hc,
        List.mem_map.mpr ⟨a, hread, rfl⟩⟩, rfl⟩
  rw [Graph.edgeCount_eq_length (hnodup.map Prod.swap_injective) hmem, List.length_map,
    List.length_flatMap]
  simp only [List.length_map]

theorem mirrors (h : s.Stored) {input : Address → String}
    (hinput : ∀ b, s.grid.contains b = true → s.inputOf b = input b) : s.Mirrors input where
  inputOf_eq := hinput
  isSome_iff b hb := by
    rw [← hinput b hb, Ne, ← h.cell?_eq_none_iff, Option.isSome_iff_ne_none]
  formulaOf_eq b hb := by rw [h.formulaOf_eq, hinput b hb]
  dependenciesOf_eq b hb := by rw [h.dependenciesOf_eq, hinput b hb]
  mem_occupied_iff _ _ := mem_occupied_iff
  occupied_ascending := Std.TreeMap.ordered_keys_toList
  occupied_inside entry hentry := h.contains entry.1 entry.2 (mem_occupied_iff.mp hentry)
  mem_dependentsOf_iff := h.feeds_iff_mem
  mem_precedentsOf_iff a b := by rw [← h.coherent.mirrored, h.feeds_iff_mem]
  dependentsOf_ascending := s.graph.pairwise_dependentsOf
  edgeCount_eq := h.edgeCount_eq

end Stored

/-- **Every sheet mirrors the last inputs.** After any edits of an empty sheet of any size, an edit
succeeds just if it is of a cell of the grid. The cells and edges of the sheet are what the texts
call for that were typed last. -/
theorem mirrors_run (grid : Grid) (edits : List Edit) :
    (∀ edit : Edit, (edit.apply (run grid edits)).refusal = none ↔
      ∃ a, edit.address? grid = some a ∧ grid.contains a = true) ∧
    (run grid edits).grid = grid ∧
    (run grid edits).Mirrors (lastInput grid edits) := by
  have hgrid : (run grid edits).grid = grid := grid_run grid edits
  refine ⟨fun edit => ?_, hgrid, (stored_run grid edits).mirrors fun b hb => ?_⟩
  · rw [refusal_apply_eq_none_iff, hgrid]
  · exact inputOf_run edits (hgrid ▸ hb)

end Sheet

end Worksheet
