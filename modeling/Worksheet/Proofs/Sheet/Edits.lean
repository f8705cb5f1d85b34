import Worksheet.Proofs.Sheet.CarryOut

/-!
# Edits, and what a sheet keeps through them

A sheet comes about by edits, one after another, of an empty one. Any of them may be refused, and
the sheet is then what it was before. This module has the induction over such runs, and the
invariant of everything in a sheet that is not a value: which cells are occupied, with which
formulas, and that the edges of the graph are what the formulas read.

Values have an invariant of their own, which rests on this one. The two meet in the cells after an
edit: the edited cell is replaced, the cells that depend on it are pinned or computed again, and all
others are kept.

## Main definitions

* `Edit`, `Sheet.after`, `Sheet.run` — edits and runs
* `Cell.Kept` — what a sheet can keep of an input, whatever the value
* `Sheet.Stored` — the invariant of cells and edges

## Main results

* `Sheet.run_induction` — induction over a run
* `Sheet.Stored.replace`, `Sheet.Stored.recalculate` — the two halves of an edit keep the invariant
* `Sheet.stored_run` — every sheet has the invariant
-/

namespace Worksheet

open Relation (ReflTransGen TransGen)

/-! ### Runs -/

/-- An edit of a sheet. -/
inductive Edit where
  | write (a : Address) (input : String)
  | writeAt (name input : String)
  | clear (a : Address)
deriving DecidableEq, Repr

/-- What comes of the edit of a sheet. -/
def Edit.apply (edit : Edit) (s : Sheet) : Edited :=
  match edit with
  | write a input => s.write a input
  | writeAt name input => s.writeAt name input
  | clear a => s.clear a

namespace Sheet

variable {s t : Sheet} {a b x y : Address} {input : String} {edit : Edit} {grid : Grid}

/-- The sheet after an edit, which may have been refused. -/
def after (s : Sheet) (edit : Edit) : Sheet := (edit.apply s).sheet

/-- The sheet that a sequence of edits makes of an empty one. -/
def run (grid : Grid) (edits : List Edit) : Sheet := edits.foldl after (empty grid)

/-- The sheet after the plan for a change of a cell has been carried out. -/
def recalculate (s : Sheet) (origin : Address) : Sheet := s.carryOut (s.graph.planFor origin)

@[simp] theorem grid_recalculate (s : Sheet) (a : Address) : (s.recalculate a).grid = s.grid := rfl

theorem write_of_contains (ha : s.grid.contains a = true) (input : String) : s.write a input =
    ⟨(s.replace a input).recalculate a,
      (s.replace a input).warningsFor a ((s.replace a input).graph.planFor a), none⟩ :=
  if_pos ha

theorem write_of_not_contains (ha : s.grid.contains a = false) (input : String) :
    s.write a input = ⟨s, [], some (.outOfBounds a s.grid)⟩ :=
  if_neg (ne_true_of_eq_false ha)

/-- Typing a text into a cell does so, or leaves the sheet as it is. -/
theorem sheet_write_eq_or (s : Sheet) (a : Address) (input : String) :
    (s.write a input).sheet = s ∨
      s.grid.contains a = true ∧ (s.write a input).sheet = (s.replace a input).recalculate a := by
  cases ha : s.grid.contains a with
  | true => exact .inr ⟨rfl, congrArg Edited.sheet (write_of_contains ha input)⟩
  | false => exact .inl (congrArg Edited.sheet (write_of_not_contains ha input))

/-- An edit leaves the sheet as it is, or types a text into a cell of the grid. -/
theorem after_eq_or (s : Sheet) (edit : Edit) : s.after edit = s ∨
    ∃ a input, s.grid.contains a = true ∧ s.after edit = (s.replace a input).recalculate a := by
  cases edit with
  | write a input => exact (s.sheet_write_eq_or a input).imp_right fun h => ⟨a, input, h⟩
  | writeAt name input =>
    simp only [after, Edit.apply, writeAt]
    split
    · exact (s.sheet_write_eq_or _ input).imp_right fun h => ⟨_, input, h⟩
    · exact .inl rfl
  | clear a => exact (s.sheet_write_eq_or a "").imp_right fun h => ⟨a, "", h⟩

/-- **Induction over a run.** What holds of the empty sheet and is kept by typing a text into a cell
holds of every sheet. -/
theorem run_induction {motive : Sheet → Prop} (hempty : motive (empty grid))
    (hwrite : ∀ s a input, s.grid = grid → grid.contains a = true → motive s →
      motive ((s.replace a input).recalculate a)) (edits : List Edit) :
    motive (run grid edits) := by
  suffices h : ∀ s, s.grid = grid → motive s →
      (edits.foldl after s).grid = grid ∧ motive (edits.foldl after s) from
    (h (empty grid) rfl hempty).2
  induction edits with
  | nil => exact fun s hgrid hs => ⟨hgrid, hs⟩
  | cons edit edits ih =>
    intro s hgrid hs
    rw [List.foldl_cons]
    rcases s.after_eq_or edit with heq | ⟨a, input, ha, heq⟩
    · rw [heq]
      exact ih s hgrid hs
    · rw [heq]
      refine ih _ ?_ (hwrite s a input hgrid (hgrid ▸ ha) hs)
      rw [grid_recalculate, grid_replace, hgrid]

theorem grid_run (grid : Grid) (edits : List Edit) : (run grid edits).grid = grid := by
  refine run_induction (motive := fun s => s.grid = grid) rfl ?_ edits
  intro s a input hgrid _ _
  rw [grid_recalculate, grid_replace, hgrid]

/-- One more edit. -/
theorem run_append (grid : Grid) (edits : List Edit) (edit : Edit) :
    run grid (edits ++ [edit]) = (run grid edits).after edit := by
  rw [run, List.foldl_append]
  rfl

/-- Typing a text into a cell of the grid succeeds, and is one more edit. -/
theorem write_run (edits : List Edit) (ha : grid.contains a = true) (input : String) :
    ((run grid edits).write a input).refusal = none ∧
      ((run grid edits).write a input).sheet = run grid (edits ++ [.write a input]) := by
  have hcontains : (run grid edits).grid.contains a = true := by rwa [grid_run]
  refine ⟨congrArg Edited.refusal (write_of_contains hcontains input), ?_⟩
  rw [run_append]
  rfl

end Sheet

/-! ### What is kept of a cell -/

/-- The cell is what a sheet can keep of its input, whatever the value of its formula. -/
structure Cell.Kept (grid : Grid) (c : Cell) : Prop where
  input_ne : c.input ≠ ""
  formula_eq : c.formula = (Cell.ofInput grid c.input).formula
  literal : c.formula = none → c = Cell.ofInput grid c.input

namespace Cell

variable {grid : Grid} {c : Cell} {input : String}

@[simp] theorem input_ofInput (grid : Grid) (input : String) :
    (ofInput grid input).input = input := by
  unfold ofInput
  split
  · split <;> rfl
  · rfl

theorem ofInput_of_not_marked (h : Formula.isMarked input = false) (grid : Grid) :
    ofInput grid input = ⟨input, none, .ofLiteral input⟩ :=
  if_neg (ne_true_of_eq_false h)

theorem kept_ofInput (hinput : input ≠ "") : (ofInput grid input).Kept grid where
  input_ne := by rwa [input_ofInput]
  formula_eq := by rw [input_ofInput]
  literal _ := by rw [input_ofInput]

theorem recompute_eq_self (context : Context) (h : c.formula = none) : c.recompute context = c := by
  unfold recompute
  rw [h]

theorem Kept.recompute (h : c.Kept grid) (context : Context) : (c.recompute context).Kept grid where
  input_ne := by rw [input_recompute]; exact h.input_ne
  formula_eq := by rw [formula_recompute, input_recompute]; exact h.formula_eq
  literal hnone := by
    rw [formula_recompute] at hnone
    rw [recompute_eq_self context hnone]
    exact h.literal hnone

theorem Kept.pin (h : c.Kept grid) (hsome : c.formula ≠ none) : c.pin.Kept grid where
  input_ne := h.input_ne
  formula_eq := h.formula_eq
  literal hnone := absurd hnone hsome

/-- Cells with one input are the same once they are computed again. -/
theorem Kept.recompute_eq {d : Cell} (hc : c.Kept grid) (hd : d.Kept grid)
    (hinput : c.input = d.input) (context : Context) :
    c.recompute context = d.recompute context := by
  have hformula : c.formula = d.formula := by rw [hc.formula_eq, hd.formula_eq, hinput]
  cases hnone : c.formula with
  | none =>
    have hnone' : d.formula = none := hformula ▸ hnone
    rw [recompute_eq_self context hnone, recompute_eq_self context hnone', hc.literal hnone,
      hd.literal hnone', hinput]
  | some formula =>
    have hsome : d.formula = some formula := hformula ▸ hnone
    simp only [Cell.recompute, hnone, hsome, hinput]

/-- The value from which a cell is computed again does not matter. -/
theorem recompute_recompute (context context' : Context) (c : Cell) :
    (c.recompute context).recompute context' = c.recompute context' := by
  cases hc : c.formula with
  | none => rw [recompute_eq_self context hc]
  | some formula => simp only [Cell.recompute, hc]

end Cell

/-! ### Cells and edges -/

namespace Sheet

variable {s t : Sheet} {a b x y : Address} {input : String} {c : Cell} {plan : Plan}

/-- The invariant of a sheet, apart from values: every occupied cell is in the grid and keeps its
input, and the edges are what the formulas read. -/
structure Stored (s : Sheet) : Prop where
  contains : ∀ a c, s.cell? a = some c → s.grid.contains a = true
  kept : ∀ a c, s.cell? a = some c → c.Kept s.grid
  coherent : s.graph.Coherent
  feeds_iff : ∀ a b, s.graph.Feeds a b ↔ s.grid.contains a = true ∧ a ∈ s.dependenciesOf b

theorem dependenciesOf_eq_of_cell? (h : s.cell? a = some c) : s.dependenciesOf a = c.dependsOn := by
  rw [dependenciesOf, h]

theorem inputOf_eq_of_cell? (hc : s.cell? a = some c) : s.inputOf a = c.input := by
  rw [inputOf, hc]

theorem context_eq_of_cell? (hc : s.cell? a = some c) : s.context a = c.value :=
  CellTable.context_of_getElem? hc

theorem context_eq_of_cell?_eq_none (hc : s.cell? a = none) : s.context a = .blank := by
  unfold context CellTable.context
  rw [← cell?, hc]

theorem stored_empty (grid : Grid) : (empty grid).Stored where
  contains a c hc := by
    rw [cell?, empty, Std.TreeMap.getElem?_emptyc] at hc
    cases hc
  kept a c hc := by
    rw [cell?, empty, Std.TreeMap.getElem?_emptyc] at hc
    cases hc
  coherent := Graph.coherent_empty grid
  feeds_iff a b := by
    apply iff_of_false (Graph.not_feeds_empty grid)
    intro h
    rw [dependenciesOf, cell?, empty, Std.TreeMap.getElem?_emptyc] at h
    cases h.2

namespace Stored

/-- A formula reads along the edges into its cell. -/
theorem feeds (h : s.Stored) (hc : s.cell? b = some c) (hread : a ∈ c.dependsOn)
    (ha : s.grid.contains a = true) : s.graph.Feeds a b :=
  (h.feeds_iff a b).mpr ⟨ha, by rwa [dependenciesOf_eq_of_cell? hc]⟩

/-- A cell with an edge into it has a formula that reads along it. -/
theorem exists_of_feeds (h : s.Stored) (hab : s.graph.Feeds a b) :
    ∃ c, s.cell? b = some c ∧ a ∈ c.dependsOn := by
  have hread := ((h.feeds_iff a b).mp hab).2
  unfold dependenciesOf at hread
  split at hread
  · exact ⟨_, ‹_›, hread⟩
  · cases hread

end Stored

/-! ### Replacing a cell -/

theorem cell?_replace_self (s : Sheet) (a : Address) (input : String) :
    (s.replace a input).cell? a =
      if input.isEmpty then none else some ((Cell.ofInput s.grid input).recompute s.context) := by
  simp only [replace]
  split
  · exact Std.TreeMap.getElem?_erase_self
  · exact Std.TreeMap.getElem?_insert_self

theorem cell?_replace_of_ne (s : Sheet) (input : String) (hba : b ≠ a) :
    (s.replace a input).cell? b = s.cell? b := by
  simp only [replace]
  split
  · exact AddressMap.getElem?_erase_of_ne s.cells hba
  · exact AddressMap.getElem?_insert_of_ne s.cells _ hba

theorem graph_replace (s : Sheet) (a : Address) (input : String) : (s.replace a input).graph =
    (s.graph.unlink a).linkAll a ((s.replace a input).dependenciesOf a) := by
  rw [dependenciesOf, cell?_replace_self]
  simp only [replace]
  split
  · rfl
  · simp only [Cell.dependsOn_recompute]

/-- Only the edges into the replaced cell change. -/
theorem Stored.feeds_replace (h : s.Stored) (hya : y ≠ a) :
    (s.replace a input).graph.Feeds x y ↔ s.graph.Feeds x y := by
  rw [graph_replace, Graph.feeds_linkAll, h.coherent.feeds_unlink]
  constructor
  · rintro (⟨hxy, -⟩ | ⟨rfl, -⟩)
    · exact hxy
    · exact absurd rfl hya
  · exact fun hxy => .inl ⟨hxy, hya⟩

theorem Stored.replace (h : s.Stored) (ha : s.grid.contains a = true) (input : String) :
    (s.replace a input).Stored where
  contains b c hc := by
    rw [grid_replace]
    by_cases hba : b = a
    · rwa [hba]
    · rw [cell?_replace_of_ne s input hba] at hc
      exact h.contains b c hc
  kept b c hc := by
    rw [grid_replace]
    by_cases hba : b = a
    · rw [hba, cell?_replace_self] at hc
      split at hc
      · cases hc
      · rename_i hne
        cases hc
        refine (Cell.kept_ofInput fun heq => hne ?_).recompute s.context
        rw [heq]
        rfl
    · rw [cell?_replace_of_ne s input hba] at hc
      exact h.kept b c hc
  coherent := by
    rw [graph_replace]
    exact (h.coherent.unlink a).linkAll a _
  feeds_iff x y := by
    rw [grid_replace]
    by_cases hya : y = a
    · subst hya
      rw [graph_replace, Graph.feeds_linkAll, h.coherent.feeds_unlink, Graph.grid_unlink]
      constructor
      · rintro (⟨-, hne⟩ | ⟨-, hread, -, hx⟩)
        · exact absurd rfl hne
        · exact ⟨hx, hread⟩
      · exact fun ⟨hx, hread⟩ => .inr ⟨rfl, hread, ha, hx⟩
    · rw [h.feeds_replace hya, h.feeds_iff, dependenciesOf, dependenciesOf,
        cell?_replace_of_ne s input hya]

/-! ### Carrying out the plan -/

namespace Stored

theorem settles (h : s.Stored) (a : Address) :
    s.graph.Settles {x | TransGen s.graph.Feeds a x} (s.graph.planFor a) :=
  Graph.settles_planFor h.coherent a

theorem feeds_of_transGen (h : s.Stored) (a : Address) : ∀ b c, s.cells[b]? = some c →
    ∀ x ∈ c.dependsOn, x ∈ {x | TransGen s.graph.Feeds a x} → s.graph.Feeds x b := by
  intro b c hc x hx hax
  obtain ⟨y, -, hyx⟩ := TransGen.tail'_iff.mp hax
  exact h.feeds hc hx (h.coherent.inside y x hyx).2

theorem cell?_recalculate_of_mem_pinned (h : s.Stored) (hb : b ∈ (s.graph.planFor a).pinned) :
    (s.recalculate a).cell? b = (s.cell? b).map Cell.pin :=
  CellTable.getElem?_carryOut_of_mem_pinned (h.settles a) (h.feeds_of_transGen a) hb

theorem cell?_recalculate_of_transGen (h : s.Stored) (hb : TransGen s.graph.Feeds a b)
    (hnot : b ∉ (s.graph.planFor a).pinned) : (s.recalculate a).cell? b =
      (s.cell? b).map (Cell.recompute (s.recalculate a).context) :=
  CellTable.getElem?_carryOut_of_mem (h.settles a) (h.feeds_of_transGen a) hb hnot

theorem cell?_recalculate_of_not_transGen (h : s.Stored) (hb : ¬ TransGen s.graph.Feeds a b) :
    (s.recalculate a).cell? b = s.cell? b :=
  CellTable.getElem?_carryOut_of_notMem (h.settles a) (h.feeds_of_transGen a) hb

/-- Whatever carrying out the plan does to a cell, it concerns the value only. -/
theorem exists_cell?_recalculate (h : s.Stored) (a b : Address) : ∃ f : Cell → Cell,
    (s.recalculate a).cell? b = (s.cell? b).map f ∧ (∀ c, (f c).input = c.input) ∧
      (∀ c, (f c).formula = c.formula) ∧
      ∀ c, s.cell? b = some c → c.Kept s.grid → (f c).Kept s.grid := by
  by_cases hb : TransGen s.graph.Feeds a b
  · by_cases hpin : b ∈ (s.graph.planFor a).pinned
    · refine ⟨Cell.pin, h.cell?_recalculate_of_mem_pinned hpin, Cell.input_pin, Cell.formula_pin,
        fun c hc hkept => hkept.pin ?_⟩
      obtain ⟨x, -, hxb⟩ := TransGen.tail'_iff.mp hb
      obtain ⟨d, hd, hread⟩ := h.exists_of_feeds hxb
      obtain ⟨formula, hformula, -⟩ := Cell.mem_dependsOn.mp hread
      cases hc.symm.trans hd
      rw [hformula]
      exact Option.some_ne_none formula
    · exact ⟨_, h.cell?_recalculate_of_transGen hb hpin, Cell.input_recompute _,
        Cell.formula_recompute _, fun c _ hkept => hkept.recompute _⟩
  · refine ⟨id, ?_, fun _ => rfl, fun _ => rfl, fun _ _ hkept => hkept⟩
    rw [h.cell?_recalculate_of_not_transGen hb, Option.map_id]
    rfl

theorem dependenciesOf_recalculate (h : s.Stored) (a b : Address) :
    (s.recalculate a).dependenciesOf b = s.dependenciesOf b := by
  obtain ⟨f, hf, -, hformula, -⟩ := h.exists_cell?_recalculate a b
  rw [dependenciesOf, dependenciesOf, hf]
  cases s.cell? b with
  | none => rfl
  | some c => simp only [Option.map_some, Cell.dependsOn, hformula]

theorem recalculate (h : s.Stored) (a : Address) : (s.recalculate a).Stored where
  contains b c hc := by
    obtain ⟨f, hf, -⟩ := h.exists_cell?_recalculate a b
    rw [hf] at hc
    obtain ⟨d, hd, rfl⟩ := Option.map_eq_some_iff.mp hc
    exact h.contains b d hd
  kept b c hc := by
    obtain ⟨f, hf, -, -, hkept⟩ := h.exists_cell?_recalculate a b
    rw [hf] at hc
    obtain ⟨d, hd, rfl⟩ := Option.map_eq_some_iff.mp hc
    exact hkept d hd (h.kept b d hd)
  coherent := h.coherent
  feeds_iff x y := by
    rw [h.dependenciesOf_recalculate]
    exact h.feeds_iff x y

end Stored

/-! ### Inputs

Everything but the values follows from the inputs. -/

namespace Stored

/-- The occupied cells are those with an input. -/
theorem cell?_eq_none_iff (h : s.Stored) : s.cell? a = none ↔ s.inputOf a = "" := by
  cases hc : s.cell? a with
  | none => simp [inputOf, hc]
  | some c =>
    rw [inputOf_eq_of_cell? hc]
    exact iff_of_false (Option.some_ne_none c) (h.kept a c hc).input_ne

theorem inputOf_eq_of_not_contains (h : s.Stored) (ha : ¬ s.grid.contains a = true) :
    s.inputOf a = "" := by
  rw [← h.cell?_eq_none_iff]
  by_contra hsome
  obtain ⟨c, hc⟩ := Option.ne_none_iff_exists'.mp hsome
  exact ha (h.contains a c hc)

/-- What is kept of a cell has the formula of the input. -/
theorem exists_of_inputOf_ne (h : s.Stored) (ha : s.inputOf a ≠ "") : ∃ c, s.cell? a = some c ∧
    c.input = s.inputOf a ∧ c.formula = (Cell.ofInput s.grid (s.inputOf a)).formula := by
  rw [Ne, ← h.cell?_eq_none_iff] at ha
  obtain ⟨c, hc⟩ := Option.ne_none_iff_exists'.mp ha
  refine ⟨c, hc, (inputOf_eq_of_cell? hc).symm, ?_⟩
  rw [inputOf_eq_of_cell? hc]
  exact (h.kept a c hc).formula_eq

theorem dependenciesOf_eq (h : s.Stored) (a : Address) :
    s.dependenciesOf a = (Cell.ofInput s.grid (s.inputOf a)).dependsOn := by
  by_cases ha : s.inputOf a = ""
  · rw [dependenciesOf, h.cell?_eq_none_iff.mpr ha, ha]
    rfl
  · obtain ⟨c, hc, -, hformula⟩ := h.exists_of_inputOf_ne ha
    rw [dependenciesOf_eq_of_cell? hc, Cell.dependsOn, Cell.dependsOn, hformula]

/-- Typing a text into a cell makes it the input of that cell, and changes no other input. -/
theorem inputOf_after_write (h : s.Stored) (ha : s.grid.contains a = true) (input : String)
    (b : Address) :
    (s.after (.write a input)).inputOf b = if b = a then input else s.inputOf b := by
  have hafter : s.after (.write a input) = (s.replace a input).recalculate a := by
    rw [after, Edit.apply, write_of_contains ha]
  obtain ⟨f, hf, hinput, -⟩ := (h.replace ha input).exists_cell?_recalculate a b
  rw [hafter, inputOf, hf]
  by_cases hba : b = a
  · subst hba
    rw [if_pos rfl, cell?_replace_self]
    by_cases hempty : input.isEmpty = true
    · rw [if_pos hempty, String.isEmpty_iff.mp hempty]
      rfl
    · rw [if_neg hempty]
      simp only [Option.map_some, hinput, Cell.input_recompute, Cell.input_ofInput]
  · rw [if_neg hba, cell?_replace_of_ne s input hba, inputOf]
    cases s.cell? b with
    | none => rfl
    | some c => exact hinput c

end Stored

/-- **Every sheet** keeps its inputs, and has the edges that its formulas call for. -/
theorem stored_run (grid : Grid) (edits : List Edit) : (run grid edits).Stored := by
  refine run_induction (stored_empty grid) ?_ edits
  intro s a input hgrid ha hs
  exact (hs.replace (hgrid ▸ ha) input).recalculate a

theorem inputOf_run_write {grid : Grid} (edits : List Edit) (ha : grid.contains a = true)
    (input : String) (b : Address) : (run grid (edits ++ [.write a input])).inputOf b =
      if b = a then input else (run grid edits).inputOf b := by
  rw [run_append]
  exact (stored_run grid edits).inputOf_after_write (by rwa [grid_run]) input b

theorem inputOf_run_write_self {grid : Grid} (edits : List Edit) (ha : grid.contains a = true)
    (input : String) : (run grid (edits ++ [.write a input])).inputOf a = input := by
  rw [inputOf_run_write edits ha, if_pos rfl]

theorem inputOf_run_write_of_ne {grid : Grid} (edits : List Edit) (ha : grid.contains a = true)
    (input : String) (hba : b ≠ a) :
    (run grid (edits ++ [.write a input])).inputOf b = (run grid edits).inputOf b := by
  rw [inputOf_run_write edits ha, if_neg hba]

end Sheet

end Worksheet
