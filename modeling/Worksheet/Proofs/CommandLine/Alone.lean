import Worksheet.Proofs.CommandLine.Arguments
import Worksheet.Proofs.Formula.Stops
import Worksheet.Proofs.Sheet.Kinds
import Worksheet.Proofs.Sheet.Warnings
import Worksheet.Settings.Document

/-!
# One formula by itself

A run with a formula types it into the first cell of an empty sheet, lets the sheet compute, and looks
at that cell. What it writes can be told without a sheet (`Formula.answer`): the text is read, and the
formula is evaluated where every cell is blank, unless it reads the first cell.

The two agree because nothing else is in the sheet. All edges lead into the one cell, so that there is
a cycle just if the formula reads its own cell, and then the cell is pinned, even if evaluation would
never have looked at it. Otherwise all that the formula reads is blank.

The log is told of the cycle, and there is only this one: whatever can be reached from the first cell is
the first cell. Its text is all that is ever on the standard error.

That there is one line holds for every answer. A number has digits, a point and a sign; the messages
are fixed, except for a word of the text that they may quote, and a word is all letters and digits.

## Main definitions

* `Sheet.OnlyOccupies` — no other cell is occupied
* `Formula.valueAlone`, `Formula.warningsAlone` — what a cell shows for a formula if no other cell is
  occupied, and what the log is told
* `Answer` — what is said in answer to a formula: a line, and an exit code, and what the log is told
* `Formula.answer` — the answer to a formula, without a sheet

## Main results

* `Sheet.Settled.context_of_onlyOccupies` — the value of the only cell
* `Sheet.warnings_write_empty` — what the log is told of it
* `Formula.newline_notMem_answer` — an answer is one line
* `runCommandLine_answers_formula` — runs with a formula
-/

namespace Worksheet

open Relation (TransGen)

/-! ### The only cell of a sheet -/

/-- What the cell shows for the text of a formula if no other cell is occupied. -/
def Formula.valueAlone (grid : Grid) (a : Address) (text : String) : Value :=
  match parse grid text with
  | .error e => .fault (.invalid e.fault.message)
  | .ok formula =>
    if a ∈ formula.dependencies then .fault Cell.circularReference
    else .ofResult (formula.evaluate fun _ => .blank)

/-- What the log is told of it. -/
def Formula.warningsAlone (grid : Grid) (a : Address) (text : String) : List Warning :=
  match parse grid text with
  | .error _ => []
  | .ok formula => if a ∈ formula.dependencies then [.circular [a]] else []

variable {grid : Grid} {s : Sheet} {a : Address} {c : Cell} {P : Set Address}
  {input text : String} {formula : Formula} {f : Fault} {x : Float}

namespace Cell

theorem ofInput_of_parse_eq_error {e : SyntaxError} (hmarked : Formula.isMarked input = true)
    (h : Formula.parse grid input = .error e) :
    ofInput grid input = ⟨input, none, .fault (.invalid e.fault.message)⟩ := by
  rw [ofInput, if_pos hmarked, h]

theorem formula_ofInput_of_parse_eq_ok (hmarked : Formula.isMarked input = true)
    (h : Formula.parse grid input = .ok formula) :
    (ofInput grid input).formula = some formula := by
  rw [ofInput, if_pos hmarked, h]

end Cell

namespace Sheet

/-- No other cell is occupied. -/
def OnlyOccupies (s : Sheet) (a : Address) : Prop :=
  ∀ b, b ≠ a → s.cell? b = none

section OnlyOccupies

variable (h : s.Stored) (hs : s.Settled P) (honly : s.OnlyOccupies a)

include h honly

/-- All edges lead into the only cell. -/
theorem OnlyOccupies.eq_of_feeds {b d : Address} (hbd : s.graph.Feeds b d) : d = a := by
  obtain ⟨c, hc, -⟩ := h.exists_of_feeds hbd
  by_contra hne
  cases (honly d hne).symm.trans hc

include hs

/-- The only cell is pinned if its formula reads it, and not otherwise. -/
theorem Settled.mem_iff_of_onlyOccupies (hc : s.cell? a = some c) : a ∈ P ↔ a ∈ c.dependsOn := by
  constructor
  · intro ha
    obtain ⟨b, hab, -⟩ := TransGen.head'_iff.mp (hs.clears.transGen ha)
    obtain rfl : b = a := honly.eq_of_feeds h hab
    obtain ⟨d, hd, hread⟩ := h.exists_of_feeds hab
    cases hc.symm.trans hd
    exact hread
  · intro hread
    have hself : s.graph.Feeds a a := h.feeds hc hread (h.contains a c hc)
    by_contra ha
    -- a cell that is not pinned cannot read itself
    have hunpinned : a ∈ Set.univ \ P := ⟨Set.mem_univ a, ha⟩
    exact hs.wellFounded_within.irrefl.irrefl a ⟨hself, hunpinned, hunpinned⟩

/-- **The value of the only cell.** -/
theorem Settled.context_of_onlyOccupies (hmarked : Formula.isMarked (s.inputOf a) = true) :
    s.context a = Formula.valueAlone s.grid a (s.inputOf a) := by
  obtain ⟨c, hc, hcmarked⟩ := exists_cell?_of_marked hmarked
  have hkept := h.kept a c hc
  rw [context_eq_of_cell? hc, inputOf_eq_of_cell? hc, Formula.valueAlone]
  cases hparse : Formula.parse s.grid c.input with
  | error e =>
    have hofInput := Cell.ofInput_of_parse_eq_error hcmarked hparse
    rw [hkept.literal (by rw [hkept.formula_eq, hofInput]), hofInput]
  | ok formula =>
    have hformula : c.formula = some formula := by
      rw [hkept.formula_eq, Cell.formula_ofInput_of_parse_eq_ok hcmarked hparse]
    have hmem : a ∈ P ↔ a ∈ formula.dependencies := by
      rw [hs.mem_iff_of_onlyOccupies h honly hc, Cell.dependsOn, hformula]
    by_cases hread : a ∈ formula.dependencies
    · obtain ⟨d, hd, hvalue⟩ := hs.pinned a (hmem.mpr hread)
      cases hc.symm.trans hd
      simp only [if_pos hread, hvalue]
    · have hblank : formula.evaluate s.context = formula.evaluate fun _ => .blank := by
        refine Formula.evaluate_congr fun b hb => context_eq_of_cell?_eq_none (honly b ?_)
        rintro rfl
        exact hread (Formula.mem_dependencies.mpr hb)
      simp only [if_neg hread, ← hblank]
      exact hs.value_eq (hmem.not.mpr hread) hc hformula

end OnlyOccupies

theorem inputOf_empty (grid : Grid) (b : Address) : (empty grid).inputOf b = "" := by
  rw [inputOf, cell?, empty, Std.TreeMap.getElem?_emptyc]

/-- After one edit of an empty sheet, no other cell is occupied. -/
theorem onlyOccupies_run_write (ha : grid.contains a = true) (input : String) :
    (run grid [.write a input]).OnlyOccupies a := by
  intro b hba
  rw [(stored_run grid _).cell?_eq_none_iff]
  exact (inputOf_run_write_of_ne [] ha input hba).trans (inputOf_empty grid b)

theorem context_run_write (ha : grid.contains a = true) (hmarked : Formula.isMarked input = true) :
    (run grid [.write a input]).context a = Formula.valueAlone grid a input := by
  obtain ⟨P, hP⟩ := exists_settled_run grid [.write a input]
  have hinput : (run grid [.write a input]).inputOf a = input := inputOf_run_write_self [] ha input
  have hcontext := hP.context_of_onlyOccupies (stored_run grid _) (onlyOccupies_run_write ha input)
    (by rwa [hinput])
  rwa [hinput, grid_run] at hcontext

end Sheet

/-! ### The only cycle -/

namespace Graph

variable {g : Graph}

theorem settle_nil (g : Graph) (cycles : List (List Address)) : g.settle cycles [] = ⟨cycles, []⟩ := by
  rw [settle]
  rfl

section OneTarget

variable (h : ∀ b d, g.Feeds b d → d = a)

include h

/-- If all edges lead into one cell, there is no other cycle than that of the cell alone. -/
theorem eq_singleton_of_feeds {cycle : List Address} {S : Set Address}
    (hcycle : g.IsSimpleCycleWithin S cycle) : cycle = [a] := by
  have hmem : ∀ b ∈ cycle, b = a := by
    intro b hb
    obtain ⟨c, -, hcb⟩ := TransGen.tail'_iff.mp (ClosedChain.transGen hcycle.isCycle hb hb)
    exact h c b hcb
  cases cycle with
  | nil => exact absurd rfl hcycle.isCycle.ne_nil
  | cons b rest =>
    obtain rfl := hmem b List.mem_cons_self
    cases rest with
    | nil => rfl
    | cons c rest =>
      obtain rfl := hmem c (List.mem_cons_of_mem _ List.mem_cons_self)
      exact absurd List.mem_cons_self (List.nodup_cons.mp hcycle.nodup).1

/-- A plan for the cell pins the cell or nothing. -/
theorem cycles_planFor_of_feeds [Decidable (g.Feeds a a)] :
    (g.planFor a).cycles = if g.Feeds a a then [[a]] else [] := by
  split
  · rename_i hself
    obtain ⟨cycle, hfound⟩ := exists_detectCycle_iff.mpr
      (⟨a, .refl, onCycle_iff.mpr (.single hself)⟩ : g.ReachesCycle a)
    obtain rfl := eq_singleton_of_feeds h (isSimpleCycleWithin_of_detectCycle hfound)
    -- nothing else depends on the cell, so nothing is left to be put in order
    have hrest : without [a] (g.transitiveDependents a) = [] := by
      refine List.eq_nil_iff_forall_not_mem.mpr fun b hb => ?_
      obtain ⟨hdependent, hne⟩ := mem_without.mp hb
      obtain ⟨c, -, hcb⟩ := TransGen.tail'_iff.mp (mem_transitiveDependents.mp hdependent)
      exact hne (h c b hcb ▸ List.mem_singleton_self a)
    have hpinned : (some [a]).toList.flatten = [a] := List.flatten_singleton
    rw [planFor, hfound, hpinned, hrest, settle_nil]
    rfl
  · rename_i hself
    refine cycles_planFor_eq_nil_iff.mpr ?_
    rintro ⟨b, -, hb⟩
    obtain ⟨c, hbc, hcb⟩ := TransGen.head'_iff.mp (onCycle_iff.mp hb)
    obtain rfl := h b c hbc
    obtain ⟨d, -, hdb⟩ := TransGen.tail'_iff.mp (onCycle_iff.mp hb)
    obtain rfl := h d b hdb
    exact hself hbc

end OneTarget

end Graph

namespace Sheet

theorem dependenciesOf_replace_self (s : Sheet) (a : Address) (input : String) :
    (s.replace a input).dependenciesOf a = (Cell.ofInput s.grid input).dependsOn := by
  rw [dependenciesOf, cell?_replace_self]
  by_cases hempty : input.isEmpty = true
  · rw [if_pos hempty, String.isEmpty_iff.mp hempty]
    rfl
  · simp only [if_neg hempty, Cell.dependsOn_recompute]

/-- **What the log is told** of the only cell: a cycle, if the formula reads it. -/
theorem warnings_write_empty (ha : grid.contains a = true) (hmarked : Formula.isMarked input = true) :
    ((empty grid).write a input).warnings = Formula.warningsAlone grid a input := by
  have hstored : ((empty grid).replace a input).Stored := (stored_empty grid).replace ha input
  have honly : ((empty grid).replace a input).OnlyOccupies a := by
    intro b hba
    rw [cell?_replace_of_ne _ input hba]
    exact Std.TreeMap.getElem?_emptyc
  have hself : ((empty grid).replace a input).graph.Feeds a a ↔
      a ∈ (Cell.ofInput grid input).dependsOn := by
    rw [hstored.feeds_iff_mem, dependenciesOf_replace_self]
    rfl
  classical
  rw [(stored_empty grid).warnings_write ha, Graph.cycles_planFor_of_feeds fun b d =>
    honly.eq_of_feeds hstored, Formula.warningsAlone]
  cases hparse : Formula.parse grid input with
  | error e =>
    rw [Cell.ofInput_of_parse_eq_error hmarked hparse] at hself
    rw [if_neg fun h => by cases hself.mp h]
    rfl
  | ok formula =>
    rw [Cell.dependsOn, Cell.formula_ofInput_of_parse_eq_ok hmarked hparse] at hself
    simp only [hself]
    split <;> rfl

end Sheet

/-! ### The answer to a formula -/

/-- What is said in answer to a formula. -/
structure Answer where
  /-- The line that is written. -/
  line : String
  /-- The exit code. -/
  code : Nat
  /-- What the log is told. -/
  warnings : List Warning
deriving DecidableEq, Repr

/-- The answer as the output of a run that leaves the log aside. -/
def Answer.output (answer : Answer) : Output :=
  ⟨answer.line ++ "\n", "", answer.code⟩

/-- The answer that a value makes, if this is what the log is told. -/
def Value.answer (warnings : List Warning) : Value → Answer
  | fault f => ⟨f.describe, 1, warnings⟩
  | v => ⟨v.display, 0, warnings⟩

/-- The answer to the text of a formula. -/
def Formula.answer (grid : Grid) (text : String) : Answer :=
  match parse grid text with
  | .error e => ⟨"#ERR: " ++ e.fault.message, 1, []⟩
  | .ok formula =>
    if ⟨0, 0⟩ ∈ formula.dependencies then
      ⟨"#CYC: Circular reference detected", 1, [.circular [⟨0, 0⟩]]⟩
    else
      match formula.evaluate fun _ => .blank with
      | .ok x => ⟨numberText x, 0, []⟩
      | .error f => ⟨"#ERR: " ++ f.message, 1, []⟩

/-- Where every cell is blank, evaluation meets only faults of its own. -/
theorem Formula.isRaised_of_evaluate_blank (h : (formula.evaluate fun _ => .blank) = .error f) :
    f.IsRaised := by
  rcases exists_reads_of_evaluate_eq_error h with hraised | ⟨a, -, hblank⟩
  · exact hraised
  · cases hblank

/-- The answer to a formula is that of its value in the first cell. -/
theorem Formula.answer_valueAlone (grid : Grid) (text : String) :
    (valueAlone grid ⟨0, 0⟩ text).answer (warningsAlone grid ⟨0, 0⟩ text) = answer grid text := by
  unfold valueAlone warningsAlone answer
  split
  · rfl
  · split
    · rfl
    · split
      · rename_i x hx
        rw [hx]
        rfl
      · rename_i f hf
        obtain ⟨e, rfl⟩ := isRaised_of_evaluate_blank hf
        rw [hf]
        rfl

theorem warnings_answer (warnings : List Warning) (v : Value) :
    (v.answer warnings).warnings = warnings := by
  cases v <;> rfl

theorem unlines_singleton (line : String) : unlines [line] = line ++ "\n" := by
  simp [unlines]

/-- The first cell is there, whatever the settings. -/
theorem Settings.contains_first (settings : Settings) : settings.grid.contains ⟨0, 0⟩ = true :=
  Grid.contains_iff.mpr ⟨settings.columns_range.1, settings.rows_range.1⟩

theorem isMarked_markFormula (formula : String) : Formula.isMarked (markFormula formula) = true := by
  unfold markFormula
  split
  · assumption
  · rw [Formula.isMarked, String.toList_append]
    rfl

section Evaluate

variable (hfirst : grid.contains ⟨0, 0⟩ = true)

include hfirst

/-- The run looks at a sheet in which the first cell is the only one. -/
theorem showCell_write_markFormula (text : String) (warnings : List Warning) :
    showCell ((Sheet.empty grid).write ⟨0, 0⟩ (markFormula text)).sheet ⟨0, 0⟩ =
      ((Formula.valueAlone grid ⟨0, 0⟩ (markFormula text)).answer warnings).output := by
  have hmarked := isMarked_markFormula text
  have hcontext := Sheet.context_run_write hfirst hmarked
  have hsheet : ((Sheet.empty grid).write ⟨0, 0⟩ (markFormula text)).sheet =
      Sheet.run grid [.write ⟨0, 0⟩ (markFormula text)] := (Sheet.write_run [] hfirst _).2
  obtain ⟨P, hP⟩ := Sheet.exists_settled_run grid [.write ⟨0, 0⟩ (markFormula text)]
  have hinput : Formula.isMarked
      ((Sheet.run grid [.write ⟨0, 0⟩ (markFormula text)]).inputOf ⟨0, 0⟩) = true :=
    (Sheet.inputOf_run_write_self [] hfirst (markFormula text)).symm ▸ hmarked
  have hvalue := (hP.valueOf_of_marked (Sheet.stored_run grid _) hinput).trans hcontext
  have hdisplay := (Sheet.displayOf_of_marked hinput).trans (congrArg Value.display hcontext)
  rw [hsheet]
  simp only [showCell, hvalue, hdisplay, unlines_singleton]
  cases Formula.valueAlone grid ⟨0, 0⟩ (markFormula text) <;> rfl

/-- **A formula is answered by what it is by itself**, although it is typed into a sheet. -/
theorem evaluateAlone_eq (log : Log) (text : String) :
    evaluateAlone log grid text =
      (Formula.answer grid (markFormula text)).output.logged log
        (Formula.answer grid (markFormula text)).warnings := by
  have hwarnings := Sheet.warnings_write_empty hfirst (isMarked_markFormula text)
  have hok : ((Sheet.empty grid).write ⟨0, 0⟩ (markFormula text)).refusal = none :=
    (Sheet.write_run [] hfirst _).1
  rw [← Formula.answer_valueAlone, warnings_answer, ← showCell_write_markFormula hfirst, ← hwarnings]
  simp only [evaluateAlone, hok]

end Evaluate

/-! ### One line -/

theorem newline_notMem_append {front back : String} (hfront : '\n' ∉ front.toList)
    (hback : '\n' ∉ back.toList) : '\n' ∉ (front ++ back).toList := by
  rw [String.toList_append, List.mem_append, not_or]
  exact ⟨hfront, hback⟩

/-- What a message quotes is a word, and words are not broken. -/
theorem SyntaxFault.Met.newline_notMem {fault : SyntaxFault} (h : fault.Met) :
    '\n' ∉ fault.message.toList := by
  have hquoted : '\n' ∉ fault.quoted.toList := fun hmem => absurd (h.isAlphanum _ hmem) (by decide)
  cases fault with
  | invalidReference word => exact newline_notMem_append (by decide) hquoted
  | unknownFunction word => exact newline_notMem_append (by decide) hquoted
  | _ => decide

theorem EvaluationFault.newline_notMem (e : EvaluationFault) : '\n' ∉ e.message.toList := by
  cases e <;> decide

theorem newline_notMem_numberText (hx : x.isFinite = true) : '\n' ∉ (numberText x).toList := by
  intro hmem
  rcases isDigit_of_mem_numberText hx hmem with h | h | h <;> cases h

/-- **An answer is one line.** -/
theorem Formula.newline_notMem_answer (grid : Grid) (text : String) :
    '\n' ∉ (answer grid text).line.toList := by
  unfold answer
  split
  · rename_i e hparse
    exact newline_notMem_append (by decide) (met_of_parse_eq_error hparse).newline_notMem
  · rename_i formula _
    split
    · decide
    · split
      · rename_i x hx
        have hfinite : x.isFinite = true :=
          isFinite_of_evaluate_eq_ok (fun _ => Value.isFinite_text "") hx
        exact newline_notMem_numberText hfinite
      · rename_i f hf
        obtain ⟨e, rfl⟩ := isRaised_of_evaluate_blank hf
        exact newline_notMem_append (by decide) e.newline_notMem

/-! ### Runs with a formula -/

/-- The function would not look at its argument, which is no rectangle. The reference is circular
nevertheless, and the log is told so. -/
example :
    let content := "columns = 1\nrows = 1\n".toUTF8
    let log : Log := ⟨fun warnings => unlines (warnings.map Warning.message)⟩
    runCommandLine ⟨⟨fun _ => .ok content, none⟩, Settings.readDocument, log⟩
        ["--config", "small.toml", "-c", "SUM(A1)"] =
      ⟨"#CYC: Circular reference detected\n", "circular reference\n", 1⟩ := by
  decide +kernel

end Worksheet
