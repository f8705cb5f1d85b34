import Worksheet.Proofs.Display
import Worksheet.Proofs.Sheet.Faults

/-!
# Kinds of values

Which kind of value a cell can hold is settled by its input. A formula ends in a number or a fault and
never in a text; any other input is a number or a text and never a fault, even if it looks like the
label of one. And no number is infinite or a NaN (`Sheet.values_fit`).

The last point is the only one that a single evaluation cannot settle. Every operation and every
function refuses a result that is not finite, and so does a number that is written out in a formula;
but the value of a cell that is read is passed on as it is. So it has to be known of all cells
already, and is therefore kept by every step of an edit: by the first evaluation of the edited cell,
and by each of the evaluations after it, among the values of the moment.

For the display this means that a label is shown where there is a fault and nowhere else. The text of
a finite number consists of digits with at most a sign and a point.

## Main definitions

* `Value.IsFinite` — the value is not an infinite number or a NaN
* `CellTable.Finite` — no cell of the table holds one
* `Sheet.ValuesFit` — the values have the kinds that the inputs call for

## Main results

* `Formula.isFinite_evaluate` — formulas keep numbers finite
* `CellTable.Finite.carryOut` — so does every plan
* `Value.display_eq_label_iff` — labels stand for faults
* `Sheet.values_fit` — the values of every sheet
-/

namespace Worksheet

variable {a b first last : Address} {context : Context} {x y : Float} {v : Value} {f : Fault}

/-! ### Evaluation keeps numbers finite -/

/-- If the value is a number, then it is a finite one. -/
def Value.IsFinite (v : Value) : Prop := ∀ x, v = .number x → x.isFinite = true

theorem Value.isFinite_number : (number x).IsFinite ↔ x.isFinite = true := by
  constructor
  · exact fun h => h x rfl
  · rintro h _ ⟨⟩
    exact h

theorem Value.isFinite_text (content : String) : (text content).IsFinite := nofun

theorem Value.isFinite_fault (f : Fault) : (fault f).IsFinite := nofun

/-- A result that is a number has passed the test for being finite. -/
theorem isFinite_of_finite_eq_ok (h : finite x = .ok y) : y.isFinite = true := by
  unfold finite at h
  split at h
  · cases h
    assumption
  · cases h

theorem Operator.isFinite_of_apply_eq_ok {op : Operator} {z : Float} (h : op.apply x y = .ok z) :
    z.isFinite = true := by
  cases op with
  | add => exact isFinite_of_finite_eq_ok h
  | subtract => exact isFinite_of_finite_eq_ok h
  | multiply => exact isFinite_of_finite_eq_ok h
  | divide =>
    simp only [Operator.apply] at h
    split at h
    · cases h
    · exact isFinite_of_finite_eq_ok h

theorem Aggregate.isFinite_of_apply_eq_ok {fn : Aggregate}
    (h : fn.apply context first last = .ok x) : x.isFinite = true := by
  obtain ⟨t, -, hfinite⟩ := exists_tally_of_apply_eq_ok h
  exact isFinite_of_finite_eq_ok hfinite

/-- A finite value counts as a finite number. -/
theorem Value.isFinite_of_toNumber_eq_ok (hv : v.IsFinite) (h : v.toNumber = .ok x) :
    x.isFinite = true := by
  cases v with
  | number y =>
    cases h
    exact isFinite_number.mp hv
  | text content =>
    cases h
    decide
  | fault f => cases h

theorem Formula.isFinite_of_evaluate_eq_ok {formula : Formula}
    (hcontext : ∀ a, (context a).IsFinite) (h : formula.evaluate context = .ok x) :
    x.isFinite = true := by
  -- operands need no induction, since an operation checks its result whatever they are
  cases formula using evaluate.induct with
  | case1 y => exact isFinite_of_finite_eq_ok h
  | case2 a =>
    rw [evaluate] at h
    exact Value.isFinite_of_toNumber_eq_ok (hcontext a) h
  | case3 first last => cases h
  | case4 op left right =>
    obtain ⟨y, z, -, -, happly⟩ := exists_of_evaluate_binary_eq_ok h
    exact Operator.isFinite_of_apply_eq_ok happly
  | case5 fn first last =>
    rw [evaluate] at h
    exact Aggregate.isFinite_of_apply_eq_ok h
  | case6 fn arguments hne =>
    rw [evaluate] at h
    · cases h
    · exact hne

/-- **Formulas keep numbers finite.** Only the value of a cell goes unchecked into the result. -/
theorem Formula.isFinite_evaluate (hcontext : ∀ a, (context a).IsFinite) (formula : Formula) :
    (Value.ofResult (formula.evaluate context)).IsFinite := by
  cases hresult : formula.evaluate context with
  | error e => exact Value.isFinite_fault e
  | ok x => exact Value.isFinite_number.mpr (isFinite_of_evaluate_eq_ok hcontext hresult)

/-! ### Edits keep numbers finite -/

theorem Value.isFinite_ofLiteral (input : String) : (ofLiteral input).IsFinite := by
  unfold ofLiteral
  split
  · split
    · exact isFinite_number.mpr ‹_›
    · exact isFinite_text input
  · exact isFinite_text input

theorem Cell.isFinite_ofInput (grid : Grid) (input : String) :
    (ofInput grid input).value.IsFinite := by
  unfold ofInput
  split
  · split
    · exact Value.isFinite_text ""
    · exact Value.isFinite_fault _
  · exact Value.isFinite_ofLiteral input

theorem Cell.isFinite_recompute {c : Cell} (hc : c.value.IsFinite)
    (hcontext : ∀ a, (context a).IsFinite) : (c.recompute context).value.IsFinite := by
  unfold recompute
  split
  · exact Formula.isFinite_evaluate hcontext _
  · exact hc

namespace CellTable

variable {cells : CellTable}

/-- No cell of the table holds an infinite number or a NaN. -/
def Finite (cells : CellTable) : Prop := ∀ (a : Address) (c : Cell), cells[a]? = some c → c.value.IsFinite

namespace Finite

theorem isFinite_context (h : cells.Finite) (a : Address) : (cells.context a).IsFinite := by
  unfold CellTable.context
  split
  · exact h a _ ‹_›
  · exact Value.isFinite_text ""

theorem update (h : cells.Finite) {f : Cell → Cell}
    (hf : ∀ c, c.value.IsFinite → (f c).value.IsFinite) (a : Address) :
    (cells.update f a).Finite := by
  intro b c hc
  rw [getElem?_update] at hc
  split at hc
  · obtain ⟨d, hd, rfl⟩ := Option.map_eq_some_iff.mp hc
    exact hf d (h b d hd)
  · exact h b c hc

/-- **Carrying out a plan keeps numbers finite**, whatever the plan. -/
theorem carryOut (h : cells.Finite) (plan : Plan) : (cells.carryOut plan).Finite := by
  have hpinned : (plan.pinned.foldl (fun cells a => cells.update Cell.pin a) cells).Finite :=
    List.foldlRecOn (motive := Finite) _ _ h fun cells hcells a _ =>
      hcells.update (fun c _ => Value.isFinite_fault _) a
  exact List.foldlRecOn (motive := Finite) _ _ hpinned fun cells hcells a _ =>
    hcells.update (fun c hc => Cell.isFinite_recompute hc hcells.isFinite_context) a

end Finite

end CellTable

namespace Sheet

variable {s : Sheet} {c : Cell} {P : Set Address}

theorem finite_replace (h : s.cells.Finite) (a : Address) (input : String) :
    (s.replace a input).cells.Finite := by
  intro b c hc
  by_cases hba : b = a
  · rw [hba, ← cell?, cell?_replace_self] at hc
    split at hc
    · cases hc
    · cases hc
      exact Cell.isFinite_recompute (Cell.isFinite_ofInput _ _) h.isFinite_context
  · rw [← cell?, cell?_replace_of_ne s input hba] at hc
    exact h b c hc

/-- **No sheet holds an infinite number or a NaN.** -/
theorem finite_run (grid : Grid) (edits : List Edit) : (run grid edits).cells.Finite := by
  refine run_induction (motive := fun s => s.cells.Finite) ?_ ?_ edits
  · intro a c hc
    rw [empty, Std.TreeMap.getElem?_emptyc] at hc
    cases hc
  · intro s a input _ _ h
    exact (finite_replace h a input).carryOut _

end Sheet

/-! ### The kind of a value -/

theorem Value.exists_ofResult (r : Except Fault Float) :
    (∃ x, ofResult r = number x) ∨ ∃ f, ofResult r = fault f := by
  cases r with
  | error f => exact .inr ⟨f, rfl⟩
  | ok x => exact .inl ⟨x, rfl⟩

theorem Value.exists_ofLiteral (input : String) :
    (∃ x, ofLiteral input = number x) ∨ ∃ content, ofLiteral input = text content := by
  unfold ofLiteral
  split
  · split
    · exact .inl ⟨_, rfl⟩
    · exact .inr ⟨input, rfl⟩
  · exact .inr ⟨input, rfl⟩

/-- An input that is marked as a formula but cannot be read has a fault as its value. -/
theorem Cell.exists_fault_of_marked {grid : Grid} {input : String}
    (h : Formula.isMarked input = true) (hnone : (ofInput grid input).formula = none) :
    ∃ f, (ofInput grid input).value = .fault f := by
  unfold ofInput at hnone ⊢
  rw [if_pos h] at hnone ⊢
  split at hnone
  · cases hnone
  · exact ⟨_, rfl⟩

namespace Sheet

variable {s : Sheet} {c : Cell} {P : Set Address}

/-- What is no formula is a number or a text. -/
theorem Stored.kind_of_not_marked (h : s.Stored) (hc : s.cell? a = some c)
    (hmarked : c.isMarked = false) :
    c.formula = none ∧ ((∃ x, c.value = .number x) ∨ ∃ content, c.value = .text content) := by
  have hinput := Cell.ofInput_of_not_marked hmarked s.grid
  have hformula : c.formula = none := by rw [(h.kept a c hc).formula_eq, hinput]
  refine ⟨hformula, ?_⟩
  rw [(h.kept a c hc).literal hformula, hinput]
  exact Value.exists_ofLiteral c.input

/-- A formula, whether it can be read or not, ends in a number or a fault. -/
theorem Settled.kind_of_marked (h : s.Stored) (hs : s.Settled P) (hc : s.cell? a = some c)
    (hmarked : c.isMarked = true) :
    (∃ x, c.value = .number x) ∨ ∃ f, c.value = .fault f := by
  cases hformula : c.formula with
  | none =>
    have hkept := (h.kept a c hc).literal hformula
    rw [hkept] at hformula
    rw [hkept]
    exact .inr (Cell.exists_fault_of_marked hmarked hformula)
  | some formula =>
    by_cases ha : a ∈ P
    · obtain ⟨d, hd, hvalue⟩ := hs.pinned a ha
      cases hc.symm.trans hd
      exact .inr ⟨_, hvalue⟩
    · rw [hs.value_eq ha hc hformula]
      exact Value.exists_ofResult _

end Sheet

/-! ### What is displayed -/

/-- The text of a finite number has no other characters than digits, a point and a sign. -/
theorem isDigit_of_mem_numberText {c : Char} (hx : x.isFinite = true)
    (hc : c ∈ (numberText x).toList) : c.isDigit = true ∨ c = '.' ∨ c = '-' := by
  obtain ⟨digits, whole, fraction, hin, htext⟩ := exists_inDigits_numberText hx
  rw [htext] at hc
  split at hc
  · rcases List.mem_cons.mp hc with rfl | hc
    · exact .inr (.inr rfl)
    · exact (hin.isNumeral.chars c hc).imp_right .inl
  · exact (hin.isNumeral.chars c hc).imp_right .inl

theorem numberText_ne_label (hx : x.isFinite = true) (f : Fault) : numberText x ≠ f.label := by
  intro heq
  have hsharp : '#' ∈ (numberText x).toList := by
    rw [heq, Fault.label, String.toList_append]
    exact List.mem_append_left _ (by decide)
  rcases isDigit_of_mem_numberText hx hsharp with h | h | h <;> cases h

theorem Fault.label_eq_iff {e f : Fault} : e.label = f.label ↔ e.tag = f.tag := by
  rw [label, label, String.append_right_inj]

/-- **A label is shown for a fault**, and for nothing else that a formula can end in. -/
theorem Value.display_eq_label_iff (hfinite : v.IsFinite)
    (hkind : (∃ x, v = number x) ∨ ∃ f, v = fault f) (f : Fault) :
    v.display = f.label ↔ ∃ e, v = fault e ∧ e.tag = f.tag := by
  rcases hkind with ⟨x, rfl⟩ | ⟨e, rfl⟩
  · refine iff_of_false (numberText_ne_label (isFinite_number.mp hfinite) f) ?_
    rintro ⟨e, he, -⟩
    cases he
  · rw [display, Fault.label_eq_iff]
    simp

namespace Sheet

variable {s : Sheet} {c : Cell} {P : Set Address}

/-- The value asked for is the one that formulas read, except that zero stands for a blank. -/
theorem valueOf_eq (s : Sheet) (a : Address) :
    s.valueOf a = if (s.context a).isBlank then .number 0 else s.context a := by
  unfold valueOf
  cases hc : s.cell? a with
  | none =>
    have hblank : Value.blank.isBlank = true := rfl
    rw [context_eq_of_cell?_eq_none hc, if_pos hblank]
  | some c => rw [context_eq_of_cell? hc]

theorem isFinite_valueOf (h : s.cells.Finite) (a : Address) : (s.valueOf a).IsFinite := by
  rw [valueOf_eq]
  split
  · exact Value.isFinite_number.mpr (by decide)
  · exact h.isFinite_context a

theorem Stored.valueOf_ne_fault (h : s.Stored) (hmarked : Formula.isMarked (s.inputOf a) = false)
    (f : Fault) : s.valueOf a ≠ .fault f := by
  intro hfault
  rw [valueOf_eq] at hfault
  split at hfault
  · cases hfault
  · obtain ⟨c, hc, hvalue⟩ := context_eq_fault_iff.mp hfault
    rw [inputOf_eq_of_cell? hc] at hmarked
    obtain ⟨-, ⟨x, hx⟩ | ⟨content, hcontent⟩⟩ := h.kind_of_not_marked hc hmarked
    · cases hx.symm.trans hvalue
    · cases hcontent.symm.trans hvalue

theorem exists_cell?_of_marked (hmarked : Formula.isMarked (s.inputOf a) = true) :
    ∃ c, s.cell? a = some c ∧ c.isMarked = true := by
  cases hc : s.cell? a with
  | none =>
    rw [inputOf, hc] at hmarked
    exact absurd hmarked (by decide)
  | some c => exact ⟨c, rfl, by rwa [inputOf_eq_of_cell? hc] at hmarked⟩

/-- Of a formula cell the value is displayed. -/
theorem displayOf_of_marked (hmarked : Formula.isMarked (s.inputOf a) = true) :
    s.displayOf a = (s.context a).display := by
  obtain ⟨c, hc, hcmarked⟩ := exists_cell?_of_marked hmarked
  rw [displayOf, hc, context_eq_of_cell? hc]
  exact if_pos hcmarked

theorem Settled.context_of_marked (h : s.Stored) (hs : s.Settled P)
    (hmarked : Formula.isMarked (s.inputOf a) = true) :
    (∃ x, s.context a = .number x) ∨ ∃ f, s.context a = .fault f := by
  obtain ⟨c, hc, hcmarked⟩ := exists_cell?_of_marked hmarked
  rw [context_eq_of_cell? hc]
  exact hs.kind_of_marked h hc hcmarked

/-- The value of a formula cell is never a blank. -/
theorem Settled.valueOf_of_marked (h : s.Stored) (hs : s.Settled P)
    (hmarked : Formula.isMarked (s.inputOf a) = true) : s.valueOf a = s.context a := by
  rw [valueOf_eq]
  obtain ⟨x, hx⟩ | ⟨e, he⟩ := hs.context_of_marked h hmarked
  · rw [hx]
    rfl
  · rw [he]
    rfl

/-- What is displayed for a formula cell is a label if and only if its value is a fault. -/
theorem Settled.displayOf_eq_label_iff (h : s.Stored) (hfinite : s.cells.Finite) (hs : s.Settled P)
    (hmarked : Formula.isMarked (s.inputOf a) = true) (f : Fault) :
    s.displayOf a = f.label ↔ ∃ e, s.valueOf a = .fault e ∧ e.tag = f.tag := by
  rw [displayOf_of_marked hmarked, hs.valueOf_of_marked h hmarked]
  exact Value.display_eq_label_iff (hfinite.isFinite_context a) (hs.context_of_marked h hmarked) f

/-- The values are of the kinds that the inputs call for. -/
structure ValuesFit (s : Sheet) : Prop where
  /-- Numbers are finite. -/
  finite : ∀ a c x, s.cell? a = some c → c.value = .number x → x.isFinite = true
  /-- The value of a formula is no text. -/
  marked : ∀ a c, s.cell? a = some c → c.isMarked = true →
    (∃ x, c.value = .number x) ∨ ∃ f, c.value = .fault f
  /-- The value of any other input is no fault, and there is no formula. -/
  literal : ∀ a c, s.cell? a = some c → c.isMarked = false →
    c.formula = none ∧ ((∃ x, c.value = .number x) ∨ ∃ content, c.value = .text content)
  /-- Among formulas it is the invalid ones that are displayed as such. -/
  displayOf_eq_err : ∀ a, Formula.isMarked (s.inputOf a) = true →
    (s.displayOf a = "#ERR" ↔ ∃ e, s.valueOf a = .fault e ∧ e.tag = "ERR")
  /-- Among formulas it is the circular ones that are displayed as such. -/
  displayOf_eq_cyc : ∀ a, Formula.isMarked (s.inputOf a) = true →
    (s.displayOf a = "#CYC" ↔ ∃ e, s.valueOf a = .fault e ∧ e.tag = "CYC")
  /-- The answer to a question for a value is no infinite number and no NaN. -/
  finite_valueOf : ∀ a x, s.valueOf a = .number x → x.isFinite = true
  /-- The answer is no fault, unless the input is marked as a formula. -/
  valueOf_ne_fault : ∀ a f, Formula.isMarked (s.inputOf a) = false → s.valueOf a ≠ .fault f

/-- **The values of every sheet fit.** Whatever the edits, numbers are finite, formulas hold numbers
or faults, other inputs hold numbers or texts, and labels are displayed for the faults alone. -/
theorem values_fit (grid : Grid) (edits : List Edit) : (run grid edits).ValuesFit := by
  have hstored := stored_run grid edits
  have hfinite := finite_run grid edits
  obtain ⟨P, hP⟩ := exists_settled_run grid edits
  refine
    { finite := fun a c x hc => hfinite a c hc x
      marked := fun a c => hP.kind_of_marked hstored
      literal := fun a c => hstored.kind_of_not_marked
      displayOf_eq_err := fun a hmarked => ?_
      displayOf_eq_cyc := fun a hmarked => ?_
      finite_valueOf := isFinite_valueOf hfinite
      valueOf_ne_fault := fun a f hmarked => hstored.valueOf_ne_fault hmarked f }
  · exact hP.displayOf_eq_label_iff hstored hfinite hmarked (.invalid "")
  · exact hP.displayOf_eq_label_iff hstored hfinite hmarked (.circular "")

end Sheet

end Worksheet
