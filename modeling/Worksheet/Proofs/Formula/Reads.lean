import Worksheet.Cell
import Worksheet.Proofs.Formula.References
import Worksheet.Proofs.Rectangles

/-!
# What a formula reads, and what it makes of it

Whether a formula reads a cell is a matter of its syntax, `Formula.Reads`. The listed dependencies
are the cells that are read in this sense, and evaluation looks at no others.

Two further facts tie the result of an evaluation to what is read. A number results only if no cell
that is read holds a fault, whatever else the formula does. And a fault that is not one of the
faults of evaluation itself was found in a cell that is read. A circular reference is such a fault:
formulas pass it on but never raise it.

## Main definitions

* `Formula.Reads` — the formula names the cell, or a rectangle with the cell in it
* `Value.Alike` — values that formulas cannot tell apart

## Main results

* `Formula.mem_dependencies` — the listed dependencies are the cells that are read
* `Formula.dependencies_exact` — they are listed in the order of the references, each of them once
* `Formula.evaluate_congr_of_alike` — evaluation looks at the cells that are read and at no others,
  and of a text it sees no more than that it is one
* `Formula.evaluate_congr`, `Formula.evaluate_eq_of_agree` — the same for equal values, and with the
  listed cells
* `Formula.not_fault_of_evaluate_eq_ok` — a number results from no fault
* `Formula.exists_reads_of_evaluate_eq_circular` — where a circular reference comes from
* `Cell.recompute_congr_of_alike`, `Cell.recompute_congr` — the same for cells
-/

namespace Worksheet

variable {a b first last : Address} {context context' : Context} {x : Float} {f : Fault}

/-! ### Reading -/

/-- The formula names the cell, or a rectangle with the cell in it. -/
inductive Formula.Reads : Formula → Address → Prop
  | cell (a : Address) : Reads (.cell a) a
  | range {first last a : Address} (h : a ∈ Address.rectangle first last) :
      Reads (.range first last) a
  | left {op : Operator} {left right : Formula} {a : Address} (h : Reads left a) :
      Reads (.binary op left right) a
  | right {op : Operator} {left right : Formula} {a : Address} (h : Reads right a) :
      Reads (.binary op left right) a
  | argument {fn : Aggregate} {arguments : List Formula} {formula : Formula} {a : Address}
      (hmem : formula ∈ arguments) (h : Reads formula a) : Reads (.call fn arguments) a

namespace Formula

variable {op : Operator} {fn : Aggregate} {left right formula : Formula} {arguments : List Formula}

theorem not_reads_number : ¬ (number x).Reads a := nofun

theorem reads_cell_iff : (cell b).Reads a ↔ a = b := by
  constructor
  · rintro ⟨⟩
    rfl
  · rintro rfl
    exact .cell a

theorem reads_range_iff : (range first last).Reads a ↔ a ∈ Address.rectangle first last := by
  constructor
  · rintro ⟨⟩
    assumption
  · exact .range

theorem reads_binary_iff : (binary op left right).Reads a ↔ left.Reads a ∨ right.Reads a := by
  constructor
  · intro h
    cases h with
    | left h => exact .inl h
    | right h => exact .inr h
  · rintro (h | h)
    · exact .left h
    · exact .right h

theorem reads_call_iff : (call fn arguments).Reads a ↔ ∃ formula ∈ arguments, formula.Reads a := by
  constructor
  · rintro ⟨⟩
    exact ⟨_, ‹_›, ‹_›⟩
  · rintro ⟨formula, hmem, h⟩
    exact .argument hmem h

end Formula

/-! ### The listed dependencies -/

namespace Formula

mutual

/-- The references of a formula are the cells that it reads. -/
theorem mem_references : (formula : Formula) → (a ∈ formula.references ↔ formula.Reads a)
  | number x => iff_of_false List.not_mem_nil not_reads_number
  | cell b => by rw [references, List.mem_singleton, reads_cell_iff]
  | range first last => by rw [references, reads_range_iff]
  | binary op left right => by
    rw [references, List.mem_append, mem_references left, mem_references right, reads_binary_iff]
  | call fn arguments => by rw [references, mem_referencesOfAll arguments, reads_call_iff]

theorem mem_referencesOfAll : (formulas : List Formula) →
    (a ∈ referencesOfAll formulas ↔ ∃ formula ∈ formulas, formula.Reads a)
  | [] => by simp [referencesOfAll]
  | formula :: formulas => by
    rw [referencesOfAll, List.mem_append, mem_references formula, mem_referencesOfAll formulas,
      List.exists_mem_cons_iff]

end

variable {formula : Formula}

/-- **The listed dependencies** are the cells that the formula reads. -/
theorem mem_dependencies : a ∈ formula.dependencies ↔ formula.Reads a := by
  rw [dependencies, (records_gather formula).mem_toList, mem_references]

theorem nodup_dependencies (formula : Formula) : formula.dependencies.Nodup :=
  (records_gather formula).nodup

/-- **The listed dependencies are the references at their first occurrence.** For every formula, also
for one that cannot be written:

* The list is that of the references from left to right, without those that repeat an earlier one.
* Rectangles are written down in full for it, in reading order.
* A cell is listed just if the formula names it or has it in one of its rectangles.
* No cell is listed twice. -/
theorem dependencies_exact (formula : Formula) :
    formula.dependencies = formula.references.eraseDups ∧
    (∀ first last, (range first last).references.Pairwise (fun a b => compare a b = .lt) ∧
      ∀ a, a ∈ (range first last).references ↔ Address.Encloses first last a) ∧
    (∀ a, a ∈ formula.dependencies ↔ formula.Reads a) ∧
    formula.dependencies.Nodup := by
  refine ⟨(records_gather formula).toList_eq, fun first last => ?_, fun a => mem_dependencies,
    nodup_dependencies formula⟩
  exact ⟨Address.pairwise_rectangle first last, fun a => Address.mem_rectangle_iff⟩

end Formula

/-! ### Values that count alike -/

/-- Formulas cannot tell the values apart: they are the same, or both are texts. -/
inductive Value.Alike : Value → Value → Prop
  | same (v : Value) : Alike v v
  | texts (content content' : String) : Alike (.text content) (.text content')

namespace Value.Alike

variable {v w : Value}

theorem of_eq (h : v = w) : v.Alike w :=
  h ▸ .same v

theorem toNumber_eq (h : v.Alike w) : v.toNumber = w.toNumber := by
  cases h <;> rfl

theorem add_eq (h : v.Alike w) (t : Tally) : t.add v = t.add w := by
  cases h <;> rfl

end Value.Alike

/-! ### Evaluating -/

namespace Tally

variable {t t' : Tally} {values : List Value}

/-- A tally skips texts, whatever they are. -/
theorem foldlM_add_congr {cells : List Address}
    (h : ∀ a ∈ cells, (context a).Alike (context' a)) (t : Tally) :
    (cells.map context).foldlM Tally.add t = (cells.map context').foldlM Tally.add t := by
  induction cells generalizing t with
  | nil => rfl
  | cons a cells ih =>
    obtain ⟨ha, hcells⟩ := List.forall_mem_cons.mp h
    simp only [List.map_cons, List.foldlM_cons, ha.add_eq, ih hcells]

/-- A tally is made only of values without a fault. -/
theorem not_mem_of_foldlM_eq_ok (h : values.foldlM Tally.add t = .ok t') (f : Fault) :
    .fault f ∉ values := by
  induction values generalizing t with
  | nil => exact List.not_mem_nil
  | cons v values ih =>
    rw [List.foldlM_cons] at h
    rw [List.mem_cons, not_or]
    cases v with
    | number x => exact ⟨nofun, ih h⟩
    | text content => exact ⟨nofun, ih h⟩
    | fault e => cases h

/-- What ends a tally early is the fault of a value. -/
theorem mem_of_foldlM_eq_error (h : values.foldlM Tally.add t = .error f) :
    .fault f ∈ values := by
  induction values generalizing t with
  | nil => cases h
  | cons v values ih =>
    rw [List.foldlM_cons] at h
    cases v with
    | number x => exact List.mem_cons_of_mem _ (ih h)
    | text content => exact List.mem_cons_of_mem _ (ih h)
    | fault e =>
      cases h
      exact List.mem_cons_self

end Tally

/-- The fault is one of evaluation itself. -/
def Fault.IsRaised (f : Fault) : Prop := ∃ e : EvaluationFault, f = e.toFault

theorem isRaised_of_finite_eq_error (h : finite x = .error f) : f.IsRaised := by
  unfold finite at h
  split at h
  · cases h
  · cases h
    exact ⟨.overflow, rfl⟩

theorem Operator.isRaised_of_apply_eq_error {op : Operator} {y : Float}
    (h : op.apply x y = .error f) : f.IsRaised := by
  cases op with
  | add => exact isRaised_of_finite_eq_error h
  | subtract => exact isRaised_of_finite_eq_error h
  | multiply => exact isRaised_of_finite_eq_error h
  | divide =>
    simp only [Operator.apply] at h
    split at h
    · cases h
      exact ⟨.divisionByZero, rfl⟩
    · exact isRaised_of_finite_eq_error h

namespace Aggregate

variable {fn : Aggregate}

theorem apply_congr (h : ∀ a ∈ Address.rectangle first last, (context a).Alike (context' a)) :
    fn.apply context first last = fn.apply context' first last := by
  rw [apply, apply, Tally.ofValues, Tally.ofValues, Tally.foldlM_add_congr h]

/-- A function that ends in a number has counted all values of the rectangle. -/
theorem exists_tally_of_apply_eq_ok (h : fn.apply context first last = .ok x) :
    ∃ t, Tally.ofValues ((Address.rectangle first last).map context) = .ok t ∧
      finite (fn.ofTally t) = .ok x := by
  unfold apply at h
  cases htally : Tally.ofValues ((Address.rectangle first last).map context) with
  | error e =>
    rw [htally] at h
    cases h
  | ok t =>
    rw [htally] at h
    exact ⟨t, rfl, h⟩

theorem not_fault_of_apply_eq_ok (h : fn.apply context first last = .ok x)
    (ha : a ∈ Address.rectangle first last) (f : Fault) : context a ≠ .fault f := by
  intro hfault
  obtain ⟨t, htally, -⟩ := exists_tally_of_apply_eq_ok h
  exact Tally.not_mem_of_foldlM_eq_ok htally f (List.mem_map.mpr ⟨a, ha, hfault⟩)

theorem exists_of_apply_eq_error (h : fn.apply context first last = .error f) :
    f.IsRaised ∨ ∃ a ∈ Address.rectangle first last, context a = .fault f := by
  unfold apply at h
  cases htally : Tally.ofValues ((Address.rectangle first last).map context) with
  | error e =>
    rw [htally] at h
    cases h
    exact .inr (List.mem_map.mp (Tally.mem_of_foldlM_eq_error htally))
  | ok t =>
    rw [htally] at h
    exact .inl (isRaised_of_finite_eq_error h)

end Aggregate

namespace Formula

variable {formula : Formula}

/-- **Evaluation looks at the cells that are read**, and at no others, and texts are all one to
it. -/
theorem evaluate_congr_of_alike (h : ∀ a, formula.Reads a → (context a).Alike (context' a)) :
    formula.evaluate context = formula.evaluate context' := by
  induction formula using evaluate.induct with
  | case1 x => rfl
  | case2 a => rw [evaluate, evaluate, (h a (.cell a)).toNumber_eq]
  | case3 first last => rfl
  | case4 op left right ihLeft ihRight =>
    rw [evaluate, evaluate, ihLeft fun a ha => h a (.left ha), ihRight fun a ha => h a (.right ha)]
  | case5 fn first last =>
    rw [evaluate, evaluate]
    exact Aggregate.apply_congr fun a ha => h a (.argument List.mem_cons_self (.range ha))
  | case6 fn arguments hne =>
    rw [evaluate, evaluate]
    · exact hne
    · exact hne

theorem evaluate_congr (h : ∀ a, formula.Reads a → context a = context' a) :
    formula.evaluate context = formula.evaluate context' :=
  evaluate_congr_of_alike fun a ha => .of_eq (h a ha)

/-- **The listed dependencies are all that evaluation can look at.** Among values that differ only
in other cells, any formula, even one that cannot be written, has the same result: the same number
or the same fault. -/
theorem evaluate_eq_of_agree
    (h : ∀ a ∈ formula.dependencies, context a = context' a) :
    formula.evaluate context = formula.evaluate context' :=
  evaluate_congr fun a ha => h a (mem_dependencies.mpr ha)

theorem evaluate_eq_of_agree_outside :
    let formula : Formula := .binary .add (.call .sum [.range ⟨1, 1⟩ ⟨0, 0⟩]) (.cell ⟨0, 1⟩)
    let context : Context := fun a => if a.row = a.col then .number 2 else .text "none"
    let context' : Context := Function.update context ⟨2, 2⟩ (.fault (.invalid "other"))
    (∀ a ∈ formula.dependencies, context a = context' a) ∧ context ⟨2, 2⟩ ≠ context' ⟨2, 2⟩ ∧
      formula.evaluate context = formula.evaluate context' := by
  intro formula context context'
  have hunread : (⟨2, 2⟩ : Address) ∉ formula.dependencies := by
    decide +kernel
  have hagree : ∀ a ∈ formula.dependencies, context a = context' a := by
    intro a ha
    exact (Function.update_of_ne (ne_of_mem_of_not_mem ha hunread) _ _).symm
  refine ⟨hagree, ?_, evaluate_eq_of_agree hagree⟩
  rw [show context' ⟨2, 2⟩ = .fault (.invalid "other") from Function.update_self _ _ _]
  exact nofun

/-- An operation that ends in a number has been applied to two numbers. -/
theorem exists_of_evaluate_binary_eq_ok {op : Operator} {left right : Formula}
    (h : (binary op left right).evaluate context = .ok x) :
    ∃ y z, left.evaluate context = .ok y ∧ right.evaluate context = .ok z ∧
      op.apply y z = .ok x := by
  rw [evaluate] at h
  cases hleft : left.evaluate context with
  | error e =>
    rw [hleft] at h
    cases h
  | ok y =>
    cases hright : right.evaluate context with
    | error e =>
      rw [hleft, hright] at h
      cases h
    | ok z =>
      rw [hleft, hright] at h
      exact ⟨y, z, rfl, rfl, h⟩

/-- **A number results from no fault.** -/
theorem not_fault_of_evaluate_eq_ok (h : formula.evaluate context = .ok x) (ha : formula.Reads a)
    (f : Fault) : context a ≠ .fault f := by
  induction formula using evaluate.induct generalizing x with
  | case1 y => cases ha
  | case2 b =>
    cases ha
    intro hfault
    rw [evaluate, hfault] at h
    cases h
  | case3 first last => cases h
  | case4 op left right ihLeft ihRight =>
    obtain ⟨y, z, hleft, hright, -⟩ := exists_of_evaluate_binary_eq_ok h
    rcases reads_binary_iff.mp ha with ha | ha
    · exact ihLeft hleft ha
    · exact ihRight hright ha
  | case5 fn first last =>
    rw [evaluate] at h
    obtain ⟨formula, hmem, ha⟩ := reads_call_iff.mp ha
    rw [List.mem_singleton.mp hmem] at ha
    exact Aggregate.not_fault_of_apply_eq_ok h (reads_range_iff.mp ha) f
  | case6 fn arguments hne =>
    rw [evaluate] at h
    · cases h
    · exact hne

/-- A fault is raised by evaluation itself or is found in a cell that the formula reads. -/
theorem exists_reads_of_evaluate_eq_error (h : formula.evaluate context = .error f) :
    f.IsRaised ∨ ∃ a, formula.Reads a ∧ context a = .fault f := by
  induction formula using evaluate.induct with
  | case1 y => exact .inl (isRaised_of_finite_eq_error h)
  | case2 b =>
    rw [evaluate] at h
    cases hb : context b with
    | number y =>
      rw [hb] at h
      cases h
    | text content =>
      rw [hb] at h
      cases h
    | fault e =>
      rw [hb] at h
      cases h
      exact .inr ⟨b, .cell b, hb⟩
  | case3 first last =>
    cases h
    exact .inl ⟨.bareRange, rfl⟩
  | case4 op left right ihLeft ihRight =>
    rw [evaluate] at h
    cases hleft : left.evaluate context with
    | error e =>
      rw [hleft] at h
      cases h
      exact (ihLeft hleft).imp_right fun ⟨a, ha, hfault⟩ => ⟨a, .left ha, hfault⟩
    | ok y =>
      cases hright : right.evaluate context with
      | error e =>
        rw [hleft, hright] at h
        cases h
        exact (ihRight hright).imp_right fun ⟨a, ha, hfault⟩ => ⟨a, .right ha, hfault⟩
      | ok z =>
        rw [hleft, hright] at h
        exact .inl (Operator.isRaised_of_apply_eq_error h)
  | case5 fn first last =>
    rw [evaluate] at h
    exact (Aggregate.exists_of_apply_eq_error h).imp_right fun ⟨a, ha, hfault⟩ =>
      ⟨a, .argument List.mem_cons_self (.range ha), hfault⟩
  | case6 fn arguments hne =>
    rw [evaluate] at h
    · cases h
      exact .inl ⟨.rangeRequired, rfl⟩
    · exact hne

/-- **Circular references are passed on**, never raised: the formula reads a cell that shows the
same one. -/
theorem exists_reads_of_evaluate_eq_circular {message : String}
    (h : formula.evaluate context = .error (.circular message)) :
    ∃ a, formula.Reads a ∧ context a = .fault (.circular message) := by
  rcases exists_reads_of_evaluate_eq_error h with ⟨e, he⟩ | hread
  · cases he
  · exact hread

end Formula

/-! ### Cells -/

namespace Cell

variable {c : Cell} {formula : Formula}

theorem mem_dependsOn :
    a ∈ c.dependsOn ↔ ∃ formula, c.formula = some formula ∧ formula.Reads a := by
  unfold dependsOn
  split
  · rename_i formula hformula
    rw [hformula, Formula.mem_dependencies]
    simp
  · rename_i hformula
    rw [hformula]
    simp

theorem nodup_dependsOn (c : Cell) : c.dependsOn.Nodup := by
  unfold dependsOn
  split
  · exact Formula.nodup_dependencies _
  · exact List.nodup_nil

@[simp] theorem dependsOn_recompute : (c.recompute context).dependsOn = c.dependsOn := by
  rw [dependsOn, dependsOn, formula_recompute]

/-- Computing a cell again looks at the cells that it depends on. -/
theorem recompute_congr_of_alike (h : ∀ a ∈ c.dependsOn, (context a).Alike (context' a)) :
    c.recompute context = c.recompute context' := by
  unfold recompute
  split
  · rename_i formula hformula
    rw [Formula.evaluate_congr_of_alike fun a ha =>
      h a (mem_dependsOn.mpr ⟨formula, hformula, ha⟩)]
  · rfl

theorem recompute_congr (h : ∀ a ∈ c.dependsOn, context a = context' a) :
    c.recompute context = c.recompute context' :=
  recompute_congr_of_alike fun a ha => .of_eq (h a ha)

end Cell

end Worksheet
