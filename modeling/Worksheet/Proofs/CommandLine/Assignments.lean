import Worksheet.Proofs.CommandLine.Arguments
import Worksheet.Proofs.Sheet.Kinds
import Worksheet.Proofs.Sheet.Warnings
import Worksheet.Proofs.Spelling
import Worksheet.Settings.Document

/-!
# Assignments show the final sheet

A run with assignments makes them one after the other, and only then looks at the sheet. So what it
writes depends on the last state alone: a cell that is assigned twice has one line, with what it shows
in the end, and a fault that a later assignment has mended is not reported
(`runCommandLine_shows_assignments`). If a name stands for no cell, the assignments before it have
been made already, but nothing of them is shown.

The log is another matter. It is told of each cycle that an assignment leads into, when it does so, and
takes nothing back when the cycle is gone in the end. What it writes is in front of what the run writes
itself on the standard error.

The two streams and the exit code are put together from two different questions about a cell, one for
the text shown and one for the value. They agree about faults, since a value that is asked for is a
fault just if the cell holds one (`Sheet.fault?_valueOf`).

## Main definitions

* `Edit.ofAssignment` — an assignment as an edit
* `IsCellName` — the names of the cells of a grid
* `carriedOut` — the assignments that are made
* `Output.Shows` — an output that shows cells of a sheet
* `Output.ShowsAssignments` — an output that answers to assignments

## Main results

* `Assigning.makes_assignAll` — what a sequence of assignments makes of a sheet
* `shows_report` — how cells are shown
* `warnings_carriedOut_eq_nil_iff` — when the log is told nothing
* `runCommandLine_shows_assignments` — runs with assignments
-/

namespace Worksheet

variable {s : Sheet} {a : Address} {assigned : AddressSet} {cells : List Address}
  {x : String × String} {assignments : List (String × String)} {settings : Settings}

/-- The edit that an assignment asks for. -/
def Edit.ofAssignment (assignment : String × String) : Edit :=
  .writeAt assignment.1 assignment.2

/-- The name of a cell of the grid. -/
def IsCellName (grid : Grid) (name : String) : Prop :=
  ∃ a, grid.contains a = true ∧ a.name = name

theorem Settings.isSome_parse?_iff {name : String} :
    (settings.grid.parse? name).isSome = true ↔ IsCellName settings.grid name := by
  rw [Option.isSome_iff_exists]
  exact exists_congr fun a => Settings.parse?_eq_some_iff

/-- The assignments before the first one to a name that is that of no cell. -/
def carriedOut (grid : Grid) (assignments : List (String × String)) : List (String × String) :=
  assignments.takeWhile fun x => (grid.parse? x.1).isSome

theorem carriedOut_cons_of_eq_some {grid : Grid} (ha : grid.parse? x.1 = some a) :
    carriedOut grid (x :: assignments) = x :: carriedOut grid assignments :=
  List.takeWhile_cons_of_pos (by rw [ha]; rfl)

theorem carriedOut_cons_of_eq_none {grid : Grid} (hx : grid.parse? x.1 = none) :
    carriedOut grid (x :: assignments) = [] :=
  List.takeWhile_cons_of_neg (by rw [hx]; exact Bool.false_ne_true)

theorem carriedOut_eq_self {grid : Grid}
    (h : ∀ x ∈ assignments, (grid.parse? x.1).isSome = true) :
    carriedOut grid assignments = assignments :=
  List.takeWhile_eq_self_iff.mpr h

/-! ### One assignment after the other -/

/-- An assignment to a name of the grid is an edit that succeeds. -/
theorem write_eq_apply (ha : s.grid.parse? x.1 = some a) :
    s.write a x.2 = (Edit.ofAssignment x).apply s ∧ (s.write a x.2).refusal = none := by
  have hgrid : s.grid.contains a = true := Grid.contains_of_parseChars? ha
  have happly : (Edit.ofAssignment x).apply s = s.write a x.2 := Sheet.apply_of_address? ha
  exact ⟨happly.symm, congrArg Edited.refusal (Sheet.write_of_contains hgrid x.2)⟩

theorem grid_after_ofAssignment (ha : s.grid.parse? x.1 = some a) :
    (s.after (.ofAssignment x)).grid = s.grid := by
  rw [Sheet.after, ← (write_eq_apply ha).1, Sheet.grid_write]

namespace Assigning

variable {done : Assigning}

/-- One more assignment, to a name of the grid. -/
def next (done : Assigning) (x : String × String) (a : Address) : Assigning :=
  ⟨done.sheet.after (.ofAssignment x), done.assigned.insert a,
    done.warnings ++ ((Edit.ofAssignment x).apply done.sheet).warnings⟩

theorem assignAll_cons (ha : done.sheet.grid.parse? x.1 = some a) :
    done.assignAll (x :: assignments) = (done.next x a).assignAll assignments := by
  obtain ⟨happly, hok⟩ := write_eq_apply ha
  rw [assignAll]
  simp only [ha, hok]
  rw [happly]
  rfl

theorem assignAll_cons_of_eq_none (hx : done.sheet.grid.parse? x.1 = none) :
    done.assignAll (x :: assignments) =
      (done, some (.misused (.invalidName x.1 (lastName done.sheet.grid)))) := by
  rw [assignAll]
  simp only [hx]

/-- The assignments have been made on top of what was done before. -/
structure Makes (done after : Assigning) (assignments : List (String × String)) : Prop where
  /-- They are edits, one after the other. -/
  sheet_eq : after.sheet = (assignments.map .ofAssignment).foldl Sheet.after done.sheet
  /-- The log has been told what it is told of them. -/
  warnings_eq :
    after.warnings = done.warnings ++ done.sheet.warnings (assignments.map .ofAssignment)
  /-- The cells of their names are remembered. -/
  mem_assigned_iff : ∀ b, b ∈ after.assigned ↔ b ∈ done.assigned ∨
    ∃ x ∈ assignments, done.sheet.grid.parse? x.1 = some b

theorem Makes.refl (done : Assigning) : Makes done done [] where
  sheet_eq := rfl
  warnings_eq := (List.append_nil _).symm
  mem_assigned_iff b := (or_iff_left (by simp)).symm

theorem Makes.cons {after : Assigning} (ha : done.sheet.grid.parse? x.1 = some a)
    (h : Makes (done.next x a) after assignments) : Makes done after (x :: assignments) where
  sheet_eq := h.sheet_eq
  warnings_eq := by
    rw [h.warnings_eq, next, List.append_assoc]
    rfl
  mem_assigned_iff b := by
    rw [h.mem_assigned_iff, next, grid_after_ofAssignment ha, Std.TreeSet.mem_insert,
      Std.LawfulEqOrd.compare_eq_iff_eq]
    simp only [List.mem_cons, exists_eq_or_imp, ha, Option.some.injEq]
    rw [← or_assoc, or_comm (a := a = b)]

/-- **Assignments are made** up to the first one to a name that is that of no cell. -/
theorem makes_assignAll (done : Assigning) (assignments : List (String × String)) :
    Makes done (done.assignAll assignments).1 (carriedOut done.sheet.grid assignments) := by
  -- from any point, since each assignment changes all that has been done
  induction assignments generalizing done with
  | nil => exact .refl done
  | cons x rest ih =>
    cases hx : done.sheet.grid.parse? x.1 with
    | none =>
      rw [assignAll_cons_of_eq_none hx, carriedOut_cons_of_eq_none hx]
      exact .refl done
    | some a =>
      have hrest := ih (done.next x a)
      rw [next, grid_after_ofAssignment hx] at hrest
      rw [assignAll_cons hx, carriedOut_cons_of_eq_some hx]
      exact hrest.cons hx

/-- Assignments to names of the grid are all made. -/
theorem fault_assignAll_eq_none (done : Assigning)
    (h : ∀ x ∈ assignments, (done.sheet.grid.parse? x.1).isSome = true) :
    (done.assignAll assignments).2 = none := by
  induction assignments generalizing done with
  | nil => rfl
  | cons x rest ih =>
    obtain ⟨hx, hrest⟩ := List.forall_mem_cons.mp h
    obtain ⟨a, ha⟩ := Option.isSome_iff_exists.mp hx
    rw [assignAll_cons ha]
    refine ih _ ?_
    rwa [next, grid_after_ofAssignment ha]

/-- A name that stands for no cell ends them. -/
theorem exists_fault_assignAll_eq (done : Assigning)
    (h : ∃ x ∈ assignments, done.sheet.grid.parse? x.1 = none) :
    ∃ m, (done.assignAll assignments).2 = some (.misused m) := by
  induction assignments generalizing done with
  | nil =>
    obtain ⟨x, hx, -⟩ := h
    cases hx
  | cons x rest ih =>
    cases hx : done.sheet.grid.parse? x.1 with
    | none => exact ⟨_, by rw [assignAll_cons_of_eq_none hx]⟩
    | some a =>
      obtain ⟨y, hy, hnone⟩ := h
      rcases List.mem_cons.mp hy with rfl | hy
      · cases hx.symm.trans hnone
      · rw [assignAll_cons hx]
        refine ih _ ⟨y, hy, ?_⟩
        rwa [next, grid_after_ofAssignment hx]

end Assigning

/-! ### Cells that are shown -/

/-- The output shows the cells of the sheet, in this order. -/
structure Output.Shows (output : Output) (s : Sheet) (cells : List Address) : Prop where
  /-- A line for each cell, with its name and the text shown for it. -/
  out_eq : output.out = String.join (cells.map fun a => a.name ++ "\t" ++ s.displayOf a ++ "\n")
  /-- A line for each cell that holds a fault, with its name and the message. -/
  err_eq : output.err = String.join (cells.filterMap fun a =>
    (s.context a).fault?.map fun f => a.name ++ ": " ++ f.message ++ "\n")
  code_eq_one : (∃ a ∈ cells, s.HoldsFault a) → output.code = 1
  code_eq_zero : (∀ a ∈ cells, ¬ s.HoldsFault a) → output.code = 0

/-- Zero stands for a blank, and neither is a fault. -/
theorem Sheet.fault?_valueOf (s : Sheet) (a : Address) :
    (s.valueOf a).fault? = (s.context a).fault? := by
  rw [valueOf_eq]
  split
  · rename_i hblank
    cases hvalue : s.context a with
    | number x => rfl
    | text content => rfl
    | fault f =>
      rw [hvalue] at hblank
      cases hblank
  · rfl

theorem Value.fault?_eq_some_iff {v : Value} {f : Fault} : v.fault? = some f ↔ v = .fault f := by
  cases v <;> simp [Value.fault?]

theorem Sheet.isSome_fault?_iff : ((s.context a).fault?).isSome = true ↔ s.HoldsFault a := by
  simp only [holdsFault_iff_context, Option.isSome_iff_exists, Value.fault?_eq_some_iff]

theorem errLine?_eq (s : Sheet) (a : Address) :
    errLine? s a = (s.context a).fault?.map fun f => a.name ++ ": " ++ f.message := by
  rw [errLine?, Sheet.fault?_valueOf]

/-- No line is written for faults just if there are none. -/
theorem isEmpty_errLines_iff :
    (cells.filterMap (errLine? s)).isEmpty = true ↔ ∀ a ∈ cells, ¬ s.HoldsFault a := by
  simp only [List.isEmpty_iff, List.filterMap_eq_nil_iff, errLine?_eq, Option.map_eq_none_iff,
    ← Sheet.isSome_fault?_iff, Option.not_isSome_iff_eq_none]

/-- **Cells are shown with their texts and their faults.** -/
theorem shows_report (s : Sheet) (cells : List Address) : (report s cells).Shows s cells where
  out_eq := by
    simp only [report, unlines, List.map_map]
    rfl
  err_eq := by
    simp only [report, unlines, List.map_filterMap, errLine?_eq, Option.map_map]
    rfl
  code_eq_one hfault := by
    refine if_neg fun hempty => ?_
    obtain ⟨a, ha, hholds⟩ := hfault
    exact isEmpty_errLines_iff.mp hempty a ha hholds
  code_eq_zero hnone := if_pos (isEmpty_errLines_iff.mpr hnone)

/-! ### Runs with assignments -/

/-- The output answers to the assignments: it is refused if a name is that of no cell, and otherwise
shows the assigned cells, each once and in reading order, in the sheet that the assignments make of an
empty one. -/
structure Output.ShowsAssignments (output : Output) (grid : Grid)
    (assignments : List (String × String)) : Prop where
  refused : (∃ x ∈ assignments, ¬ IsCellName grid x.1) → output.out = "" ∧ output.code = 2
  shown : (∀ x ∈ assignments, IsCellName grid x.1) →
    ∃ cells : List Address, cells.Pairwise (fun a b => compare a b = .lt) ∧
      (∀ a, a ∈ cells ↔ grid.contains a = true ∧ ∃ x ∈ assignments, a.name = x.1) ∧
      output.Shows (Sheet.run grid (assignments.map .ofAssignment)) cells

theorem showsAssignments_misuse {grid : Grid} (m : Misuse)
    (hbad : ∃ x ∈ assignments, ¬ IsCellName grid x.1) :
    (Output.misuse m).ShowsAssignments grid assignments where
  refused _ := ⟨rfl, rfl⟩
  shown hnames := by
    obtain ⟨x, hx, hname⟩ := hbad
    exact absurd (hnames x hx) hname

/-- Once all assignments have been made, what is shown is the sheet that they make. -/
theorem showsAssignments_report {after : Assigning}
    (h : Assigning.Makes (.start settings.grid) after assignments)
    (hnames : ∀ x ∈ assignments, IsCellName settings.grid x.1) :
    (report after.sheet after.assigned.toList).ShowsAssignments settings.grid assignments where
  refused hbad := by
    obtain ⟨x, hx, hname⟩ := hbad
    exact absurd (hnames x hx) hname
  shown _ := by
    refine ⟨after.assigned.toList, Std.TreeSet.ordered_toList, fun a => ?_, ?_⟩
    · rw [Std.TreeSet.mem_toList, h.mem_assigned_iff]
      show a ∈ (∅ : AddressSet) ∨ (∃ x ∈ assignments, settings.grid.parse? x.1 = some a) ↔ _
      rw [or_iff_right Std.TreeSet.not_mem_emptyc]
      simp only [Settings.parse?_eq_some_iff]
      constructor
      · rintro ⟨x, hx, ha, hname⟩
        exact ⟨ha, x, hx, hname⟩
      · rintro ⟨ha, x, hx, hname⟩
        exact ⟨x, hx, ha, hname⟩
    · rw [h.sheet_eq]
      exact shows_report _ _

/-- What is written of assignments, with the log in front. -/
theorem exists_showsAssignments (log : Log) (settings : Settings)
    (assignments : List (String × String)) :
    ∃ shown : Output, shown.ShowsAssignments settings.grid assignments ∧
      showAssigned log settings.grid assignments =
        shown.logged log ((Sheet.empty settings.grid).warnings
          ((carriedOut settings.grid assignments).map .ofAssignment)) := by
  have hmakes : Assigning.Makes (.start settings.grid)
      ((Assigning.start settings.grid).assignAll assignments).1
      (carriedOut settings.grid assignments) := Assigning.makes_assignAll _ _
  have hwarnings := hmakes.warnings_eq
  by_cases hnames : ∀ x ∈ assignments, IsCellName settings.grid x.1
  · have hvalid : ∀ x ∈ assignments, (settings.grid.parse? x.1).isSome = true := fun x hx =>
      Settings.isSome_parse?_iff.mpr (hnames x hx)
    have hfault := Assigning.fault_assignAll_eq_none (.start settings.grid) hvalid
    refine ⟨_, showsAssignments_report (carriedOut_eq_self hvalid ▸ hmakes) hnames, ?_⟩
    simp only [showAssigned, hfault, hwarnings]
    rfl
  · obtain ⟨x, hx, hname⟩ : ∃ x ∈ assignments, ¬ IsCellName settings.grid x.1 := by
      simpa only [not_forall, exists_prop] using hnames
    have hnone : settings.grid.parse? x.1 = none := by
      rwa [← Settings.isSome_parse?_iff, Option.not_isSome_iff_eq_none] at hname
    obtain ⟨m, hm⟩ := Assigning.exists_fault_assignAll_eq (.start settings.grid) ⟨x, hx, hnone⟩
    refine ⟨.misuse m, showsAssignments_misuse m ⟨x, hx, hname⟩, ?_⟩
    simp only [showAssigned, hm, hwarnings]
    rfl

/-- **The log is told nothing** just if no assignment that is made leads into a cycle. -/
theorem warnings_carriedOut_eq_nil_iff (grid : Grid) (assignments : List (String × String)) :
    (Sheet.empty grid).warnings ((carriedOut grid assignments).map .ofAssignment) = [] ↔
      ∀ done x rest, carriedOut grid assignments = done ++ x :: rest →
        ¬ (Sheet.run grid (done.map .ofAssignment)).LeadsIntoCycle (.ofAssignment x) := by
  rw [Sheet.warnings_eq_nil_iff]
  constructor
  · intro h done x rest heq
    refine h _ _ (rest.map .ofAssignment) ?_
    rw [heq, List.map_append, List.map_cons]
  · intro h done edit rest heq
    obtain ⟨done, tail, hsplit, rfl, htail⟩ := List.map_eq_append_iff.mp heq
    obtain ⟨x, rest, rfl, rfl, rfl⟩ := List.map_eq_cons_iff.mp htail
    exact h done x rest hsplit

/-- The last assignment breaks the cycle and brings a fault, which both cells show. That there was a
cycle is in the log. -/
example :
    let content := "columns = 3\nrows = 1\n".toUTF8
    let log : Log := ⟨fun warnings => unlines (warnings.map Warning.message)⟩
    runCommandLine ⟨⟨fun _ => .ok content, none⟩, Settings.readDocument, log⟩
        ["--config", "small.toml", "B1==A1", "A1==B1+1", "C1=x=y", "A1==1/0"] =
      ⟨"A1\t#ERR\nB1\t#ERR\nC1\tx=y\n",
        "circular reference\nA1: Division by zero\nB1: Division by zero\n", 1⟩ := by
  decide +kernel

end Worksheet
