import Worksheet.Proofs.Sheet.Faults

/-!
# Where circular references show

A sheet shows a circular reference in the cells that are pinned, and in cells that read one of
those, directly or through others, and come upon the circular reference first. So every cycle has a
cell that shows it, every cell that shows one can be traced back to a cycle, and a sheet without
cycles shows none.

It is not true that every cell on a cycle shows a circular reference. Where cycles overlap, a cell
may be on a cycle of which another cell was pinned already. Such a cell is computed like any other,
and what it holds is the first fault that its formula meets. This is always some fault
(`Sheet.Settled.holdsFault_of_onCycle`), but if the formula runs into one of its own before it
reads the cycle, then it is that fault.

## Main definitions

* `Sheet.ShowsCircular` — the cell holds a circular reference
* `Sheet.CircularChain` — cells by which a circular reference can be traced back to a cycle

## Main results

* `Sheet.showsCircular_exactly` — circular references show where cycles cause them
* `Sheet.showsCircular_iff_of_onCycle` — which cells on a cycle show it
-/

namespace Worksheet

open Relation (ReflTransGen TransGen)

namespace Sheet

variable {s : Sheet} {a b : Address} {c : Cell} {f : Fault} {P : Set Address}

/-- The value of the cell is a circular reference. -/
def ShowsCircular (s : Sheet) (a : Address) : Prop :=
  ∃ c message, s.cell? a = some c ∧ c.value = .fault (.circular message)

/-- The chain leads from a cycle to the cell. Each of its cells is read by the next one, and all of
them show a circular reference. -/
structure CircularChain (s : Sheet) (chain : List Address) (a : Address) : Prop where
  feeds : chain.IsChain s.graph.Feeds
  shows : ∀ b ∈ chain, s.ShowsCircular b
  last : chain.getLast? = some a
  first : ∃ b ∈ chain.head?, s.graph.OnCycle b

theorem showsCircular_iff_context :
    s.ShowsCircular a ↔ ∃ message, s.context a = .fault (.circular message) := by
  simp only [ShowsCircular, context_eq_fault_iff]
  exact exists_comm

/-! ### Tracing back -/

theorem CircularChain.concat {chain : List Address} (h : s.CircularChain chain b)
    (hba : s.graph.Feeds b a) (ha : s.ShowsCircular a) : s.CircularChain (chain ++ [a]) a where
  feeds := by
    refine List.isChain_append.mpr ⟨h.feeds, .singleton a, ?_⟩
    intro x hx y hy
    rw [h.last, Option.mem_some_iff] at hx
    rw [List.head?_cons, Option.mem_some_iff] at hy
    rwa [← hx, ← hy]
  shows x hx := by
    rcases List.mem_append.mp hx with hx | hx
    · exact h.shows x hx
    · rwa [List.mem_singleton.mp hx]
  last := List.getLast?_concat
  first := by
    obtain ⟨d, hd, hcycle⟩ := h.first
    refine ⟨d, ?_, hcycle⟩
    rw [List.head?_append, Option.mem_def.mp hd]
    rfl

/-- No input shows a circular reference by itself. -/
theorem value_ofInput_ne_circular (grid : Grid) (input message : String) :
    (Cell.ofInput grid input).value ≠ .fault (.circular message) := by
  unfold Cell.ofInput
  split
  · split
    · exact nofun
    · exact nofun
  · unfold Value.ofLiteral
    split
    · split
      · exact nofun
      · exact nofun
    · exact nofun

namespace Settled

theorem showsCircular_of_mem (hs : s.Settled P) (ha : a ∈ P) : s.ShowsCircular a := by
  obtain ⟨c, hc, hvalue⟩ := hs.pinned a ha
  exact ⟨c, _, hc, hvalue⟩

/-- A cell that is not pinned has its circular reference from a cell that it reads. -/
theorem exists_feeds_of_showsCircular (h : s.Stored) (hs : s.Settled P) (ha : a ∉ P)
    (hshow : s.ShowsCircular a) : ∃ b, s.graph.Feeds b a ∧ s.ShowsCircular b := by
  obtain ⟨c, message, hc, hvalue⟩ := hshow
  cases hformula : c.formula with
  | none =>
    rw [(h.kept a c hc).literal hformula] at hvalue
    exact absurd hvalue (value_ofInput_ne_circular _ _ _)
  | some formula =>
    rw [hs.value_eq ha hc hformula] at hvalue
    cases hresult : formula.evaluate s.context with
    | ok x =>
      rw [hresult] at hvalue
      cases hvalue
    | error e =>
      rw [hresult] at hvalue
      cases hvalue
      obtain ⟨b, hread, hb⟩ := Formula.exists_reads_of_evaluate_eq_circular hresult
      obtain ⟨d, hd, -⟩ := context_eq_fault_iff.mp hb
      refine ⟨b, h.feeds hc (Cell.mem_dependsOn.mpr ⟨formula, hformula, hread⟩) ?_,
        showsCircular_iff_context.mpr ⟨message, hb⟩⟩
      exact h.contains b d hd

theorem circularChain_of_mem (hs : s.Settled P) (ha : a ∈ P) : s.CircularChain [a] a where
  feeds := .singleton a
  shows b hb := by
    rw [List.mem_singleton.mp hb]
    exact hs.showsCircular_of_mem ha
  last := rfl
  first := ⟨a, rfl, Graph.onCycle_iff.mpr (hs.clears.transGen ha)⟩

/-- Every circular reference can be traced back to a cycle. -/
theorem exists_circularChain (h : s.Stored) (hs : s.Settled P) (hshow : s.ShowsCircular a) :
    ∃ chain, s.CircularChain chain a := by
  induction a using hs.wellFounded_within.induction with
  | _ a ih =>
    by_cases ha : a ∈ P
    · exact ⟨[a], hs.circularChain_of_mem ha⟩
    obtain ⟨b, hba, hb⟩ := exists_feeds_of_showsCircular h hs ha hshow
    have hchain : ∃ chain, s.CircularChain chain b := by
      by_cases hbP : b ∈ P
      · exact ⟨[b], hs.circularChain_of_mem hbP⟩
      · exact ih b ⟨hba, ⟨Set.mem_univ b, hbP⟩, ⟨Set.mem_univ a, ha⟩⟩ hb
    obtain ⟨chain, hchain⟩ := hchain
    exact ⟨chain ++ [a], hchain.concat hba hshow⟩

end Settled

/-- **Circular references show exactly where cycles cause them.** Every cycle has a cell that shows
one. Every cell that shows one is at the end of a chain of such cells, each read by the next, that
starts on a cycle. Without cycles, no cell shows one. -/
theorem showsCircular_exactly (grid : Grid) (edits : List Edit) :
    (∀ cells, (run grid edits).graph.IsCycle cells →
      ∃ a ∈ cells, (run grid edits).ShowsCircular a) ∧
    (∀ a, (run grid edits).ShowsCircular a → ∃ chain, (run grid edits).CircularChain chain a) ∧
    ((∀ a, ¬ (run grid edits).graph.OnCycle a) → ∀ a, ¬ (run grid edits).ShowsCircular a) := by
  have h := stored_run grid edits
  obtain ⟨P, hs⟩ := exists_settled_run grid edits
  refine ⟨?_, fun a hshow => hs.exists_circularChain h hshow, ?_⟩
  · intro cells hcycle
    obtain ⟨a, ha, hnot⟩ := hcycle.exists_notMem hs.clears.not_endless
    refine ⟨a, ha, hs.showsCircular_of_mem ?_⟩
    by_contra haP
    exact hnot ⟨Set.mem_univ a, haP⟩
  · intro hacyclic a hshow
    obtain ⟨chain, hchain⟩ := hs.exists_circularChain h hshow
    obtain ⟨b, -, hb⟩ := hchain.first
    exact hacyclic b hb

/-! ### Cells on a cycle -/

/-- What a cell on a cycle holds: a circular reference if it is pinned, and otherwise the fault that
its formula comes upon. -/
theorem Settled.fault_of_onCycle (h : s.Stored) (hs : s.Settled P) (ha : s.graph.OnCycle a) :
    ∃ formula f, s.formulaOf a = some formula ∧ s.context a = .fault f ∧
      (a ∉ P → formula.evaluate s.context = .error f) := by
  have hreach := Graph.onCycle_iff.mp ha
  obtain ⟨f, hf⟩ := holdsFault_iff_context.mp (hs.holdsFault_of_onCycle h ha)
  obtain ⟨b, -, hba⟩ := TransGen.tail'_iff.mp hreach
  obtain ⟨c, hc, hread⟩ := h.exists_of_feeds hba
  obtain ⟨formula, hformula, -⟩ := Cell.mem_dependsOn.mp hread
  refine ⟨formula, f, ?_, hf, ?_⟩
  · rw [formulaOf, hc, Option.bind_some, hformula]
  · intro haP
    rw [context_eq_of_cell? hc, hs.value_eq haP hc hformula] at hf
    cases hresult : formula.evaluate s.context with
    | ok x =>
      rw [hresult] at hf
      cases hf
    | error e =>
      rw [hresult] at hf
      cases hf
      rfl

/-- **Which cells on a cycle show a circular reference**: those that are pinned, and those whose
formulas do not come upon a fault of another sort first. The others hold that fault. -/
theorem showsCircular_iff_of_onCycle (grid : Grid) (edits : List Edit) {a : Address}
    (ha : (run grid edits).graph.OnCycle a) :
    ((run grid edits).ShowsCircular a ↔ (run grid edits).graph.Pinned a ∨
      ∀ formula message, (run grid edits).formulaOf a = some formula →
        formula.evaluate (run grid edits).context ≠ .error (.invalid message)) ∧
    ((run grid edits).ShowsCircular a ∨
      ∃ message, (run grid edits).context a = .fault (.invalid message)) := by
  have h := stored_run grid edits
  obtain ⟨P, hs⟩ := exists_settled_run grid edits
  rw [Graph.pinned_iff hs.clears]
  obtain ⟨formula, f, hformula, hf, hresult⟩ := hs.fault_of_onCycle h ha
  by_cases haP : a ∈ P
  · have hshow := hs.showsCircular_of_mem haP
    exact ⟨iff_of_true hshow (.inl haP), .inl hshow⟩
  have hevaluate := hresult haP
  cases f with
  | circular message =>
    have hshow : (run grid edits).ShowsCircular a := showsCircular_iff_context.mpr ⟨message, hf⟩
    refine ⟨iff_of_true hshow (.inr ?_), .inl hshow⟩
    intro formula' message' hformula' hinvalid
    cases hformula.symm.trans hformula'
    cases hevaluate.symm.trans hinvalid
  | invalid message =>
    refine ⟨iff_of_false ?_ ?_, .inr ⟨message, hf⟩⟩
    · intro hshow
      obtain ⟨message', hcircular⟩ := showsCircular_iff_context.mp hshow
      cases hf.symm.trans hcircular
    · rintro (hin | hnone)
      · exact haP hin
      · exact hnone formula message hformula hevaluate

theorem showsCircular_iff_of_self_reference :
    let s := run .standard [.write ⟨0, 0⟩ "=1/0+A1"]
    s.graph.OnCycle ⟨0, 0⟩ ∧
      (s.ShowsCircular ⟨0, 0⟩ ↔ s.graph.Pinned ⟨0, 0⟩ ∨
        ∀ formula message, s.formulaOf ⟨0, 0⟩ = some formula →
          formula.evaluate s.context ≠ .error (.invalid message)) ∧
      (s.ShowsCircular ⟨0, 0⟩ ∨ ∃ message, s.context ⟨0, 0⟩ = .fault (.invalid message)) := by
  intro s
  have hinput : s.inputOf ⟨0, 0⟩ = "=1/0+A1" := inputOf_run_write_self [] rfl "=1/0+A1"
  have hgrid : s.grid = .standard := grid_run .standard _
  have hread : (⟨0, 0⟩ : Address) ∈ s.dependenciesOf ⟨0, 0⟩ := by
    rw [(stored_run .standard _).dependenciesOf_eq, hinput, hgrid]
    decide +kernel
  have hfeeds : s.graph.Feeds ⟨0, 0⟩ ⟨0, 0⟩ :=
    ((stored_run .standard _).feeds_iff ⟨0, 0⟩ ⟨0, 0⟩).mpr ⟨by rw [hgrid]; rfl, hread⟩
  have hcycle : s.graph.OnCycle ⟨0, 0⟩ := Graph.onCycle_iff.mpr (.single hfeeds)
  exact ⟨hcycle, showsCircular_iff_of_onCycle .standard _ hcycle⟩

/-- Where cycles overlap, a cell on a cycle need not show a circular reference. Here `A1` and `B1`
read each other and are pinned. `C1` closes a second cycle through `A1`, but divides by zero before
it reads `A1`. -/
theorem exists_onCycle_not_showsCircular :
    ¬ ∀ (grid : Grid) (edits : List Edit) (a : Address), (run grid edits).graph.OnCycle a →
      (run grid edits).ShowsCircular a := by
  intro hall
  let s := run .standard
    [.write ⟨0, 0⟩ "=B1+C1", .write ⟨0, 1⟩ "=A1", .write ⟨0, 2⟩ "=1/0+A1"]
  have hfeeds : ∀ a b input, s.inputOf b = input → Grid.standard.contains a = true →
      a ∈ (Cell.ofInput .standard input).dependsOn → s.graph.Feeds a b := by
    rintro a b input rfl ha hread
    have hgrid : s.grid = .standard := grid_run .standard _
    refine ((stored_run .standard _).feeds_iff a b).mpr ⟨by rwa [hgrid], ?_⟩
    rwa [(stored_run .standard _).dependenciesOf_eq, hgrid]
  have hinput : s.inputOf ⟨0, 0⟩ = "=B1+C1" := calc
    s.inputOf ⟨0, 0⟩
      = (run .standard [.write ⟨0, 0⟩ "=B1+C1", .write ⟨0, 1⟩ "=A1"]).inputOf ⟨0, 0⟩ :=
        inputOf_run_write_of_ne [_, _] rfl "=1/0+A1" (by decide)
    _ = (run .standard [.write ⟨0, 0⟩ "=B1+C1"]).inputOf ⟨0, 0⟩ :=
        inputOf_run_write_of_ne [_] rfl "=A1" (by decide)
    _ = "=B1+C1" := inputOf_run_write_self [] rfl "=B1+C1"
  have hcycle : s.graph.OnCycle ⟨0, 2⟩ := by
    refine Graph.onCycle_iff.mpr (.tail (.single (b := ⟨0, 0⟩) ?_) ?_)
    · exact hfeeds _ _ _ hinput rfl (by decide +kernel)
    · exact hfeeds _ _ _ (inputOf_run_write_self [_, _] rfl "=1/0+A1") rfl (by decide +kernel)
  have hinvalid : s.context ⟨0, 2⟩ = .fault (.invalid "Division by zero") := by
    decide +kernel
  obtain ⟨message, hcircular⟩ := showsCircular_iff_context.mp (hall .standard _ _ hcycle)
  cases hinvalid.symm.trans hcircular

end Sheet

end Worksheet
