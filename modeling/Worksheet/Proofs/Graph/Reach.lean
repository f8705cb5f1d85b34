import Worksheet.Graph.Reach
import Worksheet.Proofs.Graph.Cycles

/-!
# The cells that a walk comes across

The walk from a cell reports exactly the cells that depend on it, directly or through others
(`Graph.mem_transitiveDependents`). In particular it reports the cell itself exactly if the cell is
on a cycle.

The invariant is that a dependent can be missing only as long as the cell that it depends on is
still on the stack. It holds at the start, where only the first cell has been come across, and says
in the end, when the stack is empty, that no dependent of a cell that was come across is missing.

What is reported is a list of the cells that were come across, and it has an order. Which cell is
visited next is up to the stack, but a cell is only ever come across from one that was come across
before it. So every cell of the report has a reason among the cells that stand before it, the first
cell of the walk included (`Graph.Traced`).

## Main definitions

* `Graph.Covers` — the invariant of the walk
* `Graph.Traced`, `Graph.Records` — the invariant of what is reported
* `Graph.ListsDependents` — what a report has to be

## Main results

* `Graph.Covers.visit`, `Graph.Records.visit` — visiting a cell keeps the invariants
* `Graph.exists_of_visit` — so does the whole walk, until the stack is empty
* `Graph.mem_transitiveDependents` — which cells the walk reports
* `Graph.transitiveDependents_exact` — what the walk reports, in any graph that can be built
-/

namespace Worksheet

open Relation (ReflTransGen TransGen)

namespace Graph

variable {g : Graph} {origin a b : Address} {stack latest : List Address} {seen : AddressSet}

/-- The invariant of a walk: only cells that depend on the origin were come across, and the
dependents of those of them that are not on the stack were come across too. -/
structure Covers (g : Graph) (origin : Address) (stack : List Address) (seen : AddressSet) :
    Prop where
  sound : ∀ b ∈ seen, TransGen g.Feeds origin b
  stacked : ∀ b ∈ stack, b = origin ∨ b ∈ seen
  closed : ∀ b, b = origin ∨ b ∈ seen → b ∉ stack → ∀ c, g.Feeds b c → c ∈ seen

theorem mem_freshDependents : b ∈ g.freshDependents seen a ↔ g.Feeds a b ∧ b ∉ seen := by
  rw [freshDependents, List.mem_filter, Bool.not_eq_true', ← Bool.not_eq_true,
    Std.TreeSet.contains_iff_mem]
  rfl

theorem mem_insertMany_freshDependents :
    b ∈ seen.insertMany (g.freshDependents seen a) ↔ b ∈ seen ∨ g.Feeds a b := by
  rw [Std.TreeSet.mem_insertMany_list, List.contains_iff_mem, mem_freshDependents]
  tauto

theorem covers_start (g : Graph) (origin : Address) : g.Covers origin [origin] ∅ where
  sound _ hb := absurd hb Std.TreeSet.not_mem_emptyc
  stacked b hb := .inl (List.mem_singleton.mp hb)
  closed b hb hnot := by
    rcases hb with rfl | hb
    · exact absurd List.mem_cons_self hnot
    · exact absurd hb Std.TreeSet.not_mem_emptyc

/-- Visiting the cell on top of the stack keeps the invariant. -/
theorem Covers.visit (h : g.Covers origin (a :: stack) seen) :
    g.Covers origin (g.freshDependents seen a ++ stack)
      (seen.insertMany (g.freshDependents seen a)) where
  sound b hb := by
    rcases mem_insertMany_freshDependents.mp hb with hb | hab
    · exact h.sound b hb
    · rcases h.stacked a List.mem_cons_self with rfl | ha
      · exact .single hab
      · exact (h.sound a ha).tail hab
  stacked b hb := by
    rw [mem_insertMany_freshDependents]
    rcases List.mem_append.mp hb with hb | hb
    · exact .inr (.inr (mem_freshDependents.mp hb).1)
    · rcases h.stacked b (List.mem_cons_of_mem a hb) with hb | hb
      · exact .inl hb
      · exact .inr (.inl hb)
  closed b hb hnot c hbc := by
    rw [mem_insertMany_freshDependents] at hb ⊢
    rw [List.mem_append, not_or, mem_freshDependents] at hnot
    by_cases hba : b = a
    · exact .inr (hba ▸ hbc)
    · have hbefore : b = origin ∨ b ∈ seen := by tauto
      refine .inl (h.closed b hbefore ?_ c hbc)
      rw [List.mem_cons, not_or]
      exact ⟨hba, hnot.2⟩

/-- When nothing is left to visit, all cells that depend on the origin have been come across. -/
theorem Covers.mem_iff (h : g.Covers origin [] seen) : b ∈ seen ↔ TransGen g.Feeds origin b := by
  refine ⟨h.sound b, ?_⟩
  intro hb
  induction hb with
  | single hob => exact h.closed origin (.inl rfl) List.not_mem_nil _ hob
  | tail _ hbc ih => exact h.closed _ (.inr ih) List.not_mem_nil _ hbc

/-! ### What is reported -/

/-- Each cell of the list, which has the last one in front, is a dependent of the origin or of a
cell that came before it. -/
def Traced (g : Graph) (origin : Address) : List Address → Prop
  | [] => True
  | b :: earlier => (∃ c ∈ origin :: earlier, g.Feeds c b) ∧ g.Traced origin earlier

/-- Dependents of a cell that has been come across can be added. -/
theorem Traced.append {cells : List Address} (h : g.Traced origin latest)
    (ha : a ∈ origin :: latest) (hcells : ∀ b ∈ cells, g.Feeds a b) :
    g.Traced origin (cells ++ latest) := by
  induction cells with
  | nil => exact h
  | cons b cells ih =>
    obtain ⟨hb, hrest⟩ := List.forall_mem_cons.mp hcells
    have hmem : a ∈ origin :: (cells ++ latest) := by
      simp only [List.mem_cons, List.mem_append] at ha ⊢
      tauto
    exact ⟨⟨a, hmem, hb⟩, ih hrest⟩

theorem Traced.exists_of_append {later earlier : List Address}
    (h : g.Traced origin (later ++ b :: earlier)) : ∃ c ∈ origin :: earlier, g.Feeds c b := by
  induction later with
  | nil => exact h.1
  | cons c later ih => exact ih h.2

/-- The list, which has the last cell in front, is a record of the cells that were come across. -/
structure Records (g : Graph) (origin : Address) (seen : AddressSet) (latest : List Address) :
    Prop where
  mem_iff : ∀ b, b ∈ latest ↔ b ∈ seen
  nodup : latest.Nodup
  traced : g.Traced origin latest

theorem records_start (g : Graph) (origin : Address) : g.Records origin ∅ [] where
  mem_iff _ := iff_of_false List.not_mem_nil Std.TreeSet.not_mem_emptyc
  nodup := List.nodup_nil
  traced := trivial

/-- Visiting the cell on top of the stack adds to the record. -/
theorem Records.visit (hr : g.Records origin seen latest) (h : g.Covers origin (a :: stack) seen) :
    g.Records origin (seen.insertMany (g.freshDependents seen a))
      (g.freshDependents seen a ++ latest) where
  mem_iff b := by
    rw [List.mem_append, mem_freshDependents, mem_insertMany_freshDependents, hr.mem_iff]
    tauto
  nodup := by
    refine List.nodup_append'.mpr ⟨nodup_freshDependents g seen a, hr.nodup, ?_⟩
    intro b hfresh hlatest
    exact (mem_freshDependents.mp hfresh).2 ((hr.mem_iff b).mp hlatest)
  traced := by
    refine hr.traced.append ?_ fun b hb => (mem_freshDependents.mp hb).1
    rw [List.mem_cons, hr.mem_iff]
    exact h.stacked a List.mem_cons_self

/-- **The whole walk** keeps both invariants, and ends with nothing left to visit. -/
theorem exists_of_visit (h : g.Covers origin stack seen) (hr : g.Records origin seen latest) :
    ∃ seen', g.Covers origin [] seen' ∧ g.Records origin seen' (g.visit stack seen latest) := by
  fun_induction g.visit stack seen latest with
  | case1 seen latest => exact ⟨seen, h, hr⟩
  | case2 seen latest a stack fresh ih => exact ih h.visit (hr.visit h)

/-! ### Reports -/

/-- The list has every cell once that depends on the given one, directly or through others, and no
other cells. Each of them comes after a cell that it depends on directly, unless that is the given
one. -/
structure ListsDependents (g : Graph) (a : Address) (cells : List Address) : Prop where
  nodup : cells.Nodup
  mem_iff : ∀ b, b ∈ cells ↔ TransGen g.Feeds a b
  traced : ∀ earlier b later, cells = earlier ++ b :: later → ∃ c ∈ a :: earlier, g.Feeds c b

theorem listsDependents (g : Graph) (a : Address) :
    g.ListsDependents a (g.transitiveDependents a) := by
  obtain ⟨seen, h, hr⟩ := exists_of_visit (covers_start g a) (records_start g a)
  exact {
    nodup := List.nodup_reverse.mpr hr.nodup
    mem_iff := fun b => by rw [transitiveDependents, List.mem_reverse, hr.mem_iff, h.mem_iff]
    traced := by
      intro earlier b later heq
      have hsplit : g.visit [a] ∅ [] = later.reverse ++ b :: earlier.reverse := by
        rw [← List.reverse_reverse (g.visit [a] ∅ []), ← transitiveDependents, heq]
        simp
      have htraced := hr.traced
      rw [hsplit] at htraced
      simpa using htraced.exists_of_append }

/-- **The walk from a cell** reports the cells that can be reached from it. -/
theorem mem_transitiveDependents : b ∈ g.transitiveDependents a ↔ TransGen g.Feeds a b :=
  (g.listsDependents a).mem_iff b

/-- Nothing depends on a cell outside the grid. -/
theorem Coherent.transitiveDependents_eq_nil (hg : g.Coherent) (ha : g.grid.contains a = false) :
    g.transitiveDependents a = [] := by
  refine List.eq_nil_iff_forall_not_mem.mpr fun b hb => ?_
  obtain ⟨c, hac, -⟩ := TransGen.head'_iff.mp (mem_transitiveDependents.mp hb)
  exact ne_true_of_eq_false ha (hg.inside a c hac).1

/-- **What depends on a cell is listed exactly.** In any graph that is built by adding and removing
edges, the walk from a cell reports every cell that can be reached from it along one edge or more,
each once, and each after a cell from which an edge leads to it. The cell itself is among them just
if it lies on a cycle. A cell outside the grid has none. -/
theorem transitiveDependents_exact (grid : Grid) (changes : List Change) (a : Address) :
    (build grid changes).ListsDependents a ((build grid changes).transitiveDependents a) ∧
    (a ∈ (build grid changes).transitiveDependents a ↔ (build grid changes).OnCycle a) ∧
    (grid.contains a = false → (build grid changes).transitiveDependents a = []) := by
  refine ⟨(build grid changes).listsDependents a, ?_, fun ha => ?_⟩
  · rw [mem_transitiveDependents, onCycle_iff]
  · exact (coherent_build grid changes).transitiveDependents_eq_nil (by rwa [grid_build])

end Graph

end Worksheet
