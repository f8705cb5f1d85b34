import Mathlib.Data.List.Nodup
import Worksheet.Formula.Dependencies

/-!
# The references of a formula from left to right

Writing down the references of a formula as they come, a rectangle row by row, gives a list that may
have a cell in it many times (`Formula.references`). What is gathered from the formula is what is
left of it when each cell is kept at its first occurrence only (`Formula.records_gather`).

Gathering the cells of a formula is nothing but meeting its references one by one
(`Formula.gather_eq_foldl`), whatever has been met before; that is the only induction over formulas.
What has been met so far, repetitions and all, is then the one thing to keep track of: the gathered
list is that history without its repetitions, and the set has its cells (`Gathered.Records`).

## Main definitions

* `Formula.references` — the references, with their repetitions
* `Gathered.Records` — what has been gathered when these cells have been met

## Main results

* `Formula.gather_eq_foldl` — gathering a formula is meeting its references
* `Gathered.Records.foldl_add` — what is gathered from a list of cells
* `Formula.records_gather` — what is gathered from a formula
-/

namespace Worksheet

/-! ### References -/

namespace Formula

mutual

/-- The cells that a formula refers to, from left to right, as often as it does. -/
def references : Formula → List Address
  | number _ => []
  | cell a => [a]
  | range first last => Address.rectangle first last
  | binary _ left right => left.references ++ right.references
  | call _ arguments => referencesOfAll arguments

/-- The references of several formulas, one formula after the other. -/
def referencesOfAll : List Formula → List Address
  | [] => []
  | formula :: formulas => formula.references ++ referencesOfAll formulas

end

mutual

/-- **Gathering a formula is meeting its references**, one after the other. -/
theorem gather_eq_foldl (g : Gathered) : (formula : Formula) →
    formula.gather g = formula.references.foldl Gathered.add g
  | number _ => rfl
  | cell _ => rfl
  | range _ _ => rfl
  | binary _ left right => by
    rw [gather, references, List.foldl_append, ← gather_eq_foldl g left, gather_eq_foldl _ right]
  | call _ arguments => gatherAll_eq_foldl g arguments

theorem gatherAll_eq_foldl (g : Gathered) : (formulas : List Formula) →
    gatherAll formulas g = (referencesOfAll formulas).foldl Gathered.add g
  | [] => rfl
  | formula :: formulas => by
    rw [gatherAll, referencesOfAll, List.foldl_append, ← gather_eq_foldl g formula,
      gatherAll_eq_foldl _ formulas]

end

end Formula

/-! ### First occurrences -/

namespace Gathered

variable {g : Gathered} {met : List Address}

/-- The cells of the list have been met in its order: each is gathered once, where it was met
first. -/
structure Records (g : Gathered) (met : List Address) : Prop where
  toList_eq : g.toList = met.eraseDups
  nodup : g.toList.Nodup
  seen_iff : ∀ a, a ∈ g.seen ↔ a ∈ met

theorem records_empty : empty.Records [] where
  toList_eq := rfl
  nodup := List.nodup_nil
  seen_iff _ := iff_of_false Std.TreeSet.not_mem_emptyc List.not_mem_nil

theorem Records.mem_toList (h : g.Records met) (a : Address) : a ∈ g.toList ↔ a ∈ met := by
  rw [h.toList_eq, List.mem_eraseDups]

/-- One more cell is gathered if it has not been met. -/
theorem Records.add (h : g.Records met) (a : Address) : (g.add a).Records (met ++ [a]) := by
  unfold Gathered.add
  split
  · rename_i hseen
    have ha : a ∈ met := (h.seen_iff a).mp (Std.TreeSet.contains_iff_mem.mp hseen)
    have hnone : [a].removeAll met = [] := by
      simp [List.removeAll, ha]
    refine ⟨?_, h.nodup, fun b => ?_⟩
    · rw [List.eraseDups_append, hnone, List.eraseDups_nil, List.append_nil]
      exact h.toList_eq
    · rw [h.seen_iff, List.mem_append, List.mem_singleton]
      exact (or_iff_left_of_imp fun hb => hb ▸ ha).symm
  · rename_i hseen
    have ha : a ∉ met := fun ha => hseen (Std.TreeSet.contains_iff_mem.mpr ((h.seen_iff a).mpr ha))
    have hone : [a].removeAll met = [a] := by
      simp [List.removeAll, ha]
    have hconcat : toList ⟨a :: g.latest, g.seen.insert a⟩ = g.toList ++ [a] := List.reverse_cons
    refine ⟨?_, ?_, fun b => ?_⟩
    · rw [hconcat, List.eraseDups_append, hone, h.toList_eq]
      rfl
    · rw [hconcat, List.nodup_append_comm]
      exact List.nodup_cons.mpr ⟨fun hmem => ha ((h.mem_toList a).mp hmem), h.nodup⟩
    · rw [Std.TreeSet.mem_insert, Std.LawfulEqOrd.compare_eq_iff_eq, h.seen_iff, List.mem_append,
        List.mem_singleton, or_comm, eq_comm]

/-- **What is gathered from a list of cells**, by the cells met before. -/
theorem Records.foldl_add (h : g.Records met) (cells : List Address) :
    (cells.foldl Gathered.add g).Records (met ++ cells) := by
  induction cells generalizing g met with
  | nil => rwa [List.append_nil]
  | cons a cells ih =>
    have hrest := ih (h.add a)
    rwa [List.append_assoc] at hrest

end Gathered

/-- What is gathered from a formula. -/
theorem Formula.records_gather (formula : Formula) :
    (formula.gather .empty).Records formula.references := by
  rw [gather_eq_foldl]
  exact Gathered.records_empty.foldl_add formula.references

end Worksheet
