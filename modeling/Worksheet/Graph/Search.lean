import Worksheet.Graph.Basic

/-!
# Depth-first search

A search walks from cells to their dependents, in reading order, and goes on from the cell it has
reached before it turns to the next one. It stays within a *scope*: dependents out of scope are
passed over.

The state of a search is a `Search`: the path from the root to the cell that it has reached, with the
dependents still to be looked at for every cell of the path, a mark on every cell that it has
entered, and the cells that it has left for good. A search ends in one of two ways. Either it comes
upon a dependent that is on its path; the part of the path from there on is a cycle. Or it has
nothing left to look at, and the cells it has left, the last one first, are in an order in which
every cell comes before its dependents.

`Search.step` does one thing at a time and `Search.run` repeats it. That this ends is a matter of
counting (`Search.work`): a cell is entered once, and each of its dependents is looked at once.

## Main definitions

* `Search`, `Search.step`, `Search.run`: the search from a state;
* `Search.explore`: the search from several roots.

## Main results

* `Search.work_lt_of_step`: every step leaves less to do;
* `Search.exists_of_run_eq_error`: a cycle starts with a cell in scope.
-/

namespace Worksheet

/-- The mark of a cell that the search has entered. -/
inductive Mark where
  /-- The cell is on the path. -/
  | inProgress
  /-- The search has left the cell for good. -/
  | done
deriving DecidableEq, Repr

/-- A cell on the path of a search. -/
structure Frame where
  /-- The cell. -/
  cell : Address
  /-- Its dependents that are still to be looked at. -/
  pending : List Address

/-- The state of a search. -/
structure Search where
  /-- The path, from the cell that was reached back to the root. -/
  path : List Frame
  /-- The marks of the cells that were entered. -/
  marks : AddressMap Mark
  /-- The cells that were left, the last one first. -/
  finished : List Address

namespace Search

/-- The state before the first root is entered. -/
def start : Search := ⟨[], ∅, []⟩

/-! ### Steps -/

/-- Enters a cell. -/
def enter (g : Graph) (a : Address) (s : Search) : Search :=
  { s with path := ⟨a, g.dependentsOf a⟩ :: s.path, marks := s.marks.insert a .inProgress }

/-- Leaves a cell for the rest of the path. -/
def leave (a : Address) (outer : List Frame) (s : Search) : Search :=
  ⟨outer, s.marks.insert a .done, a :: s.finished⟩

/-- The cells of a path from the one that closes a cycle to the one reached last. -/
def cycleFrom (a : Address) (path : List Frame) : List Address :=
  a :: ((path.map Frame.cell).takeWhile (· != a)).reverse

/-- What a step comes to. -/
inductive Step where
  /-- Nothing is left to look at. -/
  | halt
  /-- A dependent is on the path already. -/
  | cycle (cells : List Address)
  /-- The search goes on. -/
  | move (next : Search)

/-- Looks at one dependent of the cell that was reached, or leaves the cell if none is left. -/
def step (g : Graph) (scope : Address → Bool) (s : Search) : Step :=
  match s.path with
  | [] => .halt
  | ⟨a, []⟩ :: outer => .move (s.leave a outer)
  | ⟨a, next :: pending⟩ :: outer =>
    let passed : Search := { s with path := ⟨a, pending⟩ :: outer }
    if scope next then
      match s.marks[next]? with
      | none => .move (passed.enter g next)
      | some .inProgress => .cycle (cycleFrom next s.path)
      | some .done => .move passed
    else .move passed

/-! ### What is left to do -/

/-- What entering a cell adds to the work on the path: twice its dependents, and one for leaving
it. -/
def cost (g : Graph) (a : Address) : Nat :=
  2 * (g.dependentsOf a).length + 1

/-- What entering those of the cells that bear no mark will add. -/
def unmarkedCost (g : Graph) (marks : AddressMap Mark) : List Address → Nat
  | [] => 0
  | a :: rest => (if marks.contains a then 0 else cost g a) + unmarkedCost g marks rest

/-- What is left to do on a path. -/
def pathCost (path : List Frame) : Nat :=
  path.foldr (fun frame cost => 2 * frame.pending.length + 1 + cost) 0

/-- What is left to do for a search. -/
def work (g : Graph) (s : Search) : Nat :=
  unmarkedCost g s.marks g.sources + pathCost s.path

theorem unmarkedCost_insert_le (g : Graph) (marks : AddressMap Mark) (a : Address) (m : Mark)
    (cells : List Address) : unmarkedCost g (marks.insert a m) cells ≤ unmarkedCost g marks cells := by
  induction cells with
  | nil => exact Nat.le_refl _
  | cons b rest ih =>
    rw [unmarkedCost, unmarkedCost, Std.TreeMap.contains_insert]
    by_cases hb : marks.contains b = true
    · rw [hb, Bool.or_true, if_pos rfl]
      exact Nat.add_le_add_left ih _
    · rw [if_neg hb]
      refine Nat.add_le_add ?_ ih
      split
      · exact Nat.zero_le _
      · exact Nat.le_refl _

/-- Marking one of the cells takes away what entering it would have added. -/
theorem unmarkedCost_insert_add_cost_le {g : Graph} {marks : AddressMap Mark} {a : Address}
    {cells : List Address} (m : Mark) (ha : a ∈ cells) (hmarks : marks.contains a = false) :
    unmarkedCost g (marks.insert a m) cells + cost g a ≤ unmarkedCost g marks cells := by
  induction cells with
  | nil => cases ha
  | cons b rest ih =>
    rw [unmarkedCost, unmarkedCost, Std.TreeMap.contains_insert]
    rcases List.mem_cons.mp ha with rfl | hrest
    · have hle := unmarkedCost_insert_le g marks a m rest
      have hself : (compare a a == Ordering.eq) = true := by
        exact beq_iff_eq.mpr Std.ReflCmp.compare_self
      rw [hself, Bool.true_or, if_pos rfl, hmarks, if_neg Bool.false_ne_true]
      omega
    · have hle := ih hrest
      by_cases hb : marks.contains b = true
      · rw [hb, Bool.or_true, if_pos rfl]
        omega
      · rw [if_neg hb]
        split
        · omega
        · omega

/-- Every step leaves less to do. -/
theorem work_lt_of_step {g : Graph} {scope : Address → Bool} {s t : Search}
    (h : step g scope s = .move t) : work g t < work g s := by
  obtain ⟨path, marks, finished⟩ := s
  rcases path with _ | ⟨⟨a, _ | ⟨next, pending⟩⟩, outer⟩
  · simp [step] at h
  · simp only [step, leave, Step.move.injEq] at h
    subst h
    have := unmarkedCost_insert_le g marks a .done g.sources
    simp only [work, pathCost, List.foldr_cons, List.length_nil]
    omega
  · have hpassed : work g ⟨⟨a, pending⟩ :: outer, marks, finished⟩ + 2 =
        work g ⟨⟨a, next :: pending⟩ :: outer, marks, finished⟩ := by
      simp only [work, pathCost, List.foldr_cons, List.length_cons]
      omega
    simp only [step] at h
    split at h
    · split at h
      · rename_i hmark
        simp only [Step.move.injEq] at h
        subst h
        have hunmarked : marks.contains next = false := by
          rw [Std.TreeMap.contains_eq_isSome_getElem?, hmark]
          rfl
        have hcost : work g ((⟨⟨a, pending⟩ :: outer, marks, finished⟩ : Search).enter g next) ≤
            work g ⟨⟨a, pending⟩ :: outer, marks, finished⟩ + 1 := by
          simp only [work, enter, pathCost, List.foldr_cons]
          by_cases hsource : next ∈ g.sources
          · have := unmarkedCost_insert_add_cost_le (g := g) .inProgress hsource hunmarked
            simp only [cost] at this
            omega
          · have := unmarkedCost_insert_le g marks next .inProgress g.sources
            simp only [Graph.dependentsOf_eq_nil hsource, List.length_nil]
            omega
        omega
      · cases h
      · simp only [Step.move.injEq] at h
        subst h
        omega
    · simp only [Step.move.injEq] at h
      subst h
      omega

/-! ### Whole searches -/

/-- Searches until a cycle is found or nothing is left to look at. -/
def run (g : Graph) (scope : Address → Bool) (s : Search) : Except (List Address) Search :=
  match _h : step g scope s with
  | .halt => .ok s
  | .cycle cells => .error cells
  | .move next => run g scope next
termination_by work g s
decreasing_by exact work_lt_of_step _h

/-- Searches from each of the roots in turn. Roots that were entered before are passed over. -/
def explore (g : Graph) (scope : Address → Bool) : List Address → Search →
    Except (List Address) Search
  | [], s => .ok s
  | root :: roots, s =>
    if s.marks.contains root then explore g scope roots s
    else
      match run g scope (s.enter g root) with
      | .ok t => explore g scope roots t
      | .error cycle => .error cycle

/-! ### Where cycles start -/

theorem exists_of_step_eq_cycle {g : Graph} {scope : Address → Bool} {s : Search}
    {cells : List Address} (h : step g scope s = .cycle cells) :
    ∃ a rest, cells = a :: rest ∧ scope a = true := by
  obtain ⟨path, marks, finished⟩ := s
  rcases path with _ | ⟨⟨a, _ | ⟨next, pending⟩⟩, outer⟩
  · simp [step] at h
  · simp [step] at h
  · simp only [step] at h
    split at h
    · rename_i hscope
      split at h <;> simp only [Step.cycle.injEq, reduceCtorEq] at h
      exact ⟨next, _, h.symm, hscope⟩
    · cases h

/-- A cycle that a search finds starts with a cell in its scope. -/
theorem exists_of_run_eq_error {g : Graph} {scope : Address → Bool} {s : Search}
    {cells : List Address} (h : run g scope s = .error cells) :
    ∃ a rest, cells = a :: rest ∧ scope a = true := by
  fun_induction run g scope s with
  | case1 => cases h
  | case2 s found hstep =>
    cases h
    exact exists_of_step_eq_cycle hstep
  | case3 s next hstep ih => exact ih h

/-- The same for a search from several roots. -/
theorem exists_of_explore_eq_error {g : Graph} {scope : Address → Bool} {roots : List Address}
    {s : Search} {cells : List Address} (h : explore g scope roots s = .error cells) :
    ∃ a rest, cells = a :: rest ∧ scope a = true := by
  fun_induction explore g scope roots s with
  | case1 => cases h
  | case2 _ _ _ _ ih => exact ih h
  | case3 _ _ _ _ _ _ ih => exact ih h
  | case4 _ _ _ _ found hrun =>
    cases h
    exact exists_of_run_eq_error hrun

end Search

end Worksheet
