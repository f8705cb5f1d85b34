import Worksheet.Proofs.Graph.Detection
import Worksheet.Proofs.Graph.Reach

/-!
# Two searches in lockstep

Whether a cell leads into a circular reference can be found out in two ways: by looking for a cycle
from the cell, or by putting the cell and everything that depends on it in order. Both are depth-first
searches, and they see the same cycle (`Graph.searches_agree`): if one of them fails, the other one
fails too, on the same cells in the same order, beginning with the same cell.

They are not the same search. The one stays within a list of cells and starts again from every cell of
the list, the other one has the whole graph for its scope and a single root. But the list has all cells
that can be reached from the root, so a step never meets a dependent about which the scopes differ, and
whatever comes after the first root in the list has been left for good when the search of the first
root is over.

## Sets in place of marks

A search for a cycle needs less than a search for an order. It has to know which cells it has visited
and which of them are on its path, and it never asks for the cells that it has left. `Trail` is a search
that keeps just that, two sets of cells, with its steps as a relation. It goes step by step with a
search that keeps marks: a cell is in the first set if it bears a mark, and in the second one if the
mark says that it is in progress (`Trail.Agrees`).

## Main definitions

* `Trail`, `Trail.Moves` — a search with two sets of cells, and its steps
* `Trail.Finds` — what such a search from a cell ends with
* `Trail.Agrees` — a search with sets and a search with marks are at the same point

## Main results

* `Search.Inv.run_congr` — the scope matters only where the search can get
* `Search.Inv.moves`, `Search.Inv.closes` — the steps of the two kinds of search
* `Graph.detectCycle_eq_iff_finds` — looking for a cycle is a search with sets
* `Graph.Coherent.topologicalOrder_eq` — putting a cell and all that depends on it in order
* `Graph.searches_agree` — the headline
-/

namespace Worksheet

open Relation (ReflTransGen TransGen)

variable {g : Graph} {S : Set Address} {a b next : Address} {cells : List Address}

namespace Search

variable {scope scope' : Address → Bool} {s s' : Search} {roots : List Address}

/-! ### Runs, step by step -/

theorem run_of_halt (h : step g scope s = .halt) : run g scope s = .ok s := by
  rw [run]
  split <;> simp_all

theorem run_of_cycle (h : step g scope s = .cycle cells) : run g scope s = .error cells := by
  rw [run]
  split <;> simp_all

theorem run_of_move (h : step g scope s = .move s') : run g scope s = run g scope s' := by
  rw [run]
  split <;> simp_all

/-! ### Scopes that cannot be told apart -/

/-- A step looks up one dependent of a cell of the path. -/
theorem Inv.step_congr (I : Inv g S s)
    (h : ∀ a ∈ S, ∀ b, g.Feeds a b → scope b = scope' b) :
    Search.step g scope s = Search.step g scope' s := by
  obtain ⟨path, marks, finished⟩ := s
  rcases path with _ | ⟨⟨a, _ | ⟨next, pending⟩⟩, outer⟩
  · rfl
  · rfl
  · obtain ⟨looked, heq, -⟩ := I.top _ rfl
    have hedge : g.Feeds a next := by simp [Graph.Feeds, heq]
    simp only [Search.step, h a (I.path_mem a List.mem_cons_self) next hedge]

/-- **The scope matters only where the search can get.** -/
theorem Inv.run_congr (I : Inv g S s)
    (hscope : ∀ a ∈ S, ∀ b, g.Feeds a b → (scope b = true ↔ b ∈ S))
    (hscope' : ∀ a ∈ S, ∀ b, g.Feeds a b → (scope' b = true ↔ b ∈ S)) :
    run g scope s = run g scope' s := by
  have heq : ∀ a ∈ S, ∀ b, g.Feeds a b → scope b = scope' b := fun a ha b hab =>
    Bool.eq_iff_iff.mpr ((hscope a ha b hab).trans (hscope' a ha b hab).symm)
  fun_induction run g scope s with
  | case1 s hstep => exact (run_of_halt (I.step_congr heq ▸ hstep)).symm
  | case2 s cells hstep => exact (run_of_cycle (I.step_congr heq ▸ hstep)).symm
  | case3 s t hstep ih =>
    rw [ih (I.step hscope hstep).1]
    exact (run_of_move (I.step_congr heq ▸ hstep)).symm

/-! ### Roots that were entered before -/

theorem Inv.contains_of_entered (I : Inv g S s) (h : Entered s a) : s.marks.contains a = true := by
  rw [Std.TreeMap.contains_eq_isSome_getElem?]
  rcases h with h | h
  · simp [(I.inProgress_iff a).mpr h]
  · simp [(I.done_iff a).mpr h]

/-- From roots that were entered before, there is nothing left to explore. -/
theorem explore_of_contains (h : ∀ a ∈ roots, s.marks.contains a = true) :
    explore g scope roots s = .ok s := by
  induction roots with
  | nil => rfl
  | cons root roots ih =>
    obtain ⟨hroot, hrest⟩ := List.forall_mem_cons.mp h
    rw [explore, if_pos hroot, ih hrest]

/-- The first root is entered, since nothing bears a mark at the start. -/
theorem explore_start (g : Graph) (scope : Address → Bool) (a : Address) (roots : List Address) :
    explore g scope (a :: roots) .start = (run g scope (start.enter g a)).bind
      (explore g scope roots) := by
  have hmark : start.marks.contains a = false := by simp [start]
  rw [explore, hmark, if_neg Bool.false_ne_true]
  cases run g scope (start.enter g a) <;> rfl

/-- A search from one root that comes to an end has left all cells that can be reached from it. -/
theorem Inv.entered_of_run_eq_ok (hscope : ∀ a ∈ S, ∀ b, g.Feeds a b → (scope b = true ↔ b ∈ S))
    (I : Inv g S (start.enter g a)) (hclosed : ∀ x ∈ S, ∀ y, g.Feeds x y → y ∈ S)
    (h : run g scope (start.enter g a) = .ok s) (hab : ReflTransGen g.Feeds a b) :
    s.marks.contains b = true := by
  obtain ⟨It, hpath, hentered⟩ := I.of_run_eq_ok hscope h
  have hfinished : ∀ x, Entered s x → x ∈ s.finished := by
    intro x hx
    simpa [Entered, hpath] using hx
  refine It.contains_of_entered (.inr ?_)
  induction hab with
  | refl => exact hfinished a (hentered a (.inl List.mem_cons_self))
  | tail _ hxy ih =>
    exact It.ordered.mem_of_feeds ih (hclosed _ (It.finished_mem _ ih) _ hxy) hxy

end Search

/-! ### Sets in place of marks -/

/-- The state of a search that keeps two sets of cells in place of marks. -/
structure Trail where
  /-- The path, from the cell that was reached back to the root. -/
  path : List Frame
  /-- The cells of the path. -/
  onPath : AddressSet
  /-- The cells that were entered. -/
  visited : AddressSet

namespace Trail

/-- The root has been entered. -/
def start (g : Graph) (a : Address) : Trail :=
  ⟨[⟨a, g.dependentsOf a⟩], (∅ : AddressSet).insert a, (∅ : AddressSet).insert a⟩

/-- One step: the next dependent of the cell that was reached is entered or passed over, or the cell is
left. -/
inductive Moves (g : Graph) : Trail → Trail → Prop
  | enter {a next : Address} {pending : List Address} {outer : List Frame}
      {onPath visited : AddressSet} (hpath : next ∉ onPath) (hnew : next ∉ visited) :
      Moves g ⟨⟨a, next :: pending⟩ :: outer, onPath, visited⟩
        ⟨⟨next, g.dependentsOf next⟩ :: ⟨a, pending⟩ :: outer, onPath.insert next,
          visited.insert next⟩
  | pass {a next : Address} {pending : List Address} {outer : List Frame}
      {onPath visited : AddressSet} (hpath : next ∉ onPath) (hold : next ∈ visited) :
      Moves g ⟨⟨a, next :: pending⟩ :: outer, onPath, visited⟩
        ⟨⟨a, pending⟩ :: outer, onPath, visited⟩
  | leave {a : Address} {outer : List Frame} {onPath visited : AddressSet} :
      Moves g ⟨⟨a, []⟩ :: outer, onPath, visited⟩ ⟨outer, onPath.erase a, visited⟩

/-- The search is over: it has left its root, or the next dependent is on the path already. -/
inductive Ends : Trail → Option (List Address) → Prop
  | left {onPath visited : AddressSet} : Ends ⟨[], onPath, visited⟩ none
  | closed {a next : Address} {pending : List Address} {outer : List Frame}
      {onPath visited : AddressSet} (hpath : next ∈ onPath) :
      Ends ⟨⟨a, next :: pending⟩ :: outer, onPath, visited⟩
        (some (Search.cycleFrom next (⟨a, next :: pending⟩ :: outer)))

/-- What a search from a cell ends with: a cycle, or nothing. -/
def Finds (g : Graph) (a : Address) (result : Option (List Address)) : Prop :=
  ∃ t, ReflTransGen (Moves g) (start g a) t ∧ t.Ends result

variable {t t' u : Trail} {result result' : Option (List Address)}

theorem Moves.unique (h : Moves g t u) (h' : Moves g t t') : u = t' := by
  cases h <;> cases h' <;> first | rfl | contradiction

theorem Ends.unique (h : t.Ends result) (h' : t.Ends result') : result = result' := by
  cases h <;> cases h' <;> rfl

theorem Ends.not_moves (h : t.Ends result) : ¬ Moves g t u := by
  intro hmove
  cases h <;> cases hmove <;> contradiction

/-- A search ends with one thing only. -/
theorem Finds.unique (h : Finds g a result) (h' : Finds g a result') : result = result' := by
  obtain ⟨t, ht, hend⟩ := h
  obtain ⟨u, hu, hend'⟩ := h'
  have heq : t = u := by
    rcases ReflTransGen.total_of_right_unique (r := Moves g)
      (fun _ _ _ => Moves.unique) ht hu with htu | hut
    · rcases htu.cases_head with heq | ⟨v, hv, -⟩
      · exact heq
      · exact absurd hv hend.not_moves
    · rcases hut.cases_head with heq | ⟨v, hv, -⟩
      · exact heq.symm
      · exact absurd hv hend'.not_moves
  exact hend.unique (heq ▸ hend')

/-! ### Lockstep -/

/-- The two searches are at the same point: they have the same path, a cell was visited if it bears a
mark, and it is on the path if its mark says so. -/
structure Agrees (t : Trail) (s : Search) : Prop where
  path_eq : t.path = s.path
  onPath_iff : ∀ b, b ∈ t.onPath ↔ s.marks[b]? = some .inProgress
  visited_iff : ∀ b, b ∈ t.visited ↔ s.marks.contains b = true

/-- A cell is entered: it is put into both sets, and gets a mark. -/
theorem Agrees.enter {s : Search} {path : List Frame} (h : t.Agrees s) (next : Address) :
    Agrees ⟨⟨next, g.dependentsOf next⟩ :: path, t.onPath.insert next, t.visited.insert next⟩
      (Search.enter g next { s with path := path }) where
  path_eq := rfl
  onPath_iff b := by
    simp only [Search.enter, Std.TreeSet.mem_insert, Std.LawfulEqOrd.compare_eq_iff_eq,
      AddressMap.getElem?_insert_eq_some_iff, h.onPath_iff]
    tauto
  visited_iff b := by
    simp [Search.enter, h.visited_iff]

/-- A cell is left: it is taken out of one of the sets, and its mark is changed. -/
theorem Agrees.leave {s : Search} (h : t.Agrees s) (hvisited : s.marks.contains a = true)
    (outer : List Frame) :
    Agrees ⟨outer, t.onPath.erase a, t.visited⟩ (Search.leave a outer s) where
  path_eq := rfl
  onPath_iff b := by
    simp only [Search.leave, Std.TreeSet.mem_erase, Ne, Std.LawfulEqOrd.compare_eq_iff_eq,
      AddressMap.getElem?_insert_eq_some_iff, h.onPath_iff, reduceCtorEq, and_false, false_or]
    tauto
  visited_iff b := by
    rw [h.visited_iff, Search.leave, Std.TreeMap.contains_insert]
    by_cases hba : b = a
    · simp [hba, hvisited]
    · simp [Ne.symm hba]

theorem agrees_start (g : Graph) (a : Address) : (start g a).Agrees (Search.start.enter g a) := by
  have hempty : Agrees ⟨[], ∅, ∅⟩ Search.start := by constructor <;> simp [Search.start]
  exact hempty.enter a

end Trail

namespace Search

variable {scope : Address → Bool} {s s' : Search} {t : Trail}

/-- **A step of a search with marks** is a step of a search with sets. -/
theorem Inv.moves (I : Inv g S s) (h : t.Agrees s) (hscope : ∀ b, scope b = true)
    (hstep : Search.step g scope s = .move s') : ∃ t', Trail.Moves g t t' ∧ t'.Agrees s' := by
  obtain ⟨path, onPath, visited⟩ := t
  obtain ⟨_, marks, finished⟩ := s
  obtain rfl : path = _ := h.path_eq
  rcases path with _ | ⟨⟨a, _ | ⟨next, pending⟩⟩, outer⟩
  · cases hstep
  · obtain rfl := Step.move.inj hstep
    have hmark : marks[a]? = some .inProgress := (I.inProgress_iff a).mpr List.mem_cons_self
    have hvisited : marks.contains a = true := by
      simp [Std.TreeMap.contains_eq_isSome_getElem?, hmark]
    exact ⟨_, .leave, h.leave hvisited outer⟩
  · have honPath := h.onPath_iff next
    have hvisited := h.visited_iff next
    rw [Std.TreeMap.contains_eq_isSome_getElem?] at hvisited
    simp only [Search.step, hscope, if_true] at hstep
    split at hstep
    · rename_i hmark
      obtain rfl := Step.move.inj hstep
      exact ⟨_, .enter (by simp [honPath, hmark]) (by simp [hvisited, hmark]), h.enter next⟩
    · cases hstep
    · rename_i hmark
      obtain rfl := Step.move.inj hstep
      exact ⟨_, .pass (by simp [honPath, hmark]) (by simp [hvisited, hmark]),
        ⟨rfl, h.onPath_iff, h.visited_iff⟩⟩

/-- Both searches close a cycle at the same point. -/
theorem closes (h : t.Agrees s) (hstep : step g scope s = .cycle cells) : t.Ends (some cells) := by
  obtain ⟨path, onPath, visited⟩ := t
  obtain ⟨_, marks, finished⟩ := s
  obtain rfl : path = _ := h.path_eq
  rcases path with _ | ⟨⟨a, _ | ⟨next, pending⟩⟩, outer⟩
  · cases hstep
  · cases hstep
  · simp only [step] at hstep
    split at hstep
    · split at hstep
      · cases hstep
      · rename_i hmark
        obtain rfl := Step.cycle.inj hstep
        exact .closed ((h.onPath_iff next).mpr hmark)
      · cases hstep
    · cases hstep

/-- Both searches come to an end at the same point. -/
theorem halts (h : t.Agrees s) (hstep : step g scope s = .halt) : t.Ends none := by
  obtain ⟨path, onPath, visited⟩ := t
  obtain rfl : path = [] := h.path_eq.trans (path_eq_nil_of_step_eq_halt hstep)
  exact .left

/-- What a search with marks comes to. -/
def outcome : Except (List Address) Search → Option (List Address)
  | .ok _ => none
  | .error cells => some cells

/-- **A search with sets ends as one with marks does.** -/
theorem Inv.exists_ends (I : Inv g Set.univ s) (h : t.Agrees s) (hscope : ∀ b, scope b = true) :
    ∃ t', ReflTransGen (Trail.Moves g) t t' ∧ t'.Ends (outcome (run g scope s)) := by
  fun_induction run g scope s generalizing t with
  | case1 s hstep => exact ⟨t, .refl, halts h hstep⟩
  | case2 s cells hstep => exact ⟨t, .refl, closes h hstep⟩
  | case3 s s' hstep ih =>
    obtain ⟨u, hmove, hu⟩ := I.moves h hscope hstep
    have Inext := (I.step (fun _ _ b _ => iff_of_true (hscope b) trivial) hstep).1
    obtain ⟨t', hmoves, hends⟩ := ih Inext hu
    exact ⟨t', .head hmove hmoves, hends⟩

end Search

namespace Graph

theorem detectCycle_eq_outcome (g : Graph) (a : Address) : g.detectCycle a =
    Search.outcome (Search.run g (fun _ => true) (Search.start.enter g a)) := by
  rw [detectCycle, Search.explore_start]
  cases Search.run g (fun _ => true) (Search.start.enter g a) <;> rfl

/-- **A cycle is found from a cell** just as by a search that keeps two sets. -/
theorem detectCycle_eq_iff_finds (g : Graph) (a : Address) (result : Option (List Address)) :
    g.detectCycle a = result ↔ Trail.Finds g a result := by
  have I : Search.Inv g Set.univ (Search.start.enter g a) :=
    (Search.inv_start g Set.univ).enterRoot rfl trivial (by simp [Search.start])
  have hfinds : Trail.Finds g a (g.detectCycle a) := by
    rw [detectCycle_eq_outcome]
    exact I.exists_ends (Trail.agrees_start g a) fun _ => rfl
  constructor
  · rintro rfl
    exact hfinds
  · exact hfinds.unique

/-- The cells that can be reached from a cell are the cell and those that depend on it. -/
theorem Coherent.mem_members_iff (hg : g.Coherent) (ha : g.grid.contains a = true) :
    b ∈ g.members (a :: g.transitiveDependents a) ↔ ReflTransGen g.Feeds a b := by
  rw [Relation.reflTransGen_iff_eq_or_transGen]
  show b ∈ a :: g.transitiveDependents a ∧ g.grid.contains b = true ↔ _
  rw [List.mem_cons, mem_transitiveDependents]
  refine and_iff_left_of_imp ?_
  rintro (rfl | hab)
  · exact ha
  · obtain ⟨c, -, hcb⟩ := TransGen.tail'_iff.mp hab
    exact (hg.inside c b hcb).2

/-- **To put a cell and all that depends on it in order** is to search the whole graph from it. -/
theorem Coherent.topologicalOrder_eq (hg : g.Coherent) (ha : g.grid.contains a = true) :
    g.topologicalOrder (a :: g.transitiveDependents a) =
      (Search.run g (fun _ => true) (Search.start.enter g a)).map Search.finished := by
  set cells := a :: g.transitiveDependents a with hcells
  set S : Set Address := {b | ReflTransGen g.Feeds a b}
  set members : AddressSet := .ofList (cells.filter g.grid.contains)
  have hclosed : ∀ x ∈ S, ∀ y, g.Feeds x y → y ∈ S := fun _ hx _ hxy => ReflTransGen.tail hx hxy
  have hwhole : ∀ x ∈ S, ∀ y, g.Feeds x y → (true = true ↔ y ∈ S) := fun x hx y hxy =>
    iff_of_true rfl (hclosed x hx y hxy)
  have hscope : ∀ x ∈ S, ∀ y, g.Feeds x y → (members.contains y = true ↔ y ∈ S) := fun _ _ y _ =>
    contains_roots_iff.trans (hg.mem_members_iff ha)
  have I : Search.Inv g S (Search.start.enter g a) :=
    (Search.inv_start g S).enterRoot rfl .refl (by simp [Search.start])
  have hroots : cells.filter g.grid.contains =
      a :: (g.transitiveDependents a).filter g.grid.contains := by
    rw [hcells, List.filter_cons_of_pos ha]
  rw [topologicalOrder]
  show (match Search.explore g members.contains (cells.filter g.grid.contains) .start with
    | .ok s => Except.ok s.finished
    | .error cycle => .error cycle) = _
  rw [hroots, Search.explore_start, I.run_congr hscope hwhole]
  cases hrun : Search.run g (fun _ => true) (Search.start.enter g a) with
  | error cycle => rfl
  | ok s =>
    -- whatever is left of the list has been entered from the first root
    have hrest : Search.explore g members.contains
        ((g.transitiveDependents a).filter g.grid.contains) s = .ok s := by
      refine Search.explore_of_contains fun b hb => ?_
      refine I.entered_of_run_eq_ok hwhole hclosed hrun ?_
      exact (mem_transitiveDependents.mp (List.mem_filter.mp hb).1).to_reflTransGen
    simp [Except.bind, Except.map, hrest]

/-- A cell outside the grid has no dependents, and is not put in order itself. -/
theorem Coherent.topologicalOrder_eq_ok_nil (hg : g.Coherent) (ha : g.grid.contains a = false) :
    g.topologicalOrder (a :: g.transitiveDependents a) = .ok [] := by
  have hnil : g.transitiveDependents a = [] := by
    rw [List.eq_nil_iff_forall_not_mem]
    intro b hb
    obtain ⟨c, hac, -⟩ := TransGen.head'_iff.mp (mem_transitiveDependents.mp hb)
    simp [(hg.inside a c hac).1] at ha
  simp [topologicalOrder, hnil, ha, Search.explore, Search.start]

theorem Coherent.detectCycle_eq_none (hg : g.Coherent) (ha : g.grid.contains a = false) :
    g.detectCycle a = none := by
  by_contra hsome
  obtain ⟨cycle, hcycle⟩ := Option.ne_none_iff_exists'.mp hsome
  simp [(exists_detectCycle_iff.mp ⟨cycle, hcycle⟩).contains hg] at ha

/-- **The two searches agree.** In any graph that is built by adding and removing edges, and from any
cell, putting the cell and all that depends on it in order fails just if a cycle is found from the
cell. They then name the same cycle, cell by cell. The cycle is also the one that a search finds which
keeps sets in place of marks. -/
theorem searches_agree (grid : Grid) (changes : List Change) (a : Address) :
    (∀ cycle, (build grid changes).topologicalOrder
        (a :: (build grid changes).transitiveDependents a) = .error cycle ↔
      (build grid changes).detectCycle a = some cycle) ∧
    ((∃ order, (build grid changes).topologicalOrder
        (a :: (build grid changes).transitiveDependents a) = .ok order) ↔
      (build grid changes).detectCycle a = none) ∧
    ∀ result, (build grid changes).detectCycle a = result ↔
      Trail.Finds (build grid changes) a result := by
  have hg := coherent_build grid changes
  refine ⟨?_, ?_, detectCycle_eq_iff_finds _ a⟩
  all_goals
    cases ha : (build grid changes).grid.contains a with
    | false => simp [hg.topologicalOrder_eq_ok_nil ha, hg.detectCycle_eq_none ha]
    | true =>
      rw [hg.topologicalOrder_eq ha, detectCycle_eq_outcome]
      cases Search.run (build grid changes) (fun _ => true) (Search.start.enter _ a) <;>
        simp [Except.map, Search.outcome]

end Graph

end Worksheet
