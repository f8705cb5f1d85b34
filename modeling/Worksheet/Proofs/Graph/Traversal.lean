import Worksheet.Proofs.Graph.Lockstep

/-!
# What a search does, and how often

A search ends because it does nothing twice. It puts a cell on its path only if the cell bears no mark,
and from then on the cell bears one; a cell that is taken off the path does not come back; and the
dependents of a cell are handed out once, one after the other, while the cell is on the path. So the
length of a search is bounded by the cells that it can get to and the edges that are stored, with or
without cycles among them (`Search.Frugal.turns_le`).

To say so, what a search does is written down as it goes, as a list of acts (`Search.Traverses`). The
list is not part of the search, which knows no more of its past than marks and pending dependents. The
invariant that carries the proof is that these are enough to tell what has not been done yet
(`Search.Accounts`): a cell without a mark has not been entered, and no edge to a pending dependent has
been looked at.

## Main definitions

* `Search.Act`, `Search.Moves` — what a step does
* `Search.Traverses`, `Search.Completes` — a search from several roots, on the way and at its end
* `Search.Frugal` — nothing is done twice
* `Search.turns` — how often the loop of a search is run through

## Main results

* `Search.exists_completes` — every search comes to an end
* `Search.Accounts.moves` — a step keeps the invariant
* `Search.Completes.frugal` — a whole search does nothing twice
* `Graph.exists_completes_detectCycle`, `Graph.exists_completes_topologicalOrder` — the two questions
  that are put to a graph, and how many turns they take
-/

namespace Worksheet

open Relation (ReflTransGen)

variable {g : Graph} {scope : Address → Bool} {roots rest : List Address} {a : Address}

namespace Search

/-- One thing that a search does. -/
inductive Act where
  /-- A cell is put on the path. -/
  | enter (a : Address)
  /-- An edge is looked at, from a cell to a dependent of it. -/
  | look (a b : Address)
  /-- A cell is taken off the path. -/
  | leave (a : Address)
deriving DecidableEq, Repr

variable {s t : Search} {acts done : List Act} {path outer : List Frame} {marks : AddressMap Mark}
  {finished pending cells : List Address} {next : Address} {result : Except (List Address) Search}

/-! ### Steps -/

/-- What a step does, the last thing first. -/
inductive Moves (g : Graph) (scope : Address → Bool) : Search → List Act → Search → Prop
  | leave {a : Address} {outer : List Frame} {marks : AddressMap Mark} {finished : List Address} :
      Moves g scope ⟨⟨a, []⟩ :: outer, marks, finished⟩ [.leave a]
        (Search.leave a outer ⟨⟨a, []⟩ :: outer, marks, finished⟩)
  | pass {a next : Address} {pending : List Address} {outer : List Frame} {marks : AddressMap Mark}
      {finished : List Address} (hpass : scope next = true → marks[next]? = some .done) :
      Moves g scope ⟨⟨a, next :: pending⟩ :: outer, marks, finished⟩ [.look a next]
        ⟨⟨a, pending⟩ :: outer, marks, finished⟩
  | enter {a next : Address} {pending : List Address} {outer : List Frame} {marks : AddressMap Mark}
      {finished : List Address} (hscope : scope next = true) (hnew : marks[next]? = none) :
      Moves g scope ⟨⟨a, next :: pending⟩ :: outer, marks, finished⟩ [.enter next, .look a next]
        (Search.enter g next ⟨⟨a, pending⟩ :: outer, marks, finished⟩)

/-- These are the steps of a search, and there are no others. -/
theorem step_eq_move_iff : step g scope s = .move t ↔ ∃ acts, Moves g scope s acts t := by
  constructor
  · intro h
    obtain ⟨path, marks, finished⟩ := s
    rcases path with _ | ⟨⟨a, _ | ⟨next, pending⟩⟩, outer⟩
    · cases h
    · obtain rfl := Step.move.inj h
      exact ⟨_, .leave⟩
    · simp only [step] at h
      split at h
      · rename_i hscope
        split at h
        · rename_i hnew
          obtain rfl := Step.move.inj h
          exact ⟨_, .enter hscope hnew⟩
        · cases h
        · rename_i hdone
          obtain rfl := Step.move.inj h
          exact ⟨_, .pass fun _ => hdone⟩
      · rename_i hscope
        obtain rfl := Step.move.inj h
        exact ⟨_, .pass fun h => absurd h hscope⟩
  · rintro ⟨acts, hmoves⟩
    cases hmoves with
    | leave => rfl
    | @pass a next _ _ _ _ hpass =>
      cases hscope : scope next with
      | false => simp [step, hscope]
      | true => simp [step, hscope, hpass hscope]
    | enter hscope hnew => simp [step, hscope, hnew]

/-- The step that ends a search on a cycle looks at one more edge. -/
theorem exists_path_eq_of_step_eq_cycle (h : step g scope s = .cycle cells) :
    ∃ a next pending outer, s.path = ⟨a, next :: pending⟩ :: outer := by
  obtain ⟨path, marks, finished⟩ := s
  rcases path with _ | ⟨⟨a, _ | ⟨next, pending⟩⟩, outer⟩
  · cases h
  · cases h
  · exact ⟨a, next, pending, outer, rfl⟩

/-! ### Searches as they go -/

/-- A search from some roots has come this far: the roots that are left, what has been done, the last
thing first, and the state. -/
inductive Traverses (g : Graph) (scope : Address → Bool) (roots : List Address) :
    List Address → List Act → Search → Prop
  | start : Traverses g scope roots roots [] .start
  /-- A root that was entered before is passed over. -/
  | skip {root : Address} {rest : List Address} {done : List Act} {s : Search}
      (h : Traverses g scope roots (root :: rest) done s) (hpath : s.path = [])
      (hold : s.marks.contains root = true) : Traverses g scope roots rest done s
  | root {root : Address} {rest : List Address} {done : List Act} {s : Search}
      (h : Traverses g scope roots (root :: rest) done s) (hpath : s.path = [])
      (hnew : s.marks.contains root = false) :
      Traverses g scope roots rest (.enter root :: done) (s.enter g root)
  | move {rest : List Address} {acts done : List Act} {s t : Search}
      (h : Traverses g scope roots rest done s) (hmoves : Moves g scope s acts t) :
      Traverses g scope roots rest (acts ++ done) t

/-- A search from some roots has come to its end, with this result and after doing these things. -/
inductive Completes (g : Graph) (scope : Address → Bool) (roots : List Address) :
    List Act → Except (List Address) Search → Prop
  | halt {done : List Act} {s : Search} (h : Traverses g scope roots [] done s)
      (hpath : s.path = []) : Completes g scope roots done (.ok s)
  | cycle {rest cells pending : List Address} {done : List Act} {s : Search} {a next : Address}
      {outer : List Frame} (h : Traverses g scope roots rest done s)
      (hpath : s.path = ⟨a, next :: pending⟩ :: outer) (hstep : step g scope s = .cycle cells) :
      Completes g scope roots (.look a next :: done) (.error cells)

theorem Traverses.of_run_eq_ok (h : Traverses g scope roots rest done s)
    (hrun : run g scope s = .ok t) : ∃ acts, Traverses g scope roots rest acts t ∧ t.path = [] := by
  fun_induction run g scope s generalizing done with
  | case1 s hstep =>
    cases hrun
    exact ⟨done, h, path_eq_nil_of_step_eq_halt hstep⟩
  | case2 => cases hrun
  | case3 s u hstep ih =>
    obtain ⟨acts, hmoves⟩ := step_eq_move_iff.mp hstep
    exact ih (h.move hmoves) hrun

theorem Traverses.of_run_eq_error (h : Traverses g scope roots rest done s)
    (hrun : run g scope s = .error cells) : ∃ acts, Completes g scope roots acts (.error cells) := by
  fun_induction run g scope s generalizing done with
  | case1 => cases hrun
  | case2 s found hstep =>
    cases hrun
    obtain ⟨a, next, pending, outer, hpath⟩ := exists_path_eq_of_step_eq_cycle hstep
    exact ⟨_, .cycle h hpath hstep⟩
  | case3 s u hstep ih =>
    obtain ⟨acts, hmoves⟩ := step_eq_move_iff.mp hstep
    exact ih (h.move hmoves) hrun

theorem Traverses.exists_completes (h : Traverses g scope roots rest done s) (hpath : s.path = []) :
    ∃ acts, Completes g scope roots acts (explore g scope rest s) := by
  fun_induction explore g scope rest s generalizing done with
  | case1 s => exact ⟨done, .halt h hpath⟩
  | case2 root rest s hold ih => exact ih (h.skip hpath hold) hpath
  | case3 root rest s hnew t hrun ih =>
    obtain ⟨acts, ht, htpath⟩ := (h.root hpath (eq_false_of_ne_true hnew)).of_run_eq_ok hrun
    exact ih ht htpath
  | case4 root rest s hnew found hrun =>
    exact (h.root hpath (eq_false_of_ne_true hnew)).of_run_eq_error hrun

/-- **Every search comes to an end**, with the result that it is known to have. -/
theorem exists_completes (g : Graph) (scope : Address → Bool) (roots : List Address) :
    ∃ acts, Completes g scope roots acts (explore g scope roots .start) :=
  Traverses.start.exists_completes rfl

/-! ### Nothing is done twice -/

/-- Nothing has been done twice. The edges that were looked at are edges of the graph, and they were
looked at from cells that had been put on the path. -/
structure Frugal (g : Graph) (done : List Act) : Prop where
  nodup : done.Nodup
  of_look : ∀ a b, .look a b ∈ done → g.Feeds a b ∧ .enter a ∈ done
  of_leave : ∀ a, .leave a ∈ done → .enter a ∈ done

/-- One more thing is done, for the first time. -/
theorem Frugal.cons {act : Act} (h : Frugal g done) (hnew : act ∉ done)
    (hlook : ∀ a b, act = .look a b → g.Feeds a b ∧ .enter a ∈ done)
    (hleave : ∀ a, act = .leave a → .enter a ∈ done) : Frugal g (act :: done) where
  nodup := List.nodup_cons.mpr ⟨hnew, h.nodup⟩
  of_look a b hab := by
    rcases List.mem_cons.mp hab with heq | hab
    · exact (hlook a b heq.symm).imp_right (List.mem_cons_of_mem _)
    · exact (h.of_look a b hab).imp_right (List.mem_cons_of_mem _)
  of_leave a ha := by
    rcases List.mem_cons.mp ha with heq | ha
    · exact List.mem_cons_of_mem _ (hleave a heq.symm)
    · exact List.mem_cons_of_mem _ (h.of_leave a ha)

/-- The invariant of a search: from its state can be told what has not been done yet. -/
structure Accounts (g : Graph) (done : List Act) (s : Search) : Prop extends Frugal g done where
  enter_iff : ∀ a, .enter a ∈ done ↔ s.marks.contains a = true
  path_enter : ∀ a ∈ s.path.map Frame.cell, .enter a ∈ done
  path_leave : ∀ a ∈ s.path.map Frame.cell, .leave a ∉ done
  path_nodup : (s.path.map Frame.cell).Nodup
  pending_nodup : ∀ f ∈ s.path, f.pending.Nodup
  pending_look : ∀ f ∈ s.path, ∀ b ∈ f.pending, g.Feeds f.cell b ∧ .look f.cell b ∉ done

theorem accounts_start (g : Graph) : Accounts g [] .start where
  nodup := List.nodup_nil
  of_look _ _ h := nomatch h
  of_leave _ h := nomatch h
  enter_iff a := by simp [start]
  path_enter _ h := nomatch h
  path_leave _ h := nomatch h
  path_nodup := List.nodup_nil
  pending_nodup _ h := nomatch h
  pending_look _ h := nomatch h

/-- A cell is put on the path. It bore no mark, so it has not been entered, and no edge from it has
been looked at. -/
theorem Accounts.enter (h : Accounts g done s) (hnew : s.marks.contains a = false) :
    Accounts g (.enter a :: done) (s.enter g a) := by
  have hnot : .enter a ∉ done := by simp [h.enter_iff, hnew]
  exact {
    toFrugal := h.toFrugal.cons hnot nofun nofun
    enter_iff := by
      intro b
      simp [Search.enter, h.enter_iff, @eq_comm _ a b]
    path_enter := by
      intro b hb
      rcases List.mem_cons.mp hb with rfl | hb
      · exact List.mem_cons_self
      · exact List.mem_cons_of_mem _ (h.path_enter b hb)
    path_leave := by
      intro b hb hleave
      have hbefore : .leave b ∈ done := by simpa using hleave
      rcases List.mem_cons.mp hb with rfl | hb
      · exact hnot (h.of_leave b hbefore)
      · exact h.path_leave b hb hbefore
    path_nodup := List.nodup_cons.mpr ⟨fun ha => hnot (h.path_enter a ha), h.path_nodup⟩
    pending_nodup := by
      intro f hf
      rcases List.mem_cons.mp hf with rfl | hf
      · exact Address.nodup_of_pairwise_lt (g.pairwise_dependentsOf a)
      · exact h.pending_nodup f hf
    pending_look := by
      intro f hf b hb
      rcases List.mem_cons.mp hf with rfl | hf
      · refine ⟨hb, fun hlook => hnot (h.of_look a b (by simpa using hlook)).2⟩
      · simpa using h.pending_look f hf b hb }

/-- An edge is looked at. The dependent was pending, so that the edge has not been looked at, and it is
not pending any more. -/
theorem Accounts.look (h : Accounts g done ⟨⟨a, next :: pending⟩ :: outer, marks, finished⟩) :
    Accounts g (.look a next :: done) ⟨⟨a, pending⟩ :: outer, marks, finished⟩ := by
  obtain ⟨hedge, hnot⟩ := h.pending_look _ List.mem_cons_self next List.mem_cons_self
  have hpending := List.nodup_cons.mp (h.pending_nodup _ List.mem_cons_self)
  have hcells := List.nodup_cons.mp h.path_nodup
  exact {
    toFrugal := by
      refine h.toFrugal.cons hnot ?_ nofun
      rintro _ _ ⟨⟩
      exact ⟨hedge, h.path_enter a List.mem_cons_self⟩
    enter_iff := by
      intro b
      simpa using h.enter_iff b
    path_enter := fun b hb => List.mem_cons_of_mem _ (h.path_enter b hb)
    path_leave := by
      intro b hb
      simpa using h.path_leave b hb
    path_nodup := h.path_nodup
    pending_nodup := by
      intro f hf
      rcases List.mem_cons.mp hf with rfl | hf
      · exact hpending.2
      · exact h.pending_nodup f (List.mem_cons_of_mem _ hf)
    pending_look := by
      intro f hf b hb
      rcases List.mem_cons.mp hf with rfl | hf
      · obtain ⟨hab, hlook⟩ := h.pending_look _ List.mem_cons_self b (List.mem_cons_of_mem _ hb)
        have hne : b ≠ next := ne_of_mem_of_not_mem hb hpending.1
        exact ⟨hab, by simpa [hne] using hlook⟩
      · obtain ⟨hfb, hlook⟩ := h.pending_look f (List.mem_cons_of_mem _ hf) b hb
        have hne : f.cell ≠ a := ne_of_mem_of_not_mem (List.mem_map_of_mem hf) hcells.1
        exact ⟨hfb, by simpa [hne] using hlook⟩ }

/-- A cell is taken off the path. It was on it once, so that it has not been taken off before. -/
theorem Accounts.leave (h : Accounts g done ⟨⟨a, []⟩ :: outer, marks, finished⟩) :
    Accounts g (.leave a :: done) (Search.leave a outer ⟨⟨a, []⟩ :: outer, marks, finished⟩) := by
  have henter : .enter a ∈ done := h.path_enter a List.mem_cons_self
  have hcells := List.nodup_cons.mp h.path_nodup
  exact {
    toFrugal := by
      refine h.toFrugal.cons (h.path_leave a List.mem_cons_self) nofun ?_
      rintro _ ⟨⟩
      exact henter
    enter_iff := by
      intro b
      by_cases hba : b = a
      · simp [Search.leave, hba, henter]
      · simpa [Search.leave, Ne.symm hba] using h.enter_iff b
    path_enter := fun b hb => List.mem_cons_of_mem _ (h.path_enter b (List.mem_cons_of_mem _ hb))
    path_leave := by
      intro b hb
      have hne : b ≠ a := ne_of_mem_of_not_mem hb hcells.1
      simpa [hne] using h.path_leave b (List.mem_cons_of_mem _ hb)
    path_nodup := hcells.2
    pending_nodup := fun f hf => h.pending_nodup f (List.mem_cons_of_mem _ hf)
    pending_look := by
      intro f hf b hb
      simpa using h.pending_look f (List.mem_cons_of_mem _ hf) b hb }

/-- **A step keeps the invariant.** -/
theorem Accounts.moves (h : Accounts g done s) (hmoves : Moves g scope s acts t) :
    Accounts g (acts ++ done) t := by
  cases hmoves with
  | leave => exact h.leave
  | pass _ => exact h.look
  | enter _ hnew =>
    exact h.look.enter (by simp [Std.TreeMap.contains_eq_isSome_getElem?, hnew])

theorem Traverses.accounts (h : Traverses g scope roots rest done s) : Accounts g done s := by
  induction h with
  | start => exact accounts_start g
  | skip _ _ _ ih => exact ih
  | root _ _ hnew ih => exact ih.enter hnew
  | move _ hmoves ih => exact ih.moves hmoves

/-- **A whole search does nothing twice**, whichever way it ends. -/
theorem Completes.frugal (h : Completes g scope roots done result) : Frugal g done := by
  cases h with
  | halt h _ => exact h.accounts.toFrugal
  | @cycle rest cells pending done s a next outer h hpath _ =>
    obtain ⟨path, marks, finished⟩ := s
    obtain rfl : path = _ := hpath
    exact h.accounts.look.toFrugal

/-! ### How long a search takes -/

/-- A cell that is entered can be reached from a root, and it is a root or in scope. -/
def Reached (g : Graph) (scope : Address → Bool) (roots : List Address) (done : List Act) : Prop :=
  ∀ b, .enter b ∈ done → ∃ a ∈ roots, ReflTransGen (fun x y => g.Feeds x y ∧ scope y = true) a b

theorem Traverses.rest_subset (h : Traverses g scope roots rest done s) : rest ⊆ roots := by
  induction h with
  | start => exact List.Subset.refl _
  | skip _ _ _ ih => exact fun a ha => ih (List.mem_cons_of_mem _ ha)
  | root _ _ _ ih => exact fun a ha => ih (List.mem_cons_of_mem _ ha)
  | move _ _ ih => exact ih

theorem Traverses.reached (h : Traverses g scope roots rest done s) :
    Reached g scope roots done := by
  induction h with
  | start => exact fun _ hb => nomatch hb
  | skip _ _ _ ih => exact ih
  | root h _ _ ih =>
    intro b hb
    rcases List.mem_cons.mp hb with heq | hb
    · cases heq
      exact ⟨_, h.rest_subset List.mem_cons_self, .refl⟩
    · exact ih b hb
  | move h hmoves ih =>
    intro b hb
    cases hmoves with
    | leave => exact ih b (by simpa using hb)
    | pass _ => exact ih b (by simpa using hb)
    | @enter a next pending outer marks finished hscope _ =>
      rcases List.mem_cons.mp hb with heq | hb
      · cases heq
        obtain ⟨hedge, -⟩ := h.accounts.pending_look _ List.mem_cons_self b List.mem_cons_self
        obtain ⟨root, hroot, hreach⟩ := ih a (h.accounts.path_enter a List.mem_cons_self)
        exact ⟨root, hroot, hreach.tail ⟨hedge, hscope⟩⟩
      · exact ih b (by simpa using hb)

theorem Completes.reached (h : Completes g scope roots done result) :
    Reached g scope roots done := by
  cases h with
  | halt h _ => exact h.reached
  | cycle h _ _ => exact fun b hb => h.reached b (by simpa using hb)

/-- Each turn of the loop of a search looks at an edge or takes a cell off the path. Cells are put on
the path in the course of a turn. -/
def Act.isTurn : Act → Bool
  | enter _ => false
  | look _ _ => true
  | leave _ => true

/-- The number of turns. -/
def turns (done : List Act) : Nat := done.countP Act.isTurn

/-- **A search takes no more turns** than there are edges and cells that it can get to. -/
theorem Frugal.turns_le (h : Frugal g done) (hcells : ∀ b, .enter b ∈ done → b ∈ cells) :
    turns done ≤ g.edgeCount + cells.length := by
  have hsub : done.filter Act.isTurn ⊆
      g.edges.map (fun edge : Address × Address => Act.look edge.1 edge.2) ++
        cells.map Act.leave := by
    intro act hact
    obtain ⟨hdone, hturn⟩ := List.mem_filter.mp hact
    cases act with
    | enter a => cases hturn
    | look a b =>
      refine List.mem_append_left _ (List.mem_map.mpr ⟨(a, b), ?_, rfl⟩)
      exact Graph.mem_edges.mpr (h.of_look a b hdone).1
    | leave a =>
      exact List.mem_append_right _ (List.mem_map_of_mem (hcells a (h.of_leave a hdone)))
  calc turns done
      = (done.filter Act.isTurn).length := List.countP_eq_length_filter
    _ ≤ (g.edges.map (fun edge : Address × Address => Act.look edge.1 edge.2) ++
          cells.map Act.leave).length :=
        (h.nodup.filter _).length_le_of_subset hsub
    _ = g.edgeCount + cells.length := by
        rw [List.length_append, List.length_map, List.length_map, g.edgeCount_eq_length_edges]

end Search

namespace Graph

/-- **Looking for a cycle** takes no more turns than there are edges and cells that depend on the
given one, itself included. -/
theorem exists_completes_detectCycle (g : Graph) (a : Address) : ∃ done result,
    Search.Completes g (fun _ => true) [a] done result ∧
    Search.outcome result = g.detectCycle a ∧ Search.Frugal g done ∧
    Search.turns done ≤ g.edgeCount + (a :: g.transitiveDependents a).length := by
  obtain ⟨done, h⟩ := Search.exists_completes g (fun _ => true) [a]
  refine ⟨done, _, h, ?_, h.frugal, h.frugal.turns_le fun b hb => ?_⟩
  · rw [detectCycle]
    cases Search.explore g (fun _ => true) [a] .start <;> rfl
  · obtain ⟨root, hroot, hreach⟩ := h.reached b hb
    obtain rfl := List.mem_singleton.mp hroot
    have hfeeds : ReflTransGen g.Feeds root b :=
      ReflTransGen.mono (fun _ _ hxy => hxy.1) _ _ hreach
    rw [List.mem_cons, mem_transitiveDependents]
    exact Relation.reflTransGen_iff_eq_or_transGen.mp hfeeds

/-- **Putting cells in order** takes no more turns than there are edges and cells. -/
theorem exists_completes_topologicalOrder (g : Graph) (cells : List Address) : ∃ done result,
    Search.Completes g (.ofList (cells.filter g.grid.contains) : AddressSet).contains
      (cells.filter g.grid.contains) done result ∧
    result.map Search.finished = g.topologicalOrder cells ∧ Search.Frugal g done ∧
    Search.turns done ≤ g.edgeCount + cells.length := by
  obtain ⟨done, h⟩ := Search.exists_completes g
    (.ofList (cells.filter g.grid.contains) : AddressSet).contains (cells.filter g.grid.contains)
  refine ⟨done, _, h, ?_, h.frugal, h.frugal.turns_le fun b hb => ?_⟩
  · simp only [topologicalOrder]
    cases Search.explore g _ (cells.filter g.grid.contains) .start <;> rfl
  · obtain ⟨root, hroot, hreach⟩ := h.reached b hb
    rcases hreach.cases_tail with rfl | ⟨c, -, -, hscope⟩
    · exact (List.mem_filter.mp hroot).1
    · exact (contains_roots_iff.mp hscope).1

end Graph

end Worksheet
