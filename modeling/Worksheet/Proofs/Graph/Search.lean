import Mathlib.Data.List.TakeWhile
import Worksheet.Graph.Order
import Worksheet.Proofs.Graph.Cycles

/-!
# What a depth-first search finds

A search stays within a set `S` of cells and ends in one of two ways. If it comes upon a cell of its
path, the path from there on is a ring of `S`, and not just any cycle: every dependent that the
search has passed over on the way was out of scope or had been left for good, and from a cell that
was left no walk goes on for ever. If it comes to an end, the cells that it has left, the last one
first, are in an order in which each cell comes before its dependents.

Both follow from one invariant of the steps, `Search.Inv`. It speaks of marks, path and finished
cells only and does not mention endless walks; these come in when a search is over.

## The scope

A search is given its scope as a test, and the test need not describe the set `S`: it only has to
tell apart the dependents of cells of `S`. A search of the whole graph from one cell can therefore
be taken as a search within the cells that can be reached from it.

## Main definitions

* `Ordered` — cells in an order in which each comes before its dependents
* `Search.Turns` — the search went on from one cell to another, and what it had passed over then
* `Search.Inv` — the invariant of a search

## Main results

* `Search.Inv.step` — a step keeps the invariant, and every cell that was entered
* `Search.Inv.closedChain` — the cycle of a step, as a closed chain of `Leads`
* `Graph.closedChain_of_detectCycle`, `Graph.not_endless_of_detectCycle` — the cycle found from a
  cell, and what it means that none is found
* `Graph.ordered_of_topologicalOrder`, `Graph.closedChain_of_topologicalOrder` — the order or the
  cycle found among cells
-/

namespace Worksheet

open Relation (ReflTransGen TransGen)

variable {feeds : Address → Address → Prop} {S : Set Address} {a b : Address}
  {cells : List Address}

/-! ### Orders -/

/-- Each cell of the list comes before its dependents in scope, and these are all in the list. -/
def Ordered (feeds : Address → Address → Prop) (S : Set Address) : List Address → Prop
  | [] => True
  | a :: rest => (∀ b ∈ S, feeds a b → b ∈ rest) ∧ Ordered feeds S rest

theorem Ordered.mem_of_feeds (h : Ordered feeds S cells) (ha : a ∈ cells) (hb : b ∈ S)
    (hab : feeds a b) : b ∈ cells := by
  induction cells with
  | nil => cases ha
  | cons c rest ih =>
    rcases List.mem_cons.mp ha with rfl | ha
    · exact List.mem_cons_of_mem a (h.1 b hb hab)
    · exact List.mem_cons_of_mem c (ih h.2 ha)

/-- From a cell of an order, no walk goes on for ever. -/
theorem Ordered.not_endless (h : Ordered feeds S cells) (ha : a ∈ cells) : ¬ Endless feeds S a := by
  induction cells generalizing a with
  | nil => cases ha
  | cons c rest ih =>
    rcases List.mem_cons.mp ha with rfl | ha
    · intro hendless
      obtain ⟨b, hab, hb⟩ := hendless.exists_feeds
      exact ih h.2 (h.1 b hb.mem hab) hb
    · exact ih h.2 ha

/-- No cell of an order is read by itself or by an earlier cell. -/
theorem Ordered.not_feeds {rest : List Address} (h : Ordered feeds S (a :: rest))
    (hnodup : (a :: rest).Nodup) (ha : a ∈ S) (hb : b ∈ a :: rest) : ¬ feeds b a := by
  intro hba
  have hnot : a ∉ rest := (List.nodup_cons.mp hnodup).1
  rcases List.mem_cons.mp hb with rfl | hb
  · exact hnot (h.1 b ha hba)
  · exact hnot (h.2.mem_of_feeds hb ha hba)

namespace Search

variable {g : Graph} {scope : Address → Bool} {s t : Search} {next : Address}
  {path : List Frame} {finished pending roots : List Address} {marks : AddressMap Mark}

/-! ### The invariant -/

/-- What the search has looked at before the pending dependents of a cell is finished or out of
scope. -/
def Passed (g : Graph) (S : Set Address) (finished : List Address) (a : Address)
    (pending : List Address) : Prop :=
  ∃ looked, g.dependentsOf a = looked ++ pending ∧ ∀ b ∈ looked, b ∈ S → b ∈ finished

/-- The search has gone on from the first cell to the second one. -/
def Turns (g : Graph) (S : Set Address) (finished : List Address) (a b : Address) : Prop :=
  ∃ pending, Passed g S finished a (b :: pending)

/-- The invariant of a search within `S`. -/
structure Inv (g : Graph) (S : Set Address) (s : Search) : Prop where
  path_mem : ∀ a ∈ s.path.map Frame.cell, a ∈ S
  path_nodup : (s.path.map Frame.cell).Nodup
  finished_mem : ∀ a ∈ s.finished, a ∈ S
  finished_nodup : s.finished.Nodup
  inProgress_iff : ∀ a, s.marks[a]? = some .inProgress ↔ a ∈ s.path.map Frame.cell
  done_iff : ∀ a, s.marks[a]? = some .done ↔ a ∈ s.finished
  ordered : Ordered g.Feeds S s.finished
  top : ∀ f ∈ s.path.head?, Passed g S s.finished f.cell f.pending
  below : s.path.IsChain fun f outer => Passed g S s.finished outer.cell (f.cell :: outer.pending)

/-- The cell is on the path or has been left. -/
def Entered (s : Search) (a : Address) : Prop := a ∈ s.path.map Frame.cell ∨ a ∈ s.finished

theorem Passed.mono {finished' : List Address} (h : Passed g S finished a pending)
    (hsub : finished ⊆ finished') : Passed g S finished' a pending := by
  obtain ⟨looked, heq, hlooked⟩ := h
  exact ⟨looked, heq, fun b hb hbS => hsub (hlooked b hb hbS)⟩

/-- One more dependent is passed over. -/
theorem Passed.tail (h : Passed g S finished a (next :: pending))
    (hnext : next ∈ S → next ∈ finished) : Passed g S finished a pending := by
  obtain ⟨looked, heq, hlooked⟩ := h
  refine ⟨looked ++ [next], by rw [heq, List.append_assoc]; rfl, ?_⟩
  intro b hb
  rcases List.mem_append.mp hb with hb | hb
  · exact hlooked b hb
  · rw [List.mem_singleton.mp hb]
    exact hnext

theorem passed_dependentsOf : Passed g S finished a (g.dependentsOf a) :=
  ⟨[], rfl, fun _ hb => nomatch hb⟩

theorem Turns.edge (h : Turns g S finished a b) : g.Feeds a b := by
  obtain ⟨pending, looked, heq, -⟩ := h
  rw [Graph.Feeds, heq]
  exact List.mem_append_right looked List.mem_cons_self

/-- If the search has gone on to an endless cell, it is the first one, since all that was passed
over is not endless. -/
theorem Turns.leads (h : Turns g S finished a b) (hordered : Ordered g.Feeds S finished)
    (hb : Endless g.Feeds S b) : Leads g.Feeds S a b := by
  refine ⟨h.edge, hb, ?_⟩
  intro c hac hc
  obtain ⟨pending, looked, heq, hlooked⟩ := h
  rw [Graph.Feeds, heq] at hac
  rcases List.mem_append.mp hac with hc' | hc'
  · exact absurd hc (hordered.not_endless (hlooked c hc' hc.mem))
  rcases List.mem_cons.mp hc' with rfl | hc'
  · rw [show compare c c = .eq from Std.ReflCmp.compare_self]
    rfl
  · have hsorted := g.pairwise_dependentsOf a
    rw [heq] at hsorted
    have hlt := (List.pairwise_cons.mp (List.pairwise_append.mp hsorted).2.1).1 c hc'
    rw [hlt]
    rfl

/-! ### Steps -/

theorem inv_start (g : Graph) (S : Set Address) : Inv g S .start where
  path_mem _ ha := nomatch ha
  path_nodup := List.nodup_nil
  finished_mem _ ha := nomatch ha
  finished_nodup := List.nodup_nil
  inProgress_iff a := by simp [start]
  done_iff a := by simp [start]
  ordered := trivial
  top _ hf := nomatch hf
  below := .nil

/-- Entering an unmarked cell in scope. The path may have moved on to its next dependent before. -/
theorem Inv.enter (I : Inv g S s) (hnext : next ∈ S) (hmark : s.marks[next]? = none)
    (hcells : path.map Frame.cell = s.path.map Frame.cell)
    (hbelow : (⟨next, g.dependentsOf next⟩ :: path).IsChain
      fun f outer => Passed g S s.finished outer.cell (f.cell :: outer.pending)) :
    Inv g S (enter g next { s with path := path }) where
  path_mem a ha := by
    simp only [Search.enter, List.map_cons, hcells, List.mem_cons] at ha
    rcases ha with rfl | ha
    · exact hnext
    · exact I.path_mem a ha
  path_nodup := by
    simp only [Search.enter, List.map_cons, hcells]
    refine List.nodup_cons.mpr ⟨fun hin => ?_, I.path_nodup⟩
    rw [← I.inProgress_iff, hmark] at hin
    cases hin
  finished_mem := I.finished_mem
  finished_nodup := I.finished_nodup
  inProgress_iff a := by
    simp only [Search.enter, List.map_cons, hcells, AddressMap.getElem?_insert_eq_some_iff,
      I.inProgress_iff, List.mem_cons]
    tauto
  done_iff a := by
    simp only [Search.enter, AddressMap.getElem?_insert_eq_some_iff, reduceCtorEq, and_false,
      false_or, I.done_iff]
    refine and_iff_right_of_imp ?_
    rintro ha rfl
    rw [← I.done_iff, hmark] at ha
    cases ha
  ordered := I.ordered
  top f hf := by
    simp only [Search.enter, List.head?_cons, Option.mem_some_iff] at hf
    rw [← hf]
    exact passed_dependentsOf
  below := hbelow

/-- Leaving a cell of which every dependent has been looked at. -/
theorem Inv.leave {outer : List Frame} (I : Inv g S ⟨⟨a, []⟩ :: outer, marks, finished⟩) :
    Inv g S (Search.leave a outer ⟨⟨a, []⟩ :: outer, marks, finished⟩) where
  path_mem b hb := I.path_mem b (List.mem_cons_of_mem a hb)
  path_nodup := (List.nodup_cons.mp I.path_nodup).2
  finished_mem b hb := by
    rcases List.mem_cons.mp hb with rfl | hb
    · exact I.path_mem b List.mem_cons_self
    · exact I.finished_mem b hb
  finished_nodup := by
    refine List.nodup_cons.mpr ⟨fun hin => ?_, I.finished_nodup⟩
    cases ((I.done_iff a).mpr hin).symm.trans ((I.inProgress_iff a).mpr List.mem_cons_self)
  inProgress_iff b := by
    simp only [Search.leave, AddressMap.getElem?_insert_eq_some_iff, reduceCtorEq, and_false,
      false_or, I.inProgress_iff, List.map_cons, List.mem_cons]
    have hnot := (List.nodup_cons.mp I.path_nodup).1
    constructor
    · rintro ⟨hne, rfl | hb⟩
      · exact absurd rfl hne
      · exact hb
    · exact fun hb => ⟨ne_of_mem_of_not_mem hb hnot, .inr hb⟩
  done_iff b := by
    simp only [Search.leave, AddressMap.getElem?_insert_eq_some_iff, I.done_iff, List.mem_cons]
    tauto
  ordered := by
    refine ⟨?_, I.ordered⟩
    intro b hb hab
    obtain ⟨looked, heq, hlooked⟩ := I.top ⟨a, []⟩ rfl
    rw [Graph.Feeds, heq, List.append_nil] at hab
    exact hlooked b hab hb
  top f hf := by
    cases outer with
    | nil => cases hf
    | cons f' outer =>
      cases hf
      have hbelow := (List.isChain_cons_cons.mp I.below).1
      exact (hbelow.mono (List.subset_cons_self a finished)).tail fun _ => List.mem_cons_self
  below := List.IsChain.imp (fun _ _ h => h.mono (List.subset_cons_self a finished))
    (List.IsChain.tail I.below)

/-- Passing over a dependent that is out of scope or was left for good. -/
theorem Inv.pass {outer : List Frame}
    (I : Inv g S ⟨⟨a, next :: pending⟩ :: outer, marks, finished⟩)
    (hnext : next ∈ S → next ∈ finished) :
    Inv g S ⟨⟨a, pending⟩ :: outer, marks, finished⟩ where
  path_mem := I.path_mem
  path_nodup := I.path_nodup
  finished_mem := I.finished_mem
  finished_nodup := I.finished_nodup
  inProgress_iff := I.inProgress_iff
  done_iff := I.done_iff
  ordered := I.ordered
  top f hf := by
    cases hf
    exact (I.top _ rfl).tail hnext
  below := by
    cases outer with
    | nil => exact .singleton _
    | cons f' outer => exact List.isChain_cons_cons.mpr (List.isChain_cons_cons.mp I.below)

/-- A step keeps the invariant, and the cells that were entered stay entered. The scope has to agree
with `S` on the dependents of cells of `S`. -/
theorem Inv.step (I : Inv g S s)
    (hscope : ∀ a ∈ S, ∀ b, g.Feeds a b → (scope b = true ↔ b ∈ S))
    (h : step g scope s = .move t) : Inv g S t ∧ ∀ a, Entered s a → Entered t a := by
  obtain ⟨path, marks, finished⟩ := s
  rcases path with _ | ⟨⟨a, _ | ⟨next, pending⟩⟩, outer⟩
  · cases h
  · simp only [Search.step, Step.move.injEq] at h
    subst h
    refine ⟨I.leave, ?_⟩
    rintro b (hb | hb)
    · rcases List.mem_cons.mp hb with rfl | hb
      · exact .inr List.mem_cons_self
      · exact .inl hb
    · exact .inr (List.mem_cons_of_mem a hb)
  · obtain ⟨looked, heq, hlooked⟩ := I.top _ rfl
    have hedge : g.Feeds a next := by
      rw [Graph.Feeds, heq]
      exact List.mem_append_right looked List.mem_cons_self
    have hnext := hscope a (I.path_mem a List.mem_cons_self) next hedge
    simp only [Search.step] at h
    split at h
    · rename_i hin
      split at h
      · rename_i hmark
        simp only [Step.move.injEq] at h
        subst h
        refine ⟨I.enter (hnext.mp hin) hmark rfl ?_, ?_⟩
        · refine List.isChain_cons_cons.mpr ⟨⟨looked, heq, hlooked⟩, ?_⟩
          cases outer with
          | nil => exact .singleton _
          | cons f' outer => exact List.isChain_cons_cons.mpr (List.isChain_cons_cons.mp I.below)
        · rintro b (hb | hb)
          · exact .inl (List.mem_cons_of_mem next hb)
          · exact .inr hb
      · cases h
      · rename_i hmark
        simp only [Step.move.injEq] at h
        subst h
        exact ⟨I.pass fun _ => (I.done_iff next).mp hmark, fun b hb => hb⟩
    · rename_i hout
      simp only [Step.move.injEq] at h
      subst h
      exact ⟨I.pass fun hin => absurd (hnext.mpr hin) hout, fun b hb => hb⟩

/-! ### Cycles -/

/-- On a path, the search has gone on from each cell to the one before it in the list. -/
theorem Inv.isChain_turns (I : Inv g S s) :
    (s.path.map Frame.cell).IsChain fun b a => Turns g S s.finished a b :=
  (List.isChain_map Frame.cell).mpr <|
    List.IsChain.imp (fun _ outer h => ⟨outer.pending, h⟩) I.below

/-- Coming upon a cell of the path closes a chain. -/
theorem closedChain_cycleFrom {r : Address → Address → Prop} {f : Frame} {outer : List Frame}
    (hchain : ((f :: outer).map Frame.cell).IsChain fun b a => r a b)
    (hnext : next ∈ (f :: outer).map Frame.cell) (hturn : r f.cell next) :
    ClosedChain r (cycleFrom next (f :: outer)) := by
  obtain ⟨inner, rest, hsplit, hnot⟩ := List.eq_append_cons_of_mem hnext
  have htake : ((f :: outer).map Frame.cell).takeWhile (· != next) = inner := by
    have hinner : ∀ b ∈ inner, (b != next) = true := fun b hb =>
      bne_iff_ne.mpr (ne_of_mem_of_not_mem hb hnot)
    rw [hsplit, List.takeWhile_append_of_pos hinner, List.takeWhile_cons_of_neg (by simp),
      List.append_nil]
  have hfront : (inner ++ [next]) ++ rest = (f :: outer).map Frame.cell := by
    rw [hsplit, List.append_assoc, List.singleton_append]
  have hback : (next :: (inner ++ [next])).IsChain fun b a => r a b := by
    refine List.isChain_cons.mpr ⟨?_, ?_⟩
    · intro b hb
      have hhead : ((inner ++ [next]) ++ rest).head? = some b := by
        rw [List.head?_append, Option.mem_def.mp hb, Option.some_or]
      rw [hfront, List.map_cons, List.head?_cons, Option.some_inj] at hhead
      rwa [← hhead]
    · rw [← hfront] at hchain
      exact hchain.left_of_append
  rw [cycleFrom, htake, ClosedChain]
  rw [show next :: (inner.reverse ++ [next]) = (next :: (inner ++ [next])).reverse by simp,
    List.isChain_reverse]
  exact hback

theorem mem_of_mem_cycleFrom (hnext : next ∈ path.map Frame.cell) (ha : a ∈ cycleFrom next path) :
    a ∈ path.map Frame.cell := by
  rw [cycleFrom, List.mem_cons, List.mem_reverse] at ha
  rcases ha with rfl | ha
  · exact hnext
  · exact (List.takeWhile_subset _) ha

/-- A cycle that is cut out of a path has each cell once. -/
theorem nodup_cycleFrom (hpath : (path.map Frame.cell).Nodup) : (cycleFrom next path).Nodup := by
  rw [cycleFrom, List.nodup_cons, List.mem_reverse, List.nodup_reverse]
  refine ⟨fun hin => ?_, hpath.sublist (List.takeWhile_sublist _)⟩
  have hne := List.mem_takeWhile_imp hin
  exact bne_iff_ne.mp hne rfl

/-- **The cycle of a step** leads from each cell to its first endless dependent. -/
theorem Inv.closedChain (I : Inv g S s) (h : Search.step g scope s = .cycle cells) :
    ClosedChain (Leads g.Feeds S) cells := by
  obtain ⟨path, marks, finished⟩ := s
  rcases path with _ | ⟨⟨a, _ | ⟨next, pending⟩⟩, outer⟩
  · cases h
  · cases h
  · have hpassed := I.top _ rfl
    simp only [Search.step] at h
    split at h
    · rename_i hin
      split at h
      · cases h
      · rename_i hmark
        simp only [Step.cycle.injEq] at h
        subst h
        have hpath := (I.inProgress_iff next).mp hmark
        have hturns := closedChain_cycleFrom I.isChain_turns hpath ⟨pending, hpassed⟩
        have hendless : ∀ x ∈ cycleFrom next (⟨a, next :: pending⟩ :: outer),
            Endless g.Feeds S x := by
          intro x hx
          refine ⟨{y | y ∈ cycleFrom next (⟨a, next :: pending⟩ :: outer)}, ?_, hx, ?_⟩
          · exact fun y hy => I.path_mem y (mem_of_mem_cycleFrom hpath hy)
          · intro y hy
            obtain ⟨z, hz, hyz⟩ := hturns.exists_rel hy
            exact ⟨z, hz, hyz.edge⟩
        exact hturns.mono fun x _ y hy hxy => hxy.leads I.ordered (hendless y hy)
      · cases h
    · cases h

theorem Inv.nodup_of_step_eq_cycle (I : Inv g S s) (h : Search.step g scope s = .cycle cells) :
    cells.Nodup := by
  obtain ⟨path, marks, finished⟩ := s
  rcases path with _ | ⟨⟨a, _ | ⟨next, pending⟩⟩, outer⟩
  · cases h
  · cases h
  · simp only [Search.step] at h
    split at h
    · split at h <;> simp only [Step.cycle.injEq, reduceCtorEq] at h
      subst h
      exact nodup_cycleFrom I.path_nodup
    · cases h

/-! ### Whole searches -/

theorem path_eq_nil_of_step_eq_halt (h : Search.step g scope s = .halt) : s.path = [] := by
  obtain ⟨path, marks, finished⟩ := s
  rcases path with _ | ⟨⟨a, _ | ⟨next, pending⟩⟩, outer⟩
  · rfl
  · cases h
  · simp only [Search.step] at h
    split at h
    · split at h <;> cases h
    · cases h

section Whole

variable (hscope : ∀ a ∈ S, ∀ b, g.Feeds a b → (scope b = true ↔ b ∈ S))

include hscope

theorem Inv.of_run_eq_ok (I : Inv g S s) (h : run g scope s = .ok t) :
    Inv g S t ∧ t.path = [] ∧ ∀ a, Entered s a → Entered t a := by
  fun_induction run g scope s with
  | case1 s hhalt =>
    cases h
    exact ⟨I, path_eq_nil_of_step_eq_halt hhalt, fun a ha => ha⟩
  | case2 s cells hstep => cases h
  | case3 s next hstep ih =>
    obtain ⟨Inext, hnext⟩ := I.step hscope hstep
    obtain ⟨It, hpath, ht⟩ := ih Inext h
    exact ⟨It, hpath, fun a ha => ht a (hnext a ha)⟩

/-- A cycle is found in one step, from a state that has the invariant. -/
theorem Inv.exists_step_of_run_eq_error (I : Inv g S s) (h : run g scope s = .error cells) :
    ∃ t, Inv g S t ∧ Search.step g scope t = .cycle cells := by
  fun_induction run g scope s with
  | case1 => cases h
  | case2 s found hstep =>
    cases h
    exact ⟨s, I, hstep⟩
  | case3 s next hstep ih => exact ih (I.step hscope hstep).1 h

omit hscope in
theorem Inv.entered_of_contains (I : Inv g S s) (h : s.marks.contains a = true) : Entered s a := by
  rw [Std.TreeMap.contains_eq_isSome_getElem?, Option.isSome_iff_exists] at h
  obtain ⟨m, hm⟩ := h
  cases m with
  | inProgress => exact .inl ((I.inProgress_iff a).mp hm)
  | done => exact .inr ((I.done_iff a).mp hm)

omit hscope in
/-- Entering a root. -/
theorem Inv.enterRoot (I : Inv g S s) (hpath : s.path = []) (ha : a ∈ S)
    (hmark : ¬ s.marks.contains a = true) : Inv g S (s.enter g a) := by
  refine I.enter ha ?_ rfl ?_
  · rwa [Std.TreeMap.contains_eq_isSome_getElem?, Option.not_isSome_iff_eq_none] at hmark
  · rw [hpath]
    exact .singleton _

theorem Inv.of_explore_eq_ok (I : Inv g S s) (hpath : s.path = []) (hroots : ∀ a ∈ roots, a ∈ S)
    (h : explore g scope roots s = .ok t) :
    Inv g S t ∧ t.path = [] ∧ ∀ a, Entered s a ∨ a ∈ roots → Entered t a := by
  fun_induction explore g scope roots s with
  | case1 s =>
    cases h
    exact ⟨I, hpath, fun a ha => ha.resolve_right List.not_mem_nil⟩
  | case2 root roots s hmark ih =>
    obtain ⟨It, htpath, ht⟩ := ih I hpath (fun a ha => hroots a (List.mem_cons_of_mem root ha)) h
    refine ⟨It, htpath, fun a ha => ht a ?_⟩
    rcases ha with ha | ha
    · exact .inl ha
    rcases List.mem_cons.mp ha with rfl | ha
    · exact .inl (I.entered_of_contains hmark)
    · exact .inr ha
  | case3 root roots s hmark next hrun ih =>
    have Iroot := I.enterRoot hpath (hroots root List.mem_cons_self) hmark
    obtain ⟨Inext, hnextPath, hnext⟩ := Iroot.of_run_eq_ok hscope hrun
    obtain ⟨It, htpath, ht⟩ :=
      ih Inext hnextPath (fun a ha => hroots a (List.mem_cons_of_mem root ha)) h
    refine ⟨It, htpath, fun a ha => ht a ?_⟩
    rcases ha with (ha | ha) | ha
    · exact .inl (hnext a (.inl (List.mem_cons_of_mem root ha)))
    · exact .inl (hnext a (.inr ha))
    rcases List.mem_cons.mp ha with rfl | ha
    · exact .inl (hnext a (.inl List.mem_cons_self))
    · exact .inr ha
  | case4 => cases h

theorem Inv.exists_step_of_explore_eq_error (I : Inv g S s) (hpath : s.path = [])
    (hroots : ∀ a ∈ roots, a ∈ S) (h : explore g scope roots s = .error cells) :
    ∃ t, Inv g S t ∧ Search.step g scope t = .cycle cells := by
  fun_induction explore g scope roots s with
  | case1 => cases h
  | case2 root roots s hmark ih =>
    exact ih I hpath (fun a ha => hroots a (List.mem_cons_of_mem root ha)) h
  | case3 root roots s hmark next hrun ih =>
    have Iroot := I.enterRoot hpath (hroots root List.mem_cons_self) hmark
    obtain ⟨Inext, hnextPath, -⟩ := Iroot.of_run_eq_ok hscope hrun
    exact ih Inext hnextPath (fun a ha => hroots a (List.mem_cons_of_mem root ha)) h
  | case4 root roots s hmark found hrun =>
    cases h
    have Iroot := I.enterRoot hpath (hroots root List.mem_cons_self) hmark
    exact Iroot.exists_step_of_run_eq_error hscope hrun

end Whole

end Search

namespace Graph

variable {g : Graph} {cycle order : List Address}

/-- The cycle found from a cell is found in one step of a search of the cells that can be reached
from it. -/
theorem exists_step_of_detectCycle (h : g.detectCycle a = some cycle) :
    ∃ scope s, Search.Inv g {b | ReflTransGen g.Feeds a b} s ∧
      Search.step g scope s = .cycle cycle := by
  simp only [detectCycle] at h
  split at h
  · cases h
  · rename_i found hfound
    cases h
    exact ⟨_, (Search.inv_start g _).exists_step_of_explore_eq_error
      (fun b hb c hbc => iff_of_true rfl (hb.tail hbc)) rfl
      (List.forall_mem_singleton.mpr .refl) hfound⟩

/-- **The cycle found from a cell** leads from each cell to the first dependent from which a walk
can go on for ever. -/
theorem closedChain_of_detectCycle (h : g.detectCycle a = some cycle) :
    ClosedChain (Leads g.Feeds {b | ReflTransGen g.Feeds a b}) cycle := by
  obtain ⟨_, _, I, hstep⟩ := exists_step_of_detectCycle h
  exact I.closedChain hstep

theorem nodup_of_detectCycle (h : g.detectCycle a = some cycle) : cycle.Nodup := by
  obtain ⟨_, _, I, hstep⟩ := exists_step_of_detectCycle h
  exact I.nodup_of_step_eq_cycle hstep

/-- If no cycle is found from a cell, then the search has left it for good, and no walk from it goes
on for ever. -/
theorem not_endless_of_detectCycle (h : g.detectCycle a = none) :
    ¬ Endless g.Feeds {b | ReflTransGen g.Feeds a b} a := by
  simp only [detectCycle] at h
  split at h
  · rename_i s hs
    obtain ⟨I, hpath, hentered⟩ :=
      (Search.inv_start g {b | ReflTransGen g.Feeds a b}).of_explore_eq_ok
        (fun b hb c hbc => iff_of_true rfl (hb.tail hbc)) rfl
        (List.forall_mem_singleton.mpr .refl) hs
    rcases hentered a (.inr List.mem_cons_self) with ha | ha
    · rw [hpath] at ha
      cases ha
    · exact I.ordered.not_endless ha
  · cases h

/-- The scope in which cells are put in order. -/
theorem contains_roots_iff :
    (.ofList (cells.filter g.grid.contains) : AddressSet).contains b = true ↔
      b ∈ {a | a ∈ cells ∧ g.grid.contains a = true} := by
  rw [Std.TreeSet.contains_ofList, List.contains_iff_mem, List.mem_filter]
  rfl

/-- **The order found among cells** has each of them that is in the grid once, and before those that
depend on it. -/
theorem ordered_of_topologicalOrder (h : g.topologicalOrder cells = .ok order) :
    order.Nodup ∧ Ordered g.Feeds {a | a ∈ cells ∧ g.grid.contains a = true} order ∧
      ∀ a, a ∈ order ↔ a ∈ cells ∧ g.grid.contains a = true := by
  simp only [topologicalOrder] at h
  split at h
  · rename_i s hs
    cases h
    obtain ⟨I, hpath, hentered⟩ := (Search.inv_start g _).of_explore_eq_ok
      (fun _ _ b _ => contains_roots_iff) rfl (fun b hb => List.mem_filter.mp hb) hs
    refine ⟨I.finished_nodup, I.ordered, fun a => ⟨I.finished_mem a, ?_⟩⟩
    intro ha
    rcases hentered a (.inr (List.mem_filter.mpr ha)) with ha | ha
    · rw [hpath] at ha
      cases ha
    · exact ha
  · cases h

/-- The cycle found among cells is found in one step of a search among them. -/
theorem exists_step_of_topologicalOrder (h : g.topologicalOrder cells = .error cycle) :
    ∃ scope s, Search.Inv g {a | a ∈ cells ∧ g.grid.contains a = true} s ∧
      Search.step g scope s = .cycle cycle := by
  simp only [topologicalOrder] at h
  split at h
  · cases h
  · rename_i found hfound
    cases h
    exact ⟨_, (Search.inv_start g _).exists_step_of_explore_eq_error
      (fun _ _ b _ => contains_roots_iff) rfl (fun b hb => List.mem_filter.mp hb) hfound⟩

/-- **The cycle found among cells** leads from each cell to the first dependent among them from
which a walk among them can go on for ever. -/
theorem closedChain_of_topologicalOrder (h : g.topologicalOrder cells = .error cycle) :
    ClosedChain (Leads g.Feeds {a | a ∈ cells ∧ g.grid.contains a = true}) cycle := by
  obtain ⟨_, _, I, hstep⟩ := exists_step_of_topologicalOrder h
  exact I.closedChain hstep

theorem nodup_of_topologicalOrder_eq_error (h : g.topologicalOrder cells = .error cycle) :
    cycle.Nodup := by
  obtain ⟨_, _, I, hstep⟩ := exists_step_of_topologicalOrder h
  exact I.nodup_of_step_eq_cycle hstep

end Graph

end Worksheet
