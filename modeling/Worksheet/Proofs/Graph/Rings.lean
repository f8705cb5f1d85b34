import Mathlib.Data.Set.Finite.Basic
import Mathlib.Data.Set.Lattice
import Mathlib.Logic.Relation
import Mathlib.Order.CompletePartialOrder
import Mathlib.Order.WellFoundedSet
import Worksheet.Address

/-!
# Rings, and taking them out

A search that walks along the first dependent from which it can go on for ever ends up on a *ring*:
a cycle on which every cell leads to its first dependent of that sort. Pinning a ring takes its
cells out of the scope, which changes what is first, and so the next ring is looked for in what is
left. Taking rings out one after another until no endless walk is left *clears* the scope.

Nothing says which ring is to be taken out first. The headline is that it does not matter: whichever
rings are chosen, the same cells are taken out in the end (`Clears.unique`). The reason is that two
rings of one scope have no cell in common, and that a ring stays a ring when another one is taken
out.

## The relation instead of the graph

Everything here is about a relation `feeds` between cells, not about stored neighbours. Two graphs
with the same edges therefore have literally the same rings, and a sheet before and after an edit is
a matter of two relations that differ in the edges into one cell.

## Main definitions

* `Endless` — from a cell, a walk within a scope can go on for ever
* `Leads` — the first dependent of a cell that is endless
* `IsRing` — a cycle of `Leads`, as a set of cells
* `Clears` — the cells that are taken out with rings, until nothing is endless

## Main results

* `IsRing.eq_or_disjoint`, `IsRing.restrict` — rings of one scope, and of a smaller one
* `Clears.unique` — what is taken out does not depend on the choice of rings
* `Clears.append` — a part that no walk leaves can be cleared first
* `Clears.update` — what an edit of one cell does to the cells that are taken out
-/

namespace Worksheet

open Relation (ReflTransGen TransGen)

variable {feeds feeds' : Address → Address → Prop} {S T C D P Q : Set Address} {a b c : Address}

/-! ### Endless walks -/

/-- From the cell, a walk within the scope can go on for ever: the cell is one of a set of cells in
scope, each of which has a dependent in the set. -/
def Endless (feeds : Address → Address → Prop) (S : Set Address) (a : Address) : Prop :=
  ∃ L ⊆ S, a ∈ L ∧ ∀ x ∈ L, ∃ y ∈ L, feeds x y

theorem Endless.mem (h : Endless feeds S a) : a ∈ S := by
  obtain ⟨L, hL, ha, -⟩ := h
  exact hL ha

theorem Endless.mono (h : Endless feeds S a) (hST : S ⊆ T) : Endless feeds T a := by
  obtain ⟨L, hL, ha, hnext⟩ := h
  exact ⟨L, hL.trans hST, ha, hnext⟩

/-- An endless cell has an endless dependent. -/
theorem Endless.exists_feeds (h : Endless feeds S a) : ∃ b, feeds a b ∧ Endless feeds S b := by
  obtain ⟨L, hL, ha, hnext⟩ := h
  obtain ⟨b, hb, hab⟩ := hnext a ha
  exact ⟨b, hab, L, hL, hb, hnext⟩

/-- Walks that cannot leave a part of the scope are endless in that part. -/
theorem Endless.restrict (h : Endless feeds T a) (ha : a ∈ S)
    (hclosed : ∀ x ∈ S, ∀ y ∈ T, feeds x y → y ∈ S) : Endless feeds (S ∩ T) a := by
  obtain ⟨L, hL, haL, hnext⟩ := h
  refine ⟨S ∩ L, Set.inter_subset_inter_right S hL, ⟨ha, haL⟩, ?_⟩
  rintro x ⟨hxS, hxL⟩
  obtain ⟨y, hyL, hxy⟩ := hnext x hxL
  exact ⟨y, ⟨hclosed x hxS y (hL hyL) hxy, hyL⟩, hxy⟩

/-! ### Leading on -/

/-- The second cell is the first dependent, in reading order, of the first cell that is endless. -/
structure Leads (feeds : Address → Address → Prop) (S : Set Address) (a b : Address) : Prop where
  edge : feeds a b
  endless : Endless feeds S b
  first : ∀ c, feeds a c → Endless feeds S c → (compare b c).isLE

theorem Leads.unique (hb : Leads feeds S a b) (hc : Leads feeds S a c) : b = c :=
  Std.LawfulEqOrd.eq_of_compare <|
    Std.OrientedCmp.isLE_antisymm (hb.first c hc.edge hc.endless) (hc.first b hb.edge hb.endless)

/-! ### Rings -/

/-- A cycle on which every cell leads to the next one, as a set of cells. -/
structure IsRing (feeds : Address → Address → Prop) (S C : Set Address) : Prop where
  nonempty : C.Nonempty
  subset : C ⊆ S
  leads : ∀ a ∈ C, ∃ b ∈ C, Leads feeds S a b
  linked : ∀ a ∈ C, ∀ b ∈ C, ReflTransGen (Leads feeds S) a b

namespace IsRing

/-- The cells of a ring are endless in the ring itself. -/
theorem endless (h : IsRing feeds S C) (ha : a ∈ C) : Endless feeds C a := by
  refine ⟨C, Set.Subset.rfl, ha, ?_⟩
  intro x hx
  obtain ⟨y, hy, hxy⟩ := h.leads x hx
  exact ⟨y, hy, hxy.edge⟩

/-- Leading on does not leave a ring. -/
theorem mem_of_leads (h : IsRing feeds S C) (ha : a ∈ C) (hab : Leads feeds S a b) : b ∈ C := by
  obtain ⟨c, hc, hac⟩ := h.leads a ha
  rwa [hab.unique hac]

theorem mem_of_reflTransGen (h : IsRing feeds S C) (ha : a ∈ C)
    (hab : ReflTransGen (Leads feeds S) a b) : b ∈ C := by
  induction hab with
  | refl => exact ha
  | tail _ hcd ih => exact h.mem_of_leads ih hcd

/-- Any two cells of a ring can be reached from each other. -/
theorem reflTransGen (h : IsRing feeds S C) (ha : a ∈ C) (hb : b ∈ C) : ReflTransGen feeds a b :=
  ReflTransGen.mono (fun _ _ hxy => hxy.edge) a b (h.linked a ha b hb)

/-- The cells of a ring are on a cycle of the relation. -/
theorem transGen (h : IsRing feeds S C) (ha : a ∈ C) : TransGen feeds a a := by
  obtain ⟨b, hb, hab⟩ := h.leads a ha
  exact TransGen.head' hab.edge (h.reflTransGen hb ha)

/-- A set that no walk leaves holds a whole ring or none of its cells. -/
theorem subset_or_disjoint (h : IsRing feeds S C) (hclosed : ∀ x ∈ T, ∀ y, feeds x y → y ∈ T) :
    C ⊆ T ∨ Disjoint C T := by
  rcases Set.disjoint_or_nonempty_inter C T with hdisj | ⟨x, hxC, hxT⟩
  · exact .inr hdisj
  · left
    intro y hy
    have hxy := h.reflTransGen hxC hy
    clear hy
    induction hxy with
    | refl => exact hxT
    | tail _ hzy ih => exact hclosed _ ih _ hzy

/-- Two rings of one scope are the same ring or have no cell in common. -/
theorem eq_or_disjoint (hC : IsRing feeds S C) (hD : IsRing feeds S D) : C = D ∨ Disjoint C D := by
  rcases Set.disjoint_or_nonempty_inter C D with hdisj | ⟨x, hxC, hxD⟩
  · exact .inr hdisj
  · left
    apply Set.Subset.antisymm
    · intro y hy
      exact hD.mem_of_reflTransGen hxD (hC.linked x hxC y hy)
    · intro y hy
      exact hC.mem_of_reflTransGen hxC (hD.linked x hxD y hy)

/-- A ring of one relation and scope is a ring of another if it lies in that scope, its edges are
there too, and nothing becomes endless that was not. -/
theorem transfer (h : IsRing feeds S C) (hCT : C ⊆ T)
    (hedge : ∀ x ∈ C, ∀ y ∈ C, feeds x y → feeds' x y)
    (hdead : ∀ x ∈ C, ∀ y, feeds' x y → Endless feeds' T y → feeds x y ∧ Endless feeds S y) :
    IsRing feeds' T C := by
  have hendless : ∀ x ∈ C, Endless feeds' T x := by
    intro x hx
    refine ⟨C, hCT, hx, ?_⟩
    intro y hy
    obtain ⟨z, hz, hyz⟩ := h.leads y hy
    exact ⟨z, hz, hedge y hy z hz hyz.edge⟩
  have hleads : ∀ x ∈ C, ∀ y, Leads feeds S x y → Leads feeds' T x y := by
    intro x hx y hxy
    have hy := h.mem_of_leads hx hxy
    refine ⟨hedge x hx y hy hxy.edge, hendless y hy, ?_⟩
    intro z hxz hz
    obtain ⟨hedge', hz'⟩ := hdead x hx z hxz hz
    exact hxy.first z hedge' hz'
  refine ⟨h.nonempty, hCT, ?_, ?_⟩
  · intro x hx
    obtain ⟨z, hz, hxz⟩ := h.leads x hx
    exact ⟨z, hz, hleads x hx z hxz⟩
  · intro x hx y hy
    have hxy := h.linked x hx y hy
    clear hy
    induction hxy with
    | refl => exact .refl
    | tail hxz hzw ih => exact ih.tail (hleads _ (h.mem_of_reflTransGen hx hxz) _ hzw)

/-- A ring is a ring of every smaller scope that it lies in. -/
theorem restrict (h : IsRing feeds S C) (hCT : C ⊆ T) (hTS : T ⊆ S) : IsRing feeds T C :=
  h.transfer hCT (fun _ _ _ _ hxy => hxy) fun _ _ _ hxy hy => ⟨hxy, hy.mono hTS⟩

/-- A ring is a ring of a larger scope in which no walk leaves the smaller one. -/
theorem extend (h : IsRing feeds S C) (hST : S ⊆ T)
    (hclosed : ∀ x ∈ S, ∀ y ∈ T, feeds x y → y ∈ S) : IsRing feeds T C := by
  refine h.transfer (h.subset.trans hST) (fun _ _ _ _ hxy => hxy) fun x hx y hxy hy => ⟨hxy, ?_⟩
  have hyS := hclosed x (h.subset hx) y hy.mem hxy
  exact (hy.restrict hyS hclosed).mono Set.inter_subset_left

end IsRing

/-! ### Clearing a scope -/

/-- Taking rings out of the scope `S`, one after another until no cell is endless, can take out the
cells of `P`. -/
inductive Clears (feeds : Address → Address → Prop) : Set Address → Set Address → Prop
  | done {S : Set Address} (h : ∀ a, ¬ Endless feeds S a) : Clears feeds S ∅
  | ring {S C P : Set Address} (hC : IsRing feeds S C) (hP : Clears feeds (S \ C) P) :
      Clears feeds S (C ∪ P)

namespace Clears

theorem subset (h : Clears feeds S P) : P ⊆ S := by
  induction h with
  | done _ => exact Set.empty_subset _
  | ring hC _ ih => exact Set.union_subset hC.subset (ih.trans Set.sdiff_subset)

/-- What is left has no endless walk. -/
theorem not_endless (h : Clears feeds S P) (a : Address) : ¬ Endless feeds (S \ P) a := by
  induction h with
  | done h => rw [Set.sdiff_empty]; exact h a
  | ring _ _ ih => rwa [← Set.sdiff_sdiff]

/-- Every cell that is taken out is on a cycle. -/
theorem transGen (h : Clears feeds S P) (ha : a ∈ P) : TransGen feeds a a := by
  induction h with
  | done _ => exact absurd ha (Set.notMem_empty a)
  | ring hC _ ih =>
    rcases ha with ha | ha
    · exact hC.transGen ha
    · exact ih ha

/-- A ring of the scope is taken out sooner or later. Taken out first, it leaves the rest to be
taken out as before. -/
theorem take_ring (hP : Clears feeds S P) (hC : IsRing feeds S C) :
    C ⊆ P ∧ Clears feeds (S \ C) (P \ C) := by
  induction hP with
  | done h =>
    obtain ⟨a, ha⟩ := hC.nonempty
    exact absurd ((hC.endless ha).mono hC.subset) (h a)
  | @ring S D P hD hP ih =>
    rcases hC.eq_or_disjoint hD with rfl | hdisj
    · refine ⟨Set.subset_union_left, ?_⟩
      have hsub : P \ C = P := (Set.subset_sdiff.mp hP.subset).2.sdiff_eq_left
      rwa [Set.union_sdiff_left, hsub]
    · have hC' : IsRing feeds (S \ D) C :=
        hC.restrict (Set.subset_sdiff.mpr ⟨hC.subset, hdisj⟩) Set.sdiff_subset
      have hD' : IsRing feeds (S \ C) D :=
        hD.restrict (Set.subset_sdiff.mpr ⟨hD.subset, hdisj.symm⟩) Set.sdiff_subset
      obtain ⟨hCP, hrest⟩ := ih hC'
      refine ⟨hCP.trans Set.subset_union_right, ?_⟩
      rw [Set.sdiff_sdiff_comm] at hrest
      rw [Set.union_sdiff_distrib, hdisj.symm.sdiff_eq_left]
      exact .ring hD' hrest

/-- **The choice of rings does not matter.** Whichever rings are taken out, and in whichever order,
the same cells have been taken out when no endless walk is left. -/
theorem unique (hP : Clears feeds S P) (hQ : Clears feeds S Q) : P = Q := by
  induction hP generalizing Q with
  | done h =>
    cases hQ with
    | done _ => rfl
    | ring hC _ =>
      obtain ⟨a, ha⟩ := hC.nonempty
      exact absurd ((hC.endless ha).mono hC.subset) (h a)
  | ring hC _ ih =>
    obtain ⟨hCQ, hrest⟩ := hQ.take_ring hC
    rw [ih hrest, Set.union_sdiff_cancel hCQ]

/-- A part of the scope that no walk leaves can be cleared first. -/
theorem append (hQ : Clears feeds S Q) (hST : S ⊆ T)
    (hclosed : ∀ x ∈ S, ∀ y ∈ T, feeds x y → y ∈ S) (hP : Clears feeds (T \ Q) P) :
    Clears feeds T (Q ∪ P) := by
  induction hQ generalizing T with
  | done _ => rwa [Set.empty_union, ← Set.sdiff_empty (s := T)]
  | @ring S C Q hC _ ih =>
    rw [← Set.sdiff_sdiff] at hP
    rw [Set.union_assoc]
    refine .ring (hC.extend hST hclosed) (ih (Set.sdiff_subset_sdiff_left hST) ?_ hP)
    rintro x ⟨hxS, -⟩ y ⟨hyT, hyC⟩ hxy
    exact ⟨hclosed x hxS y hyT hxy, hyC⟩

end Clears

/-! ### An edit of one cell

An edit of a cell replaces the edges into it. Before and after, no walk leaves the set `K` of the
cells that can be reached from the edited one, and the two relations agree on all edges into cells
outside `K`. What is taken out in `K` has to be found anew; the rest stays as it was. -/

section Edit

variable {K : Set Address}

/-- Where nothing in `K` is endless any more, what is endless was endless before. -/
theorem Endless.of_agree (h : Endless feeds' T a)
    (hagree : ∀ x y, y ∉ K → (feeds x y ↔ feeds' x y)) (hscope : T \ K ⊆ S)
    (hdead : ∀ x ∈ K, ¬ Endless feeds' T x) : Endless feeds S a ∧ a ∉ K := by
  obtain ⟨L, hL, ha, hnext⟩ := h
  have houtside : ∀ x ∈ L, x ∉ K := fun x hx hxK => hdead x hxK ⟨L, hL, hx, hnext⟩
  refine ⟨⟨L, fun x hx => hscope ⟨hL hx, houtside x hx⟩, ha, fun x hx => ?_⟩, houtside a ha⟩
  obtain ⟨y, hy, hxy⟩ := hnext x hx
  exact ⟨y, hy, (hagree x y (houtside y hy)).mpr hxy⟩

/-- Once nothing in `K` is endless, what was taken out elsewhere is taken out again. -/
theorem Clears.outside (hP : Clears feeds S P) (hclosed : ∀ x ∈ K, ∀ y, feeds x y → y ∈ K)
    (hagree : ∀ x y, y ∉ K → (feeds x y ↔ feeds' x y)) (hscope : T \ K = S \ K)
    (hdead : ∀ x ∈ K, ¬ Endless feeds' T x) : Clears feeds' T (P \ K) := by
  induction hP generalizing T with
  | done h =>
    rw [Set.empty_sdiff]
    exact .done fun a ha => h a (ha.of_agree hagree (hscope.le.trans Set.sdiff_subset) hdead).1
  | @ring S C P hC _ ih =>
    rw [Set.union_sdiff_distrib]
    rcases hC.subset_or_disjoint hclosed with hCK | hdisj
    · rw [Set.sdiff_eq_empty.mpr hCK, Set.empty_union]
      refine ih ?_ hdead
      rw [hscope, Set.sdiff_sdiff, Set.union_eq_self_of_subset_left hCK]
    · have hCT : C ⊆ T := (Set.subset_sdiff.mpr ⟨hC.subset, hdisj⟩).trans
        (hscope.ge.trans Set.sdiff_subset)
      have hC' : IsRing feeds' T C := by
        refine hC.transfer hCT ?_ ?_
        · intro x _ y hy hxy
          exact (hagree x y (Set.disjoint_left.mp hdisj hy)).mp hxy
        · intro x _ y hxy hy
          obtain ⟨hyS, hyK⟩ := hy.of_agree hagree (hscope.le.trans Set.sdiff_subset) hdead
          exact ⟨(hagree x y hyK).mpr hxy, hyS⟩
      rw [hdisj.sdiff_eq_left]
      refine .ring hC' (ih ?_ fun x hx h => hdead x hx (h.mono Set.sdiff_subset))
      rw [Set.sdiff_sdiff_comm, hscope, Set.sdiff_sdiff_comm]

/-- **An edit of one cell.** Of the cells that are taken out in the whole sheet, those that cannot
be reached from the edited cell stay the same. The others are the ones that are taken out in the
part of the sheet that depends on the edited cell. -/
theorem Clears.update {origin : Address} (hP : Clears feeds Set.univ P)
    (hQ : Clears feeds' {x | TransGen feeds' origin x} Q)
    (hagree : ∀ x y, y ≠ origin → (feeds x y ↔ feeds' x y)) :
    Clears feeds' Set.univ (Q ∪ P \ {x | ReflTransGen feeds' origin x}) := by
  have hQK : Q ⊆ {x | ReflTransGen feeds' origin x} := fun x hx => (hQ.subset hx).to_reflTransGen
  have hclosed : ∀ x ∈ {x | ReflTransGen feeds' origin x}, ∀ y, feeds x y →
      y ∈ {x | ReflTransGen feeds' origin x} := by
    intro x hx y hxy
    by_cases hy : y = origin
    · rw [hy]
      exact .refl
    · exact hx.tail ((hagree x y hy).mp hxy)
  have hdead : ∀ x ∈ {x | ReflTransGen feeds' origin x}, ¬ Endless feeds' (Set.univ \ Q) x := by
    intro x hx h
    -- the walk is in the cleared part from its second cell on
    obtain ⟨y, hxy, hy⟩ := h.exists_feeds
    have hreach : TransGen feeds' origin y := TransGen.tail' hx hxy
    refine hQ.not_endless y ((hy.restrict hreach ?_).mono ?_)
    · exact fun x hx y _ hxy => hx.tail hxy
    · exact fun x hx => ⟨hx.1, hx.2.2⟩
  refine hQ.append (Set.subset_univ _) (fun x hx y _ hxy => hx.tail hxy) ?_
  refine hP.outside hclosed (fun x y hy => hagree x y ?_) ?_ hdead
  · rintro rfl
    exact hy .refl
  · rw [Set.sdiff_sdiff, Set.union_eq_self_of_subset_left hQK]

end Edit

/-! ### Walking back

Where no walk goes on for ever in the direction of dependents, none does in the other direction
either, as long as there are finitely many edges. -/

/-- The edges within a scope. -/
def Within (feeds : Address → Address → Prop) (S : Set Address) (a b : Address) : Prop :=
  feeds a b ∧ a ∈ S ∧ b ∈ S

theorem not_transGen_of_not_endless (h : ∀ a, ¬ Endless feeds S a) (a : Address) :
    ¬ TransGen (Within feeds S) a a := by
  intro ha
  refine h a ⟨{x | ReflTransGen (Within feeds S) a x ∧ TransGen (Within feeds S) x a}, ?_,
    ⟨.refl, ha⟩, ?_⟩
  · rintro x ⟨-, hx⟩
    obtain ⟨y, hxy, -⟩ := TransGen.head'_iff.mp hx
    exact hxy.2.1
  · rintro x ⟨hax, hxa⟩
    obtain ⟨y, hxy, hya⟩ := TransGen.head'_iff.mp hxa
    refine ⟨y, ⟨hax.tail hxy, ?_⟩, hxy.1⟩
    rcases Relation.reflTransGen_iff_eq_or_transGen.mp hya with rfl | hya
    · exact ha
    · exact hya

/-- Without endless walks, statements about the cells in scope can be proved by going from the
cells that are read to those that read them. -/
theorem wellFounded_within {cells : List Address}
    (hcells : ∀ x y, feeds x y → x ∈ cells ∧ y ∈ cells) (h : ∀ a, ¬ Endless feeds S a) :
    WellFounded (Within feeds S) := by
  have hirrefl : Std.Irrefl (TransGen (Within feeds S)) := ⟨not_transGen_of_not_endless h⟩
  have hstrict : IsStrictOrder Address (TransGen (Within feeds S)) := {}
  have hfinite : {a | a ∈ cells}.WellFoundedOn (TransGen (Within feeds S)) :=
    cells.finite_toSet.wellFoundedOn
  refine Subrelation.wf ?_ (Set.wellFoundedOn_iff.mp hfinite)
  intro a b hab
  obtain ⟨ha, hb⟩ := hcells a b hab.1
  exact ⟨TransGen.single hab, ha, hb⟩

end Worksheet
