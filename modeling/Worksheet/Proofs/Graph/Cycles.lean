import Worksheet.Proofs.Graph.Edges
import Worksheet.Proofs.Graph.Rings

/-!
# Cycles as lists

A directed cycle is written as the list of its cells, from any one of them round to the last one
before it. A search reports the cycles that it finds in this form, and it is the form in which
statements about circular references are made; for proofs it is as good as the relation's transitive
closure.

## Main definitions

* `ClosedChain` — a list of cells around which a relation leads back to the first one
* `Graph.IsCycle`, `Graph.OnCycle` — the directed cycles of a graph, and the cells on them

## Main results

* `isRing_of_closedChain` — a closed chain of `Leads` is a ring
* `Graph.onCycle_iff` — a cell is on a cycle if it can be reached from itself
* `Graph.IsCycle.exists_notMem` — no cycle is left where no cell is endless
-/

namespace Worksheet

open Relation (ReflTransGen TransGen)

variable {r r' feeds : Address → Address → Prop} {a b : Address} {cells : List Address}
  {S : Set Address}

/-- The relation leads from every cell of the list to the next one, and from the last to the
first. -/
def ClosedChain (r : Address → Address → Prop) : List Address → Prop
  | [] => False
  | a :: rest => (a :: (rest ++ [a])).IsChain r

theorem ClosedChain.mono (h : ClosedChain r cells)
    (hr : ∀ x ∈ cells, ∀ y ∈ cells, r x y → r' x y) : ClosedChain r' cells := by
  cases cells with
  | nil => exact h
  | cons a rest =>
    have hmem : ∀ x ∈ a :: (rest ++ [a]), x ∈ a :: rest := by
      intro x hx
      rw [List.mem_cons, List.mem_append, List.mem_singleton] at hx
      rcases hx with rfl | hx | rfl
      · exact List.mem_cons_self
      · exact List.mem_cons_of_mem a hx
      · exact List.mem_cons_self
    exact List.IsChain.imp_of_mem_imp (fun x y hx hy => hr x (hmem x hx) y (hmem y hy)) h

theorem ClosedChain.ne_nil (h : ClosedChain r cells) : cells ≠ [] := by
  rintro rfl
  exact h

/-- Around a closed chain one gets from every cell to every cell. -/
theorem ClosedChain.transGen (h : ClosedChain r cells) (ha : a ∈ cells) (hb : b ∈ cells) :
    TransGen r a b := by
  cases cells with
  | nil => cases ha
  | cons c rest =>
    have hchain : (c :: (rest ++ [c])).IsChain (TransGen r) :=
      List.IsChain.imp (fun _ _ => TransGen.single) h
    obtain ⟨hfrom, hrest⟩ := List.pairwise_cons.mp hchain.pairwise
    have hto : ∀ x ∈ c :: rest, TransGen r x c := by
      intro x hx
      rcases List.mem_cons.mp hx with rfl | hx
      · exact hfrom x (List.mem_append_right rest List.mem_cons_self)
      · exact (List.pairwise_append.mp hrest).2.2 x hx c List.mem_cons_self
    refine (hto a ha).trans (hfrom b ?_)
    rcases List.mem_cons.mp hb with rfl | hb
    · exact List.mem_append_right rest List.mem_cons_self
    · exact List.mem_append_left _ hb

theorem exists_rel_of_isChain {l : List Address} {x : Address} (h : (l ++ [x]).IsChain r)
    (ha : a ∈ l) : ∃ b ∈ l.tail ++ [x], r a b := by
  induction l with
  | nil => cases ha
  | cons c rest ih =>
    rcases List.mem_cons.mp ha with rfl | ha
    · cases rest with
      | nil => exact ⟨x, List.mem_cons_self, (List.isChain_cons_cons.mp h).1⟩
      | cons d rest => exact ⟨d, List.mem_cons_self, (List.isChain_cons_cons.mp h).1⟩
    · obtain ⟨b, hb, hab⟩ := ih (List.IsChain.tail h) ha
      refine ⟨b, ?_, hab⟩
      rcases List.mem_append.mp hb with hb | hb
      · exact List.mem_append_left _ (List.mem_of_mem_tail hb)
      · exact List.mem_append_right _ hb

/-- Every cell of a closed chain has a next one. -/
theorem ClosedChain.exists_rel (h : ClosedChain r cells) (ha : a ∈ cells) :
    ∃ b ∈ cells, r a b := by
  cases cells with
  | nil => cases ha
  | cons c rest =>
    obtain ⟨b, hb, hab⟩ := exists_rel_of_isChain (l := c :: rest) h ha
    refine ⟨b, ?_, hab⟩
    rcases List.mem_append.mp hb with hb | hb
    · exact List.mem_cons_of_mem c hb
    · rw [List.mem_singleton.mp hb]
      exact List.mem_cons_self

/-- A closed chain on which every cell leads to the next one is a ring. -/
theorem isRing_of_closedChain (h : ClosedChain (Leads feeds S) cells) :
    IsRing feeds S {a | a ∈ cells} where
  nonempty := List.exists_mem_of_ne_nil cells h.ne_nil
  subset := by
    intro a ha
    obtain ⟨b, -, hba⟩ := TransGen.tail'_iff.mp (h.transGen ha ha)
    exact hba.endless.mem
  leads _ ha := h.exists_rel ha
  linked _ ha _ hb := (h.transGen ha hb).to_reflTransGen

/-- Whatever leads back to where it came from does so around a closed chain. -/
theorem exists_closedChain_of_transGen (h : TransGen r a a) :
    ∃ cells, ClosedChain r cells ∧ a ∈ cells := by
  obtain ⟨b, hab, hba⟩ := TransGen.head'_iff.mp h
  obtain ⟨l, hchain, hlast⟩ := List.exists_isChain_cons_of_relationReflTransGen hba
  refine ⟨a :: (b :: l).dropLast, ?_, List.mem_cons_self⟩
  have hsplit : (b :: l).dropLast ++ [a] = b :: l := by
    rw [← hlast, List.dropLast_append_getLast]
  rw [ClosedChain, hsplit]
  exact List.isChain_cons_cons.mpr ⟨hab, hchain⟩

namespace Graph

variable {g : Graph}

/-- A directed cycle: each of the cells is read by the next one, and the last one by the first. -/
def IsCycle (g : Graph) (cells : List Address) : Prop := ClosedChain g.Feeds cells

/-- The cell lies on a directed cycle. -/
def OnCycle (g : Graph) (a : Address) : Prop := ∃ cells, g.IsCycle cells ∧ a ∈ cells

theorem onCycle_iff : g.OnCycle a ↔ TransGen g.Feeds a a := by
  constructor
  · rintro ⟨cells, hcycle, ha⟩
    exact hcycle.transGen ha ha
  · exact exists_closedChain_of_transGen

/-- Where no cell is endless, every cycle has a cell that is out of scope. -/
theorem IsCycle.exists_notMem (hcycle : g.IsCycle cells) (h : ∀ a, ¬ Endless g.Feeds S a) :
    ∃ a ∈ cells, a ∉ S := by
  by_contra hall
  push Not at hall
  obtain ⟨a, ha⟩ := List.exists_mem_of_ne_nil cells hcycle.ne_nil
  exact h a ⟨{x | x ∈ cells}, hall, ha, fun x hx => hcycle.exists_rel hx⟩

end Graph

end Worksheet
