import Worksheet.Sheet.Edit
import Worksheet.Proofs.Formula.Reads
import Worksheet.Proofs.Graph.Plan

/-!
# The values after a plan

Carrying out a plan writes the values of cells one after another, and every one of them is computed
among the values of the moment. Because the plan has each cell before the cells that read it, the
value that a formula finds in a cell when it is computed is the value that this cell has in the end.
So each cell of the plan could as well have been computed last, among the final values.

## Main results

* `CellTable.getElem?_foldl_recompute` — computing cells in order
* `CellTable.getElem?_carryOut_of_mem_pinned`, `CellTable.getElem?_carryOut_of_mem`,
  `CellTable.getElem?_carryOut_of_notMem` — the cells after a plan
-/

namespace Worksheet

open Relation (TransGen)

namespace CellTable

variable {cells : CellTable} {a b : Address} {order : List Address} {S R : Set Address}
  {feeds : Address → Address → Prop} {g : Graph} {plan : Plan}

theorem context_congr {cells' : CellTable} (h : cells[a]? = cells'[a]?) :
    cells.context a = cells'.context a := by
  unfold context
  rw [h]

theorem context_of_getElem? {c : Cell} (h : cells[a]? = some c) : cells.context a = c.value := by
  unfold context
  rw [h]

theorem getElem?_update (cells : CellTable) (f : Cell → Cell) (a b : Address) :
    (cells.update f a)[b]? = if b = a then cells[b]?.map f else cells[b]? := by
  by_cases hba : b = a
  · subst hba
    rw [if_pos rfl, update]
    split
    · rename_i c hc
      rw [Std.TreeMap.getElem?_insert_self, hc]
      rfl
    · rename_i hc
      rw [hc]
      rfl
  · rw [if_neg hba, update]
    split
    · exact AddressMap.getElem?_insert_of_ne cells _ hba
    · rfl

theorem getElem?_recompute (cells : CellTable) (a b : Address) :
    (cells.recompute a)[b]? =
      if b = a then cells[b]?.map (Cell.recompute cells.context) else cells[b]? :=
  getElem?_update cells _ a b

theorem getElem?_foldl_pin (pinned : List Address) (cells : CellTable) (b : Address) :
    (pinned.foldl (fun cells a => cells.update Cell.pin a) cells)[b]? =
      if b ∈ pinned then cells[b]?.map Cell.pin else cells[b]? := by
  induction pinned generalizing cells with
  | nil => rfl
  | cons a pinned ih =>
    rw [List.foldl_cons, ih, getElem?_update]
    by_cases hba : b = a
    · subst hba
      rw [if_pos rfl, if_pos List.mem_cons_self]
      split
      · rw [Option.map_map]
        rfl
      · rfl
    · rw [if_neg hba]
      have hmem : b ∈ a :: pinned ↔ b ∈ pinned := List.mem_cons.trans (or_iff_right hba)
      simp only [hmem]

/-- **Computing cells in order.** Where each cell comes before those that read it, the cells might
as well have been computed among the final values. -/
theorem getElem?_foldl_recompute (hordered : Ordered feeds S order) (hnodup : order.Nodup)
    (hmem : ∀ a ∈ order, a ∈ S)
    (hreads : ∀ b c, cells[b]? = some c → ∀ a ∈ c.dependsOn, a ∈ S → feeds a b) (b : Address) :
    (order.foldl recompute cells)[b]? =
      if b ∈ order then cells[b]?.map (Cell.recompute (order.foldl recompute cells).context)
      else cells[b]? := by
  induction order generalizing cells b with
  | nil => rfl
  | cons a order ih =>
    have hreads' : ∀ b c, (cells.recompute a)[b]? = some c → ∀ x ∈ c.dependsOn, x ∈ S →
        feeds x b := by
      intro b c hc x hx hxS
      rw [getElem?_recompute] at hc
      split at hc
      · obtain ⟨d, hd, rfl⟩ := Option.map_eq_some_iff.mp hc
        rw [Cell.dependsOn_recompute] at hx
        exact hreads b d hd x hx hxS
      · exact hreads b c hc x hx hxS
    have hrest := ih hordered.2 (List.nodup_cons.mp hnodup).2
      (fun x hx => hmem x (List.mem_cons_of_mem a hx)) hreads'
    rw [List.foldl_cons]
    by_cases hba : b = a
    · subst hba
      rw [hrest b, if_neg (List.nodup_cons.mp hnodup).1, if_pos List.mem_cons_self,
        getElem?_recompute, if_pos rfl]
      cases hc : cells[b]? with
      | none => rfl
      | some c =>
        rw [Option.map_some, Option.map_some]
        congr 1
        apply Cell.recompute_congr
        intro x hx
        -- what the cell reads was computed before, or is not computed at all
        have hlater : x ∉ b :: order := fun hin =>
          hordered.not_feeds hnodup (hmem b List.mem_cons_self) hin
            (hreads b c hc x hx (hmem x hin))
        obtain ⟨hxb, hxorder⟩ := not_or.mp (mt List.mem_cons.mpr hlater)
        refine context_congr ?_
        rw [hrest x, if_neg hxorder, getElem?_recompute, if_neg hxb]
    · have hmem' : b ∈ a :: order ↔ b ∈ order := List.mem_cons.trans (or_iff_right hba)
      rw [hrest b, getElem?_recompute, if_neg hba]
      simp only [hmem']

/-! ### Carrying out a plan -/

section CarryOut

variable (hplan : g.Settles R plan)
  (hreads : ∀ b c, cells[b]? = some c → ∀ a ∈ c.dependsOn, a ∈ R → g.Feeds a b)

include hplan hreads

theorem getElem?_carryOut (b : Address) :
    (cells.carryOut plan)[b]? =
      if b ∈ plan.order then cells[b]?.map (Cell.recompute (cells.carryOut plan).context)
      else if b ∈ plan.pinned then cells[b]?.map Cell.pin else cells[b]? := by
  have hpins := getElem?_foldl_pin plan.pinned cells
  have hreads' : ∀ b c,
      (plan.pinned.foldl (fun cells a => cells.update Cell.pin a) cells)[b]? = some c →
        ∀ a ∈ c.dependsOn, a ∈ R \ {a | a ∈ plan.pinned} → g.Feeds a b := by
    intro b c hc a ha haR
    rw [hpins] at hc
    split at hc
    · obtain ⟨d, hd, rfl⟩ := Option.map_eq_some_iff.mp hc
      exact hreads b d hd a ha haR.1
    · exact hreads b c hc a ha haR.1
  rw [carryOut, getElem?_foldl_recompute hplan.ordered hplan.nodup
    (fun a ha => (hplan.mem_order_iff a).mp ha) hreads', hpins]
  by_cases hb : b ∈ plan.order
  · have hnot : b ∉ plan.pinned := ((hplan.mem_order_iff b).mp hb).2
    rw [if_pos hb, if_pos hb, if_neg hnot]
  · rw [if_neg hb, if_neg hb]

/-- The cells that a plan pins show a circular reference. -/
theorem getElem?_carryOut_of_mem_pinned (hb : b ∈ plan.pinned) :
    (cells.carryOut plan)[b]? = cells[b]?.map Cell.pin := by
  have hnot : b ∉ plan.order := fun hin => ((hplan.mem_order_iff b).mp hin).2 hb
  rw [getElem?_carryOut hplan hreads, if_neg hnot, if_pos hb]

/-- The other cells that may be affected are computed among the final values. -/
theorem getElem?_carryOut_of_mem (hb : b ∈ R) (hnot : b ∉ plan.pinned) :
    (cells.carryOut plan)[b]? = cells[b]?.map (Cell.recompute (cells.carryOut plan).context) := by
  rw [getElem?_carryOut hplan hreads, if_pos ((hplan.mem_order_iff b).mpr ⟨hb, hnot⟩)]

/-- All other cells stay as they were. -/
theorem getElem?_carryOut_of_notMem (hb : b ∉ R) : (cells.carryOut plan)[b]? = cells[b]? := by
  have hnotOrder : b ∉ plan.order := fun hin => hb ((hplan.mem_order_iff b).mp hin).1
  have hnotPinned : b ∉ plan.pinned := fun hin => hb (hplan.clears.subset hin)
  rw [getElem?_carryOut hplan hreads, if_neg hnotOrder, if_neg hnotPinned]

end CarryOut

end CellTable

end Worksheet
