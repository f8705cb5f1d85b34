import Worksheet.Proofs.Formula.Reads

/-!
# What the functions make of a rectangle

A function goes through the cells of its rectangle in reading order. Two things can come of it
(`Aggregate.Summarises`). If some cell holds a fault, the first such cell decides, whatever numbers
and texts come before it. And if none does, only the numbers count: the result is their sum from the
left, starting with zero, or that sum divided by how many there are, provided it is a finite number.

Addition of floats is not associative, so the order of the cells is part of the statement, and it is
said by comparing addresses and not by the list that evaluation goes through. Since that list is the
same for any two opposite corners, so is the result (`Formula.evaluate_call_exact`).

## Main definitions

* `Context.numbersOf` — the numbers among the values of some cells
* `Aggregate.ofNumbers` — the sum and the mean of a list of numbers
* `Aggregate.Summarises` — the two ways in which a function may end

## Main results

* `Tally.ofValues_eq_ok`, `Tally.ofValues_eq_error` — what a tally comes to
* `Aggregate.summarises_apply` — a function in terms of the numbers of its rectangle
* `Formula.evaluate_call_exact` — the headline: calls with any arguments
-/

namespace Worksheet

variable {a first last : Address} {context : Context} {f : Aggregate} {e : Fault}

/-! ### Tallies -/

/-- The number, if the value is one. -/
def Value.number? : Value → Option Float
  | number x => some x
  | _ => none

namespace Tally

variable {values before after : List Value}

/-- Without a fault, the numbers are added up from the left, and counted. -/
theorem foldlM_add_eq_ok (h : ∀ e, .fault e ∉ values) (t : Tally) :
    values.foldlM Tally.add t = .ok ⟨(values.filterMap Value.number?).foldl (· + ·) t.total,
      t.count + (values.filterMap Value.number?).length⟩ := by
  induction values generalizing t with
  | nil => rfl
  | cons v values ih =>
    have hvalues : ∀ e, .fault e ∉ values := fun e he => h e (List.mem_cons_of_mem _ he)
    rw [List.foldlM_cons]
    cases v with
    | number x =>
      have hnumbers : (Value.number x :: values).filterMap Value.number? =
          x :: values.filterMap Value.number? := rfl
      rw [hnumbers, List.foldl_cons, List.length_cons, Nat.add_comm _ 1, ← Nat.add_assoc]
      exact ih hvalues ⟨t.total + x, t.count + 1⟩
    | text content => exact ih hvalues t
    | fault e => exact absurd List.mem_cons_self (h e)

theorem ofValues_eq_ok (h : ∀ e, .fault e ∉ values) : Tally.ofValues values =
    .ok ⟨(values.filterMap Value.number?).foldl (· + ·) 0,
      (values.filterMap Value.number?).length⟩ := by
  rw [ofValues, foldlM_add_eq_ok h, empty, Nat.zero_add]

/-- The first fault ends a tally, whatever comes before and after it. -/
theorem ofValues_eq_error (h : ∀ e, .fault e ∉ before) :
    Tally.ofValues (before ++ .fault e :: after) = .error e := by
  rw [ofValues, List.foldlM_append, foldlM_add_eq_ok h]
  rfl

end Tally

/-! ### Functions -/

/-- The numbers among the values of the cells, in the order of the cells. -/
def Context.numbersOf (context : Context) (cells : List Address) : List Float :=
  cells.filterMap fun a => (context a).number?

namespace Aggregate

/-- The function of a list of numbers: their sum from the left, starting with zero, or that sum
divided by their number. The mean of no numbers is zero. -/
def ofNumbers (f : Aggregate) (numbers : List Float) : Float :=
  match f with
  | sum => numbers.foldl (· + ·) 0
  | average =>
    if numbers.length = 0 then 0 else numbers.foldl (· + ·) 0 / Float.ofNat numbers.length

/-- The result is what the function makes of the cells. -/
structure Summarises (f : Aggregate) (context : Context) (cells : List Address)
    (result : Except Fault Float) : Prop where
  /-- If there are faults, the result is that of the first cell, in reading order, with one. -/
  of_fault : (∃ a ∈ cells, ∃ e, context a = .fault e) →
    ∃ a ∈ cells, ∃ e, context a = .fault e ∧
      (∀ b ∈ cells, compare b a = .lt → ∀ e', context b ≠ .fault e') ∧ result = .error e
  /-- Otherwise the result is that of the numbers, if it is finite. Texts do not count. -/
  of_not_fault : (∀ a ∈ cells, ∀ e, context a ≠ .fault e) →
    result = if (f.ofNumbers (context.numbersOf cells)).isFinite = true
      then .ok (f.ofNumbers (context.numbersOf cells)) else .error (.invalid "Numeric overflow")

/-- The first of some cells that holds a fault. -/
theorem exists_first_fault {cells : List Address} (h : ∃ a ∈ cells, ∃ e, context a = .fault e) :
    ∃ before a after e, cells = before ++ a :: after ∧ context a = .fault e ∧
      ∀ b ∈ before, ∀ e', context b ≠ .fault e' := by
  induction cells with
  | nil =>
    obtain ⟨a, ha, -⟩ := h
    cases ha
  | cons c cells ih =>
    by_cases hc : ∃ e, context c = .fault e
    · obtain ⟨e, he⟩ := hc
      exact ⟨[], c, cells, e, rfl, he, nofun⟩
    · obtain ⟨a, ha, e, he⟩ := h
      have hcells : a ∈ cells := (List.mem_cons.mp ha).resolve_left fun heq => hc ⟨e, heq ▸ he⟩
      obtain ⟨before, a, after, e, rfl, he, hbefore⟩ := ih ⟨a, hcells, e, he⟩
      refine ⟨c :: before, a, after, e, rfl, he, List.forall_mem_cons.mpr ⟨?_, hbefore⟩⟩
      exact fun e' he' => hc ⟨e', he'⟩

/-- What stands earlier in reading order stands earlier in the list. -/
theorem mem_before_of_compare_eq_lt {before after : List Address} {b : Address}
    (hcells : (before ++ a :: after).Pairwise fun a b => compare a b = .lt)
    (hb : b ∈ before ++ a :: after) (hlt : compare b a = .lt) : b ∈ before := by
  rcases List.mem_append.mp hb with hb | hb
  · exact hb
  · rcases List.mem_cons.mp hb with rfl | hb
    · cases hlt.symm.trans Std.ReflCmp.compare_self
    · have hgt : compare a b = .lt :=
        (List.pairwise_cons.mp (List.pairwise_append.mp hcells).2.1).1 b hb
      exact absurd hgt (Std.OrientedCmp.not_lt_of_lt hlt)

theorem not_fault_mem_map {cells : List Address} (h : ∀ a ∈ cells, ∀ e, context a ≠ .fault e)
    (e : Fault) : .fault e ∉ cells.map context := by
  intro hmem
  obtain ⟨a, ha, he⟩ := List.mem_map.mp hmem
  exact h a ha e he

/-- **A function in terms of the numbers of its rectangle.** -/
theorem summarises_apply (f : Aggregate) (context : Context) (first last : Address) :
    f.Summarises context (Address.rectangle first last) (f.apply context first last) := by
  have hordered := Address.pairwise_rectangle first last
  unfold apply
  constructor
  · intro hfault
    obtain ⟨before, a, after, e, hcells, he, hbefore⟩ := exists_first_fault hfault
    rw [hcells] at hordered ⊢
    refine ⟨a, List.mem_append_right _ List.mem_cons_self, e, he, ?_, ?_⟩
    · intro b hb hlt
      exact hbefore b (mem_before_of_compare_eq_lt hordered hb hlt)
    · rw [List.map_append, List.map_cons, he, Tally.ofValues_eq_error (not_fault_mem_map hbefore)]
      rfl
  · intro hnone
    have hnumbers : context.numbersOf (Address.rectangle first last) =
        ((Address.rectangle first last).map context).filterMap Value.number? := by
      rw [List.filterMap_map]
      rfl
    rw [Tally.ofValues_eq_ok (not_fault_mem_map hnone), hnumbers]
    cases f <;> rfl

end Aggregate

/-! ### Calls -/

/-- **What the functions make of a rectangle.** In every context, and for both functions:

* A call with a rectangle ends in the fault of the first cell, in reading order, that holds one, or
  in the finite sum or mean of the numbers, or in an overflow.
* The cells that are meant are those between the two corners, in reading order.
* Any other two opposite corners of the rectangle give the same result.
* A call with any other arguments ends in one and the same fault, in whatever context. -/
theorem Formula.evaluate_call_exact (f : Aggregate) (context : Context) :
    (∀ first last, f.Summarises context (Address.rectangle first last)
      ((call f [range first last]).evaluate context)) ∧
    (∀ first last, (Address.rectangle first last).Pairwise (fun a b => compare a b = .lt) ∧
      ∀ a, a ∈ Address.rectangle first last ↔ Address.Encloses first last a) ∧
    (∀ first last first' last', Address.Renames first last first' last' →
      (call f [range first' last']).evaluate context =
        (call f [range first last]).evaluate context) ∧
    (∀ arguments, (∀ first last, arguments ≠ [range first last]) →
      (call f arguments).evaluate context =
        .error (.invalid "Function requires a range argument")) := by
  refine ⟨fun first last => ?_, fun first last => ?_, ?_, ?_⟩
  · rw [evaluate]
    exact f.summarises_apply context first last
  · exact ⟨Address.pairwise_rectangle first last, fun a => Address.mem_rectangle_iff⟩
  · intro first last first' last' hcorners
    rw [evaluate, evaluate, Aggregate.apply, Aggregate.apply, hcorners.rectangle_eq]
  · intro arguments hne
    rw [evaluate]
    · rfl
    · rintro first last rfl
      exact hne first last rfl

end Worksheet
