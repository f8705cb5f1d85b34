import Worksheet.Proofs.Formula.Grammar

/-!
# What readers make of a text

A reader returns its result under a bound for the length of the rest. For what it reads the bound is
of no interest, and two readings of texts of different length could not even be compared with it. So
the bound is dropped here (`Reading.result?`), and every reader gets an equation for each way in
which it may go on.

## Main definitions

* `Reading.result?` — the value that was read and the rest of the text
* `afterClosing?` — the text after a closing parenthesis
* `Formula.ChainEnds` — no operator comes next

## Main results

* `Formula.lastCorner_eq_some_iff`, `Formula.result?_reference_colon` and so on — the equations
-/

namespace Worksheet

namespace Reading

variable {α : Type} {bound m n : Nat}

/-- The value that was read and the rest of the text, without the bound. -/
def result? : Reading α bound → Option (α × List Char)
  | done value rest _ => some (value, rest)
  | stuck _ _ => none

@[simp] theorem result?_done (value : α) (rest : List Char) (shorter : rest.length < bound) :
    (done value rest shorter).result? = some (value, rest) := rfl

@[simp] theorem result?_stuck (fault : SyntaxFault) (rest : List Char) :
    (stuck fault rest : Reading α bound).result? = none := rfl

@[simp] theorem result?_weaken (h : m ≤ n) (reading : Reading α m) :
    (reading.weaken h).result? = reading.result? := by
  cases reading <;> rfl

end Reading

/-- What follows a closing parenthesis, if there is one after the blanks. -/
def afterClosing? (text : List Char) : Option (List Char) :=
  match skipBlanks text with
  | ')' :: rest => some rest
  | _ => none

theorem afterClosing?_eq_some_iff {text rest : List Char} :
    afterClosing? text = some rest ↔ skipBlanks text = ')' :: rest := by
  unfold afterClosing?
  split
  · rename_i rest' h
    rw [h]
    simp
  · rename_i h
    exact iff_of_false nofun (h rest)

namespace Formula

variable {grid : Grid} {word text rest : List Char} {e left : Formula} {f : Aggregate} {c : Char}
  {level : Precedence} {op : Operator}

/-! ### Names and operators -/

theorem ofNameChars?_eq_some_iff :
    Aggregate.ofNameChars? text = some f ↔ text.map Char.toUpper = f.name.toList := by
  constructor
  · intro h
    unfold Aggregate.ofNameChars? at h
    have hname := List.find?_some h
    exact (eq_of_beq hname).symm
  · intro h
    rw [Aggregate.ofNameChars?, h]
    cases f <;> decide

theorem operatorAt?_eq_some_iff :
    operatorAt? level c = some op ↔ op.symbol = c ∧ op.precedence = level := by
  rw [operatorAt?, Option.filter_eq_some_iff, Operator.ofSymbol?_eq_some_iff, beq_iff_eq]

/-! ### Cells, rectangles and calls -/

theorem lastCorner_eq_some_iff : (lastCorner grid word text).result? = some (e, rest) ↔
    ∃ a b, grid.parseChars? word = some a ∧
      grid.parseChars? (splitWord (skipBlanks text)).1 = some b ∧
      range a b = e ∧ (splitWord (skipBlanks text)).2 = rest := by
  unfold lastCorner
  cases ha : grid.parseChars? word with
  | none => simp
  | some a =>
    cases hb : grid.parseChars? (splitWord (skipBlanks text)).1 with
    | none => simp [hb]
    | some b => simp [hb]

theorem result?_reference_colon (h : skipBlanks text = ':' :: rest) :
    (reference grid word text).result? = (lastCorner grid word rest).result? := by
  unfold reference
  split
  · rename_i rest' h'
    cases h.symm.trans h'
    exact Reading.result?_weaken _ _
  · rename_i h'
    exact absurd h (h' rest)

theorem result?_reference_of_ne (h : (skipBlanks text).head? ≠ some ':') :
    (reference grid word text).result? =
      (grid.parseChars? word).map fun a => (cell a, skipBlanks text) := by
  unfold reference
  split
  · rename_i h'
    rw [h'] at h
    exact absurd rfl h
  · cases grid.parseChars? word <;> rfl

theorem result?_callArgument : (callArgument grid f text).result? =
    (reference grid (splitWord (skipBlanks text)).1 (splitWord (skipBlanks text)).2).result?.bind
      fun argument => (afterClosing? argument.2).map fun rest => (call f [argument.1], rest) := by
  simp only [callArgument]
  split
  · rename_i h
    rw [h]
    rfl
  · rename_i argument rest hrest h
    rw [h, Reading.result?_done, Option.bind_some, afterClosing?]
    split
    · rename_i h'
      simp [h']
    · rename_i h'
      split
      · rename_i heq
        exact absurd heq (h' _)
      · rfl

theorem result?_wordOperand_open (h : skipBlanks text = '(' :: rest) :
    (wordOperand grid word text).result? =
      (Aggregate.ofNameChars? word).bind fun f => (callArgument grid f rest).result? := by
  unfold wordOperand
  split
  · rename_i rest' h'
    cases h.symm.trans h'
    cases Aggregate.ofNameChars? word with
    | none => rfl
    | some f => exact Reading.result?_weaken _ _
  · rename_i h'
    exact absurd h (h' rest)

theorem result?_wordOperand_of_ne (h : (skipBlanks text).head? ≠ some '(') :
    (wordOperand grid word text).result? = (reference grid word text).result? := by
  unfold wordOperand
  split
  · rename_i h'
    rw [h'] at h
    exact absurd rfl h
  · rfl

/-! ### Operands -/

theorem result?_operand_nil (h : skipBlanks text = []) : (operand grid text).result? = none := by
  rw [operand]
  split
  · rfl
  · rename_i h'
    cases h.symm.trans h'

theorem result?_operand_digit (h : skipBlanks text = c :: rest) (hc : c.isDigit = true) :
    (operand grid text).result? = (readNumber? (splitNumber (c :: rest)).1).map
      fun x => (number x, (splitNumber (c :: rest)).2) := by
  rw [operand]
  split
  · rename_i h'
    cases h.symm.trans h'
  · rename_i h'
    cases h.symm.trans h'
    rw [dif_pos hc, Reading.result?_weaken, numberOperand]
    cases readNumber? (splitNumber (c :: rest)).1 <;> rfl

theorem result?_operand_word (h : skipBlanks text = c :: rest) (hdigit : ¬c.isDigit = true)
    (hc : c.isAlphanum = true) : (operand grid text).result? =
      (wordOperand grid (splitWord (c :: rest)).1 (splitWord (c :: rest)).2).result? := by
  rw [operand]
  split
  · rename_i h'
    cases h.symm.trans h'
  · rename_i h'
    cases h.symm.trans h'
    rw [dif_neg hdigit, dif_pos hc, Reading.result?_weaken]

theorem result?_operand_open (h : skipBlanks text = '(' :: rest) :
    (operand grid text).result? = (chain grid .additive rest).result?.bind fun inner =>
      (afterClosing? inner.2).map fun rest' => (inner.1, rest') := by
  rw [operand]
  split
  · rename_i h'
    cases h.symm.trans h'
  · rename_i h'
    cases h.symm.trans h'
    rw [dif_neg (by decide), dif_neg (by decide), if_pos rfl]
    split
    · rename_i h'
      rw [h']
      rfl
    · rename_i h'
      rw [h', Reading.result?_done, Option.bind_some, afterClosing?]
      split
      · rename_i h''
        simp [h'']
      · rename_i h''
        split
        · rename_i heq
          exact absurd heq (h'' _)
        · rfl

theorem result?_operand_other (h : skipBlanks text = c :: rest) (hc : ¬c.isAlphanum = true)
    (hopen : c ≠ '(') : (operand grid text).result? = none := by
  have hdigit : ¬c.isDigit = true := fun hdigit => hc (isAlphanum_of_isDigit hdigit)
  rw [operand]
  split
  · rfl
  · rename_i h'
    cases h.symm.trans h'
    rw [dif_neg hdigit, dif_neg hc, if_neg hopen]
    rfl

/-! ### Chains -/

theorem result?_chain : (chain grid level text).result? =
    (chainOperand grid level text).result?.bind fun operand =>
      (links grid level operand.1 operand.2).result? := by
  rw [chain]
  split
  · rename_i h
    rw [h]
    rfl
  · rename_i h
    rw [h, Reading.result?_weaken]
    rfl

theorem result?_chainOperand_additive : (chainOperand grid .additive text).result? =
    (chain grid .multiplicative text).result? := by
  rw [chainOperand]

theorem result?_chainOperand_multiplicative : (chainOperand grid .multiplicative text).result? =
    (operand grid text).result? := by
  rw [chainOperand]

/-- No operator of this precedence comes next, so that a chain ends here. -/
def ChainEnds (level : Precedence) (text : List Char) : Prop :=
  ∀ c ∈ (skipBlanks text).head?, operatorAt? level c = none

theorem chainEnds_nil (h : skipBlanks text = []) : ChainEnds level text := by
  rw [ChainEnds, h]
  rintro _ ⟨⟩

theorem chainEnds_cons (h : skipBlanks text = c :: rest) (hc : operatorAt? level c = none) :
    ChainEnds level text := by
  rw [ChainEnds, h]
  rintro _ ⟨⟩
  exact hc

theorem result?_links_end (h : ChainEnds level text) :
    (links grid level left text).result? = some (left, skipBlanks text) := by
  rw [links]
  split
  · rename_i h'
    rw [h']
    rfl
  · rename_i c rest h'
    have hnone : operatorAt? level c = none := h c (List.head?_eq_some_iff.mpr ⟨rest, h'⟩)
    split
    · exact congrArg (fun rest => some (left, rest)) h'.symm
    · rename_i hop
      cases hnone.symm.trans hop

theorem result?_links_operator (h : skipBlanks text = c :: rest)
    (hop : operatorAt? level c = some op) : (links grid level left text).result? =
      (chainOperand grid level rest).result?.bind fun right =>
        (links grid level (binary op left right.1) right.2).result? := by
  rw [links]
  split
  · rename_i h'
    cases h.symm.trans h'
  · rename_i h'
    cases h.symm.trans h'
    split
    · rename_i hop'
      cases hop.symm.trans hop'
    · rename_i hop'
      cases hop.symm.trans hop'
      split
      · rename_i hright
        rw [hright]
        rfl
      · rename_i hright
        rw [hright, Reading.result?_weaken]
        rfl

/-- Blanks before the rest of a chain do not matter. -/
theorem result?_links_congr {text' : List Char} (h : skipBlanks text = skipBlanks text') :
    (links grid level left text).result? = (links grid level left text').result? := by
  rcases Option.eq_none_or_eq_some ((skipBlanks text').head?.bind (operatorAt? level)) with
    hnone | ⟨op, hsome⟩
  · have hend' : ChainEnds level text' := Option.bind_eq_none_iff.mp hnone
    have hend : ChainEnds level text := by
      rw [ChainEnds, h]
      exact hend'
    rw [result?_links_end hend, result?_links_end hend', h]
  · obtain ⟨c, hc, hop⟩ := Option.bind_eq_some_iff.mp hsome
    obtain ⟨rest, hrest⟩ := List.head?_eq_some_iff.mp hc
    rw [result?_links_operator hrest hop, result?_links_operator (h.trans hrest) hop]

end Formula

end Worksheet
