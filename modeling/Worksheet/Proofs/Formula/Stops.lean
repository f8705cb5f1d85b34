import Worksheet.Proofs.Formula.Scanning

/-!
# Where reading stops, and why

Whatever a reader makes of a text, what it leaves is an end of that text, and nothing is ever put back
or skipped by half a character (`Formula.within_chain`). So the place where reading stopped is one
in the text, and the position in an error is the length of what stands before it
(`Formula.exists_of_parseBody_eq_error`).

The same induction says something about the causes. An operand that starts with a digit is a numeral
up to where it is split off, and every numeral has a value, so no text is refused for a number in it.
And a word that an error quotes was split off as a word, so it has letters and digits only.

## Main definitions

* `SyntaxFault.quoted` — the word that an error quotes
* `SyntaxFault.Met` — the causes that occur
* `Reading.Within` — what is left is an end of the text

## Main results

* `Formula.within_chain` — the readers of expressions leave an end of the text
* `Formula.exists_of_parseBody_eq_error` — where and why a body is refused
-/

namespace Worksheet

/-! ### Causes -/

/-- The word of the text that is quoted, if there is one. -/
def SyntaxFault.quoted : SyntaxFault → String
  | invalidReference word => word
  | unknownFunction word => word
  | _ => ""

/-- The cause is one that occurs. -/
structure SyntaxFault.Met (fault : SyntaxFault) : Prop where
  /-- What is quoted is a word, or nothing. -/
  isAlphanum : ∀ c ∈ fault.quoted.toList, c.isAlphanum = true
  /-- Numbers are never the cause. -/
  ne_invalidNumber : fault ≠ .invalidNumber

variable {grid : Grid} {fault : SyntaxFault} {word text text' rest : List Char} {c : Char}

/-- Without a quotation there is nothing to show but that it is not a number. -/
theorem met_of_quoted_eq (h : fault.quoted = "") (hne : fault ≠ .invalidNumber) : fault.Met where
  isAlphanum := by
    rw [h]
    exact fun c hc => absurd hc List.not_mem_nil
  ne_invalidNumber := hne

theorem met_invalidReference (hword : ∀ c ∈ word, c.isAlphanum = true) :
    (SyntaxFault.invalidReference (String.ofList word)).Met where
  isAlphanum := by
    rw [SyntaxFault.quoted, String.toList_ofList]
    exact hword
  ne_invalidNumber := by rintro ⟨⟩

theorem met_unknownFunction (hword : ∀ c ∈ word, c.isAlphanum = true) :
    (SyntaxFault.unknownFunction (String.ofList word)).Met where
  isAlphanum := by
    rw [SyntaxFault.quoted, String.toList_ofList]
    exact hword
  ne_invalidNumber := by rintro ⟨⟩

/-! ### What is left of a text -/

/-- What the reading leaves is an end of the text, and if reading stopped, then for a cause that
occurs. -/
inductive Reading.Within {α : Type} {bound : Nat} (text : List Char) : Reading α bound → Prop
  | done {value : α} {rest : List Char} {shorter : rest.length < bound} (hrest : rest <:+ text) :
      Within text (.done value rest shorter)
  | stuck {fault : SyntaxFault} {rest : List Char} (hrest : rest <:+ text) (hfault : fault.Met) :
      Within text (.stuck fault rest)

namespace Reading.Within

variable {α : Type} {m n : Nat}

theorem mono {reading : Reading α m} (h : reading.Within text) (htext : text <:+ text') :
    reading.Within text' := by
  cases h with
  | done hrest => exact .done (hrest.trans htext)
  | stuck hrest hfault => exact .stuck (hrest.trans htext) hfault

theorem weaken {reading : Reading α m} (h : reading.Within text) (hmn : m ≤ n) :
    (reading.weaken hmn).Within text := by
  cases h with
  | done hrest => exact .done hrest
  | stuck hrest hfault => exact .stuck hrest hfault

theorem suffix {value : α} {shorter : rest.length < m}
    (h : (Reading.done value rest shorter).Within text) : rest <:+ text := by
  cases h
  assumption

theorem restuck {β : Type} (h : (Reading.stuck fault rest : Reading α m).Within text) :
    (Reading.stuck fault rest : Reading β n).Within text := by
  cases h with
  | stuck hrest hfault => exact .stuck hrest hfault

end Reading.Within

theorem suffix_of_skipBlanks (h : skipBlanks text = c :: rest) : rest <:+ text :=
  (List.suffix_cons c rest).trans (h ▸ skipBlanks_suffix text)

theorem length_lt_of_skipBlanks (h : skipBlanks text = c :: rest) : rest.length < text.length := by
  have hle := length_skipBlanks_le text
  rwa [h, List.length_cons] at hle

theorem splitWord_suffix (text : List Char) : (splitWord text).2 <:+ text :=
  ⟨_, append_splitWord text⟩

theorem splitNumber_suffix (text : List Char) : (splitNumber text).2 <:+ text :=
  ⟨_, append_splitNumber text⟩

theorem isAlphanum_of_mem_splitWord (text : List Char) :
    ∀ c ∈ (splitWord text).1, c.isAlphanum = true :=
  List.all_eq_true.mp List.all_takeWhile

namespace Formula

/-! ### Cells, rectangles and calls -/

theorem within_lastCorner (first text : List Char) : (lastCorner grid first text).Within text := by
  have hrest : (splitWord (skipBlanks text)).2 <:+ text :=
    (splitWord_suffix _).trans (skipBlanks_suffix text)
  simp only [lastCorner]
  split
  · exact .done hrest
  · exact .stuck hrest (met_of_quoted_eq rfl (by decide))

theorem within_reference (hword : ∀ c ∈ word, c.isAlphanum = true) (text : List Char) :
    (reference grid word text).Within text := by
  unfold reference
  split
  · rename_i rest h
    exact ((within_lastCorner word rest).mono (suffix_of_skipBlanks h)).weaken _
  · split
    · exact .done (skipBlanks_suffix text)
    · exact .stuck (skipBlanks_suffix text) (met_invalidReference hword)

theorem within_callArgument (f : Aggregate) (text : List Char) :
    (callArgument grid f text).Within text := by
  have hsuffix : (splitWord (skipBlanks text)).2 <:+ text :=
    (splitWord_suffix _).trans (skipBlanks_suffix text)
  have hargument : (reference grid (splitWord (skipBlanks text)).1
      (splitWord (skipBlanks text)).2).Within text :=
    (within_reference (isAlphanum_of_mem_splitWord _) _).mono hsuffix
  simp only [callArgument]
  split
  · rename_i h
    rw [h] at hargument
    exact hargument.restuck
  · rename_i argument rest hshorter h
    rw [h] at hargument
    split
    · rename_i h'
      exact .done ((suffix_of_skipBlanks h').trans hargument.suffix)
    · exact .stuck ((skipBlanks_suffix rest).trans hargument.suffix) (met_of_quoted_eq rfl (by decide))

theorem within_wordOperand (hword : ∀ c ∈ word, c.isAlphanum = true) (text : List Char) :
    (wordOperand grid word text).Within text := by
  unfold wordOperand
  split
  · rename_i rest h
    split
    · exact ((within_callArgument _ rest).mono (suffix_of_skipBlanks h)).weaken _
    · exact .stuck (h ▸ skipBlanks_suffix text) (met_unknownFunction hword)
  · exact within_reference hword text

/-- A number that is split off has a value. -/
theorem within_numberOperand (text : List Char) (hc : c.isDigit = true) :
    (numberOperand c text hc).Within (c :: text) := by
  have hnumeral : IsNumeral (splitNumber (c :: text)).1 := isNumeral_splitNumber hc
  obtain ⟨x, hx⟩ := hnumeral.exists_readNumber?
  simp only [numberOperand]
  split
  · exact .done (splitNumber_suffix _)
  · rename_i hnone
    cases hx.symm.trans hnone

/-! ### Expressions -/

mutual

/-- **What a chain leaves is an end of the text**, by the recursion of the readers. -/
theorem within_chain (level : Precedence) (text : List Char) :
    (chain grid level text).Within text := by
  have hoperand := within_chainOperand level text
  rw [chain]
  split
  · rename_i h
    rw [h] at hoperand
    exact hoperand.restuck
  · rename_i left rest shorter h
    rw [h] at hoperand
    exact ((within_links level left rest).mono hoperand.suffix).weaken _
termination_by 5 * text.length + operandRank level + 1
decreasing_by all_goals omega

theorem within_chainOperand (level : Precedence) (text : List Char) :
    (chainOperand grid level text).Within text := by
  cases level with
  | additive =>
    rw [chainOperand]
    exact within_chain .multiplicative text
  | multiplicative =>
    rw [chainOperand]
    exact within_operand text
termination_by 5 * text.length + operandRank level
decreasing_by all_goals simp [operandRank]

theorem within_links (level : Precedence) (left : Formula) (text : List Char) :
    (links grid level left text).Within text := by
  rw [links]
  split
  · exact .done List.nil_suffix
  · rename_i c rest htext
    have hrest : rest.length < text.length := length_lt_of_skipBlanks htext
    split
    · exact .done (htext ▸ skipBlanks_suffix text)
    · rename_i op hop
      have hoperand := (within_chainOperand level rest).mono (suffix_of_skipBlanks htext)
      split
      · rename_i h
        rw [h] at hoperand
        exact hoperand.restuck
      · rename_i right rest' shorter h
        rw [h] at hoperand
        exact ((within_links level (.binary op left right) rest').mono hoperand.suffix).weaken _
termination_by 5 * text.length
decreasing_by all_goals have := operandRank_le level; omega

theorem within_operand (text : List Char) : (operand grid text).Within text := by
  rw [operand]
  split
  · exact .stuck List.nil_suffix (met_of_quoted_eq rfl (by decide))
  · rename_i c rest htext
    have hsuffix : c :: rest <:+ text := htext ▸ skipBlanks_suffix text
    have hrest : rest.length < text.length := length_lt_of_skipBlanks htext
    split
    · rename_i hdigit
      exact ((within_numberOperand rest hdigit).mono hsuffix).weaken _
    · split
      · refine ((within_wordOperand (isAlphanum_of_mem_splitWord _) _).mono ?_).weaken _
        exact (splitWord_suffix _).trans hsuffix
      · split
        · have hinner := (within_chain .additive rest).mono (suffix_of_skipBlanks htext)
          split
          · rename_i h
            rw [h] at hinner
            exact hinner.restuck
          · rename_i inner rest' shorter h
            rw [h] at hinner
            split
            · rename_i hclose
              exact .done ((suffix_of_skipBlanks hclose).trans hinner.suffix)
            · refine .stuck ?_ (met_of_quoted_eq rfl (by decide))
              exact (skipBlanks_suffix rest').trans hinner.suffix
        · exact .stuck hsuffix (met_of_quoted_eq rfl (by decide))
termination_by 5 * text.length
decreasing_by all_goals have := operandRank_le .additive; omega

end

/-! ### Whole texts -/

variable {e : SyntaxError}

/-- The position of an end of the body is the length of what stands before it. -/
theorem exists_before_of_suffix {body : List Char} (h : rest <:+ body) :
    ∃ before, body = before ++ rest ∧ byteLength body - byteLength rest = byteLength before := by
  obtain ⟨before, rfl⟩ := h
  exact ⟨before, rfl, by rw [byteLength_append, Nat.add_sub_cancel]⟩

/-- **Where and why a body is refused**: at a place in it, and for a cause that occurs. -/
theorem exists_of_parseBody_eq_error {body : List Char} (h : parseBody grid body = .error e) :
    e.fault.Met ∧ ∃ before rest, body = before ++ rest ∧ e.position = byteLength before := by
  have hwithin : (chain grid .additive body).Within body := within_chain .additive body
  simp only [parseBody] at h
  split at h
  · rename_i fault rest hread
    rw [hread] at hwithin
    cases h
    cases hwithin with
    | stuck hrest hfault =>
      obtain ⟨before, hbody, hposition⟩ := exists_before_of_suffix hrest
      exact ⟨hfault, before, rest, hbody, hposition⟩
  · rename_i formula rest _ hread
    rw [hread] at hwithin
    split at h
    · cases h
    · cases h
      have hmet : SyntaxFault.trailingText.Met := met_of_quoted_eq rfl (by decide)
      obtain ⟨before, hbody, hposition⟩ :=
        exists_before_of_suffix ((skipBlanks_suffix rest).trans hwithin.suffix)
      exact ⟨hmet, before, _, hbody, hposition⟩

theorem met_of_parse_eq_error {text : String} (h : parse grid text = .error e) : e.fault.Met := by
  unfold parse at h
  split at h
  · exact (exists_of_parseBody_eq_error h).1
  · cases h
    exact met_of_quoted_eq rfl (by decide)

end Formula

end Worksheet
