import Worksheet.Proofs.Formula.Grammar

/-!
# Tokens at the start of a text

A reader takes tokens from the start of a text and leaves the rest. `StartsWith` says so without a
reader. It compares texts up to the blanks at their start, because every reader skips these before it
looks at anything.

A word or a number ends where it can go on no further. So it is split off in full
(`splitWord_append`, `splitNumber_append`) if what comes next, after any blanks, cannot be a part of
either (`Apart`). In a formula this is always so: what comes next is then a symbol or nothing.

## Main definitions

* `StartsWith` — tokens at the start of a text
* `Apart` — what may stand after a word or a number

## Main results

* `startsWith_of_written`, `StartsWith.written` — how this is related to written texts
* `splitWord_append`, `splitNumber_append` — words and numbers are split off in full
* `parse?_of_parts` — written numbers are taken apart at the point
* `IsNumeral.exists_readNumber?` — every numeral has a value
-/

namespace Worksheet

variable {ts us : List Token} {token : Token} {text text' rest mid word digits : List Char}
  {c : Char}

/-! ### Tokens and a rest -/

/-- The text starts with these tokens, and the rest follows them, up to blanks. -/
inductive StartsWith : List Token → List Char → List Char → Prop
  | nil {text rest : List Char} (h : skipBlanks text = skipBlanks rest) : StartsWith [] text rest
  | cons {token : Token} {ts : List Token} {text text' rest : List Char}
      (htoken : skipBlanks text = token.chars ++ text') (h : StartsWith ts text' rest) :
      StartsWith (token :: ts) text rest

namespace StartsWith

/-- Blanks at the start of the text do not matter. -/
theorem of_skipBlanks_eq (h : StartsWith ts text' rest) (heq : skipBlanks text = skipBlanks text') :
    StartsWith ts text rest := by
  cases h with
  | nil hrest => exact .nil (heq.trans hrest)
  | cons htoken h => exact .cons (heq.trans htoken) h

theorem single (h : skipBlanks text = token.chars ++ rest) : StartsWith [token] text rest :=
  .cons h (.nil rfl)

theorem append (h : StartsWith ts text mid) (h' : StartsWith us mid rest) :
    StartsWith (ts ++ us) text rest := by
  induction h with
  | nil hmid => exact h'.of_skipBlanks_eq hmid
  | cons htoken _ ih => exact .cons htoken (ih h')

theorem exists_of_append (h : StartsWith (ts ++ us) text rest) :
    ∃ mid, StartsWith ts text mid ∧ StartsWith us mid rest := by
  induction ts generalizing text with
  | nil => exact ⟨text, .nil rfl, h⟩
  | cons token ts ih =>
    cases h with
    | cons htoken h =>
      obtain ⟨mid, hts, hus⟩ := ih h
      exact ⟨mid, .cons htoken hts, hus⟩

/-- Blanks at the start of the rest do not matter. -/
theorem of_skipBlanks_rest_eq (h : StartsWith ts text mid)
    (heq : skipBlanks mid = skipBlanks rest) : StartsWith ts text rest := by
  have happend := h.append (.nil heq)
  rwa [List.append_nil] at happend

/-- The first token. -/
theorem exists_of_cons (h : StartsWith (token :: ts) text rest) :
    ∃ text', skipBlanks text = token.chars ++ text' ∧ StartsWith ts text' rest := by
  cases h with
  | cons htoken h => exact ⟨_, htoken, h⟩

theorem skipBlanks_eq (h : StartsWith [] text rest) : skipBlanks text = skipBlanks rest := by
  cases h with
  | nil h => exact h

/-- The first token is a symbol. -/
theorem exists_of_symbol (h : StartsWith (.symbol c :: ts) text rest) :
    ∃ text', skipBlanks text = c :: text' ∧ StartsWith ts text' rest :=
  h.exists_of_cons

/-- The last token is a symbol. -/
theorem exists_of_append_symbol (h : StartsWith (ts ++ [.symbol c]) text rest) :
    ∃ mid rest', StartsWith ts text mid ∧ skipBlanks mid = c :: rest' ∧
      skipBlanks rest' = skipBlanks rest := by
  obtain ⟨mid, hts, hlast⟩ := h.exists_of_append
  obtain ⟨rest', hmid, hrest⟩ := hlast.exists_of_symbol
  exact ⟨mid, rest', hts, hmid, hrest.skipBlanks_eq⟩

/-- A text that is used up is written from its tokens. -/
theorem written (h : StartsWith ts text rest) (hrest : skipBlanks rest = []) : Written ts text := by
  induction h with
  | nil heq => exact .nil (allBlank_of_skipBlanks_eq_nil (heq.trans hrest))
  | @cons token _ text _ _ htoken _ ih =>
    obtain ⟨blanks, hblanks, htext⟩ := exists_blanks_append text
    rw [htext, htoken, ← List.append_assoc]
    exact .cons hblanks (ih hrest)

end StartsWith

/-- A text written from tokens that have no blanks starts with these, and nothing is left. -/
theorem startsWith_of_written (h : Written ts text) (hts : ∀ token ∈ ts, token.Solid) :
    StartsWith ts text [] := by
  induction h with
  | nil hblanks => exact .nil hblanks.skipBlanks_eq
  | cons hblanks _ ih =>
    obtain ⟨htoken, hrest⟩ := List.forall_mem_cons.mp hts
    refine .cons ?_ (ih hrest)
    rw [List.append_assoc, hblanks.skipBlanks_append, htoken.skipBlanks_append]

/-! ### Where words and numbers end -/

/-- What comes next cannot be taken for a part of the word or of the number before it. -/
def Apart (text : List Char) : Prop :=
  ∀ c ∈ (skipBlanks text).head?, c.isAlphanum = false ∧ c ≠ '.'

theorem Apart.of_skipBlanks_eq (h : Apart text') (heq : skipBlanks text = skipBlanks text') :
    Apart text := by
  rw [Apart, heq]
  exact h

theorem apart_cons (h : skipBlanks text = c :: rest) (hc : c.isAlphanum = false ∧ c ≠ '.') :
    Apart text := by
  rw [Apart, h]
  rintro _ ⟨⟩
  exact hc

/-- Also the blanks before it cannot. -/
theorem Apart.of_mem_head? (h : Apart text) (hc : c ∈ text.head?) :
    c.isAlphanum = false ∧ c ≠ '.' := by
  obtain ⟨rest, rfl⟩ := List.head?_eq_some_iff.mp hc
  cases hblank : isBlank c with
  | false =>
    refine h c ?_
    rw [skipBlanks, List.dropWhile_cons, hblank]
    rfl
  | true =>
    refine ⟨?_, ?_⟩
    · rw [← Bool.not_eq_true]
      intro halphanum
      cases (isBlank_eq_false_of_isAlphanum halphanum).symm.trans hblank
    · rintro rfl
      cases hblank

/-- The longest start of a text with a property is found. -/
theorem takeWhile_dropWhile_append {p : Char → Bool} {front : List Char}
    (hfront : ∀ c ∈ front, p c = true) (htext : ∀ c ∈ text.head?, p c = false) :
    (front ++ text).takeWhile p = front ∧ (front ++ text).dropWhile p = text := by
  rw [List.takeWhile_append_of_pos hfront, List.dropWhile_append_of_pos hfront]
  cases text with
  | nil => exact ⟨List.append_nil _, rfl⟩
  | cons c text =>
    have hc : p c = false := htext c rfl
    rw [List.takeWhile_cons, List.dropWhile_cons, hc]
    exact ⟨List.append_nil _, rfl⟩

theorem append_splitWord (text : List Char) : (splitWord text).1 ++ (splitWord text).2 = text :=
  List.takeWhile_append_dropWhile

/-- **A word is split off in full.** -/
theorem splitWord_append (hword : ∀ c ∈ word, c.isAlphanum = true) (h : Apart text) :
    splitWord (word ++ text) = (word, text) := by
  obtain ⟨htake, hdrop⟩ := takeWhile_dropWhile_append hword fun c hc => (h.of_mem_head? hc).1
  rw [splitWord, htake, hdrop]

/-! ### Numerals -/

theorem isDigit_eq_false_of_isAlphanum_eq_false (h : c.isAlphanum = false) : c.isDigit = false := by
  rw [← Bool.not_eq_true] at h ⊢
  exact fun hdigit => h (isAlphanum_of_isDigit hdigit)

theorem splitDigits_append {whole : List Char} (hwhole : ∀ c ∈ whole, c.isDigit = true)
    (htext : ∀ c ∈ text.head?, c.isDigit = false) :
    Numeral.splitDigits (whole ++ text) = (whole, text) := by
  obtain ⟨htake, hdrop⟩ := takeWhile_dropWhile_append hwhole htext
  rw [Numeral.splitDigits, htake, hdrop]

theorem splitDigits_self {whole : List Char} (hwhole : ∀ c ∈ whole, c.isDigit = true) :
    Numeral.splitDigits whole = (whole, []) := by
  have hnil : ∀ c ∈ ([] : List Char).head?, c.isDigit = false := nofun
  have happend := splitDigits_append hwhole hnil
  rwa [List.append_nil] at happend

/-- The two ways in which a numeral may be written. -/
theorem IsNumeral.exists_parts (h : IsNumeral digits) : ∃ whole, whole ≠ [] ∧
    (∀ c ∈ whole, c.isDigit = true) ∧ (digits = whole ∨
      ∃ fraction, (∀ c ∈ fraction, c.isDigit = true) ∧ digits = whole ++ '.' :: fraction) := by
  have hsplit : digits.takeWhile Char.isDigit ++ digits.dropWhile Char.isDigit = digits :=
    List.takeWhile_append_dropWhile
  refine ⟨digits.takeWhile Char.isDigit, ?_, List.all_eq_true.mp List.all_takeWhile, ?_⟩
  · obtain ⟨c, hc, hdigit⟩ := h.head
    obtain ⟨rest, rfl⟩ := List.head?_eq_some_iff.mp hc
    rw [List.takeWhile_cons, if_pos hdigit]
    exact List.cons_ne_nil _ _
  · cases hafter : digits.dropWhile Char.isDigit with
    | nil =>
      left
      rw [hafter, List.append_nil] at hsplit
      exact hsplit.symm
    | cons c fraction =>
      right
      rw [hafter] at hsplit
      have hmem : ∀ d ∈ c :: fraction, d.isDigit = true ∨ d = '.' := fun d hd =>
        h.chars d (hsplit ▸ List.mem_append_right _ hd)
      have hc : c.isDigit = false := by
        have hhead := List.head?_dropWhile_not Char.isDigit digits
        rwa [hafter] at hhead
      have hpoint : c = '.' := (hmem c List.mem_cons_self).resolve_left fun hdigit =>
        Bool.false_ne_true (hc.symm.trans hdigit)
      subst hpoint
      -- the point has been met, so that no second one can come
      have hnone : '.' ∉ fraction := by
        have hpoints := h.points
        rw [← hsplit, List.count_append, List.count_cons_self] at hpoints
        exact List.count_eq_zero.mp (by omega)
      refine ⟨fraction, fun d hd => ?_, hsplit.symm⟩
      exact (hmem d (List.mem_cons_of_mem _ hd)).resolve_right fun heq => hnone (heq ▸ hd)

/-- **A number is split off in full.** -/
theorem splitNumber_append (hdigits : IsNumeral digits) (h : Apart text) :
    splitNumber (digits ++ text) = (digits, text) := by
  have hend : ∀ c ∈ text.head?, c.isDigit = false := fun c hc =>
    isDigit_eq_false_of_isAlphanum_eq_false (h.of_mem_head? hc).1
  obtain ⟨whole, -, hwhole, rfl | ⟨fraction, hfraction, rfl⟩⟩ := hdigits.exists_parts
  · simp only [splitNumber, splitDigits_append hwhole hend]
    split
    · exact absurd rfl (h.of_mem_head? rfl).2
    · rfl
  · have hpoint : ∀ c ∈ ('.' :: (fraction ++ text)).head?, c.isDigit = false := by
      rintro c ⟨⟩
      rfl
    rw [List.append_assoc, List.cons_append]
    simp only [splitNumber, splitDigits_append hwhole hpoint, splitDigits_append hfraction hend]

theorem append_splitNumber (text : List Char) :
    (splitNumber text).1 ++ (splitNumber text).2 = text := by
  have hdigits : ∀ text : List Char,
      text.takeWhile Char.isDigit ++ text.dropWhile Char.isDigit = text :=
    fun _ => List.takeWhile_append_dropWhile
  simp only [splitNumber, Numeral.splitDigits]
  split
  · rename_i afterPoint hafter
    rw [List.append_assoc, List.cons_append, hdigits, ← hafter, hdigits]
  · exact hdigits text

/-- What is split off as a number is a numeral. -/
theorem isNumeral_splitNumber (hc : c.isDigit = true) :
    IsNumeral (splitNumber (c :: text)).1 := by
  have hall : ∀ text : List Char, ∀ d ∈ text.takeWhile Char.isDigit, d.isDigit = true :=
    fun _ => List.all_eq_true.mp List.all_takeWhile
  have hnone : ∀ text : List Char, (text.takeWhile Char.isDigit).count '.' = 0 := fun text =>
    List.count_eq_zero.mpr fun hmem => absurd (hall text _ hmem) (by decide)
  have hhead : (c :: text).takeWhile Char.isDigit = c :: text.takeWhile Char.isDigit := by
    rw [List.takeWhile_cons, if_pos hc]
  simp only [splitNumber, Numeral.splitDigits]
  split
  · refine ⟨⟨c, by rw [hhead]; rfl, hc⟩, fun d hd => ?_, ?_⟩
    · rcases List.mem_append.mp hd with hd | hd
      · exact .inl (hall _ d hd)
      · exact (List.mem_cons.mp hd).symm.imp_left (hall _ d)
    · rw [List.count_append, List.count_cons_self, hnone, hnone]
  · exact ⟨⟨c, by rw [hhead]; rfl, hc⟩, fun d hd => .inl (hall _ d hd), by
      rw [hnone]; exact Nat.zero_le 1⟩

/-- A written number is taken apart at its point. -/
theorem parse?_of_parts {negative : Bool} {whole fraction : List Char}
    (hsign : Numeral.splitSign text = (negative, digits)) (hne : whole ≠ [])
    (hwhole : ∀ c ∈ whole, c.isDigit = true) (hfraction : ∀ c ∈ fraction, c.isDigit = true)
    (hdigits : digits = whole ∧ fraction = [] ∨ digits = whole ++ '.' :: fraction) :
    Numeral.parse? text = some ⟨negative, whole, fraction, 0⟩ := by
  have hsplit : ∃ after, Numeral.splitDigits digits = (whole, after) ∧
      Numeral.splitFraction after = (fraction, []) := by
    rcases hdigits with ⟨rfl, rfl⟩ | rfl
    · exact ⟨[], splitDigits_self hwhole, rfl⟩
    · refine ⟨'.' :: fraction, splitDigits_append hwhole ?_, splitDigits_self hfraction⟩
      rintro c ⟨⟩
      rfl
  obtain ⟨after, hafter, hrest⟩ := hsplit
  simp only [Numeral.parse?, hsign, hafter, hrest, hne, false_and, if_false,
    Numeral.parseExponent?, Option.map_some]

/-- A numeral has no sign. -/
theorem IsNumeral.splitSign_eq (h : IsNumeral digits) :
    Numeral.splitSign digits = (false, digits) := by
  obtain ⟨c, hc, hdigit⟩ := h.head
  obtain ⟨rest, rfl⟩ := List.head?_eq_some_iff.mp hc
  unfold Numeral.splitSign
  split
  · rename_i heq
    cases heq
    cases hdigit
  · rename_i heq
    cases heq
    cases hdigit
  · rfl

/-- **Every numeral has a value.** -/
theorem IsNumeral.exists_readNumber? (h : IsNumeral digits) : ∃ x, readNumber? digits = some x := by
  obtain ⟨whole, hne, hwhole, hparts⟩ := h.exists_parts
  rcases hparts with heq | ⟨fraction, hfraction, heq⟩
  · have hnil : ∀ c ∈ ([] : List Char), c.isDigit = true := nofun
    have hparse := parse?_of_parts h.splitSign_eq hne hwhole hnil (.inl ⟨heq, rfl⟩)
    exact ⟨_, congrArg (Option.map Numeral.value) hparse⟩
  · have hparse := parse?_of_parts h.splitSign_eq hne hwhole hfraction (.inr heq)
    exact ⟨_, congrArg (Option.map Numeral.value) hparse⟩

end Worksheet
