import Mathlib.Data.List.Induction
import Worksheet.Proofs.Names
import Worksheet.Settings.Basic

/-!
# One name for each cell

The cells of a grid and the texts it accepts as names are in bijection: a text that stands for a cell
is the written name of that cell, character for character, and the written name of every cell in a
column with a letter stands for it (`Grid.names_bijective`). Columns past the last letter have no
name; settings allow none, so in the grid of any settings each cell has exactly one.

## What decides it

That a name can be read back is the easy half, and is shown with the names themselves. The other half
says that a text is *determined* by the cell it stands for, and there everything hangs on the row
number: digits with a zero in front, or digits of another script, would give a second text for the same
row. A run of ASCII digits with no zero in front is the decimal form of its value
(`toDigits_ofDigitChars`), by induction on the digits with the value read so far kept positive. This is
the one place where the first digit matters.

## The size of row numbers

The reader computes the row number as a natural number and leaves it to the grid to refuse large ones.
The same texts are accepted when each product and each sum has to fit a 64-bit word
(`wordOfDigits?_eq`): intermediate results are never larger than the number itself. So nothing wraps
around, and a row number that does not fit is no name in any grid.

## Main definitions

* `Pattern` — the anchored pattern `[A-Z][1-9][0-9]*`
* `wordOfDigits?` — the value of digits in checked 64-bit arithmetic
* `Misspelt` — the ways to miss a name

## Main results

* `toDigits_ofDigitChars` — digits with no zero in front are the decimal form of their value
* `wordOfDigits?_eq` — checked and unbounded reading agree as far as words go
* `misspelt_iff` — the ways to miss a name are all there are
* `Grid.parse?_eq_some_iff_pattern` — what is accepted, and as which cell
* `Settings.parse?_eq_some_iff` — the same in the grid of settings, in terms of names
* `Grid.names_bijective` — cells and names
-/

namespace Worksheet

/-! ### Digits and their value -/

/-- A digit is the form of its own value. -/
theorem digitChar_sub_zero {c : Char} (hc : c.isDigit = true) :
    c.toNat - '0'.toNat < 10 ∧ Nat.digitChar (c.toNat - '0'.toNat) = c := by
  obtain ⟨hlow, hhigh⟩ := Char.isDigit_iff_toNat.mp hc
  have hzero : '0'.toNat = 48 := rfl
  have hnine : '9'.toNat = 57 := rfl
  have hlt : c.toNat - '0'.toNat < 10 := by omega
  refine ⟨hlt, Char.toNat_inj.mp ?_⟩
  rw [Nat.toNat_digitChar_of_lt_ten hlt]
  omega

/-- Digits that follow a positive number are written behind its own digits. -/
theorem toDigits_ofDigitChars_of_pos {digits : List Char} {n : Nat}
    (hdigits : ∀ c ∈ digits, c.isDigit = true) (hn : 0 < n) :
    Nat.toDigits 10 (Nat.ofDigitChars 10 digits n) = Nat.toDigits 10 n ++ digits := by
  induction digits generalizing n with
  | nil => simp
  | cons c rest ih =>
    obtain ⟨hc, hrest⟩ := List.forall_mem_cons.mp hdigits
    obtain ⟨hlt, hchar⟩ := digitChar_sub_zero hc
    have hstep : Nat.toDigits 10 (10 * n + (c.toNat - '0'.toNat)) = Nat.toDigits 10 n ++ [c] := by
      rw [← Nat.toDigits_append_toDigits (by decide) hn hlt, Nat.toDigits_of_lt_base hlt, hchar]
    rw [Nat.ofDigitChars_cons, ih hrest (by omega), hstep, List.append_assoc, List.singleton_append]

/-- **Digits with no zero in front are the decimal form of their value**, which is positive. -/
theorem toDigits_ofDigitChars {c : Char} {rest : List Char}
    (hdigits : ∀ d ∈ c :: rest, d.isDigit = true) (hc : c ≠ '0') :
    0 < Nat.ofDigitChars 10 (c :: rest) 0 ∧
      Nat.toDigits 10 (Nat.ofDigitChars 10 (c :: rest) 0) = c :: rest := by
  obtain ⟨hdigit, hrest⟩ := List.forall_mem_cons.mp hdigits
  obtain ⟨hlt, hchar⟩ := digitChar_sub_zero hdigit
  have hpos : 0 < c.toNat - '0'.toNat := by
    by_contra hzero
    refine hc (hchar.symm.trans ?_)
    rw [Nat.eq_zero_of_not_pos hzero]
    rfl
  have heq : Nat.toDigits 10 (Nat.ofDigitChars 10 (c :: rest) 0) = c :: rest := by
    rw [Nat.ofDigitChars_cons, Nat.mul_zero, Nat.zero_add, toDigits_ofDigitChars_of_pos hrest hpos,
      Nat.toDigits_of_lt_base hlt, hchar, List.singleton_append]
  refine ⟨Nat.pos_of_ne_zero fun hzero => hc ?_, heq⟩
  rw [hzero] at heq
  exact (List.cons.inj heq).1.symm

/-! ### Reading a number in 64-bit words -/

/-- One more digit behind a number, where the product and the sum each have to fit a word. -/
def appendDigit? (n : Nat) (c : Char) : Option Nat :=
  (word? (10 * n)).bind fun tens => word? (tens + (c.toNat - '0'.toNat))

/-- The value of digits, where every product and every sum on the way has to fit a 64-bit word. -/
def wordOfDigits? (digits : List Char) : Option Nat :=
  digits.foldlM appendDigit? 0

/-- A check that fails early would fail at the end too, since the results only grow. -/
theorem word?_bind_appendDigit? (n : Nat) (c : Char) :
    ((word? n).bind fun n => appendDigit? n c) = word? (10 * n + (c.toNat - '0'.toNat)) := by
  rcases Nat.lt_or_ge (10 * n + (c.toNat - '0'.toNat)) sizeBound with hlt | hge
  · have hn : n < sizeBound := by omega
    have htens : 10 * n < sizeBound := by omega
    simp only [word?, appendDigit?, if_pos hn, if_pos htens, Option.bind_some]
  · simp only [word?, appendDigit?, if_neg (Nat.not_lt.mpr hge)]
    split <;> simp only [Option.bind_some, Option.bind_none]
    split <;> simp only [Option.bind_some, Option.bind_none, if_neg (Nat.not_lt.mpr hge)]

/-- **Checked reading is reading**: it gives the value of the digits if that fits a word, and nothing
otherwise. -/
theorem wordOfDigits?_eq (digits : List Char) :
    wordOfDigits? digits = word? (Nat.ofDigitChars 10 digits 0) := by
  -- from the last digit, as the fold goes
  induction digits using List.reverseRecOn with
  | nil => rfl
  | append_singleton digits c ih =>
    calc wordOfDigits? (digits ++ [c])
        = (wordOfDigits? digits).bind fun n => appendDigit? n c := by
          simp [wordOfDigits?, List.foldlM_append]
      _ = word? (10 * Nat.ofDigitChars 10 digits 0 + (c.toNat - '0'.toNat)) := by
          rw [ih, word?_bind_appendDigit?]
      _ = word? (Nat.ofDigitChars 10 (digits ++ [c]) 0) := by
          rw [Nat.ofDigitChars_append, Nat.ofDigitChars_cons, Nat.ofDigitChars_nil]

/-! ### The pattern of a name -/

/-- The pattern `[A-Z][1-9][0-9]*`, from the first character of a text to the last. -/
structure Pattern (text : List Char) (letter first : Char) (rest : List Char) : Prop where
  /-- Nothing stands before the letter or behind the digits. -/
  text_eq : text = letter :: first :: rest
  /-- One letter from `A` to `Z`. -/
  letter_range : 'A'.toNat ≤ letter.toNat ∧ letter.toNat ≤ 'Z'.toNat
  /-- A digit from `1` to `9`. -/
  first_range : '1'.toNat ≤ first.toNat ∧ first.toNat ≤ '9'.toNat
  /-- Any number of digits from `0` to `9`. -/
  rest_range : ∀ c ∈ rest, '0'.toNat ≤ c.toNat ∧ c.toNat ≤ '9'.toNat

theorem isDigit_and_ne_zero_iff_toNat {c : Char} :
    c.isDigit = true ∧ c ≠ '0' ↔ '1'.toNat ≤ c.toNat ∧ c.toNat ≤ '9'.toNat := by
  rw [Char.isDigit_iff_toNat, Ne, ← Char.toNat_inj]
  have hzero : '0'.toNat = 48 := rfl
  have hone : '1'.toNat = 49 := rfl
  omega

namespace Pattern

variable {text : List Char} {letter first : Char} {rest : List Char}

theorem isDigit (h : Pattern text letter first rest) : ∀ c ∈ first :: rest, c.isDigit = true :=
  List.forall_mem_cons.mpr ⟨(isDigit_and_ne_zero_iff_toNat.mpr h.first_range).1,
    fun c hc => Char.isDigit_iff_toNat.mpr (h.rest_range c hc)⟩

theorem first_ne_zero (h : Pattern text letter first rest) : first ≠ '0' :=
  (isDigit_and_ne_zero_iff_toNat.mpr h.first_range).2

/-- The row number is positive and its decimal form is what is written. -/
theorem toDigits_eq (h : Pattern text letter first rest) :
    0 < Nat.ofDigitChars 10 (first :: rest) 0 ∧
      Nat.toDigits 10 (Nat.ofDigitChars 10 (first :: rest) 0) = first :: rest :=
  toDigits_ofDigitChars h.isDigit h.first_ne_zero

/-- The letter is that of its column. -/
theorem columnLetter_eq (h : Pattern text letter first rest) :
    columnLetter (letter.toNat - 'A'.toNat) = letter := by
  obtain ⟨hlow, hhigh⟩ := h.letter_range
  have hletters : 'Z'.toNat = 'A'.toNat + 25 := rfl
  rw [columnLetter, if_pos (by rw [Address.letterCount]; omega), Nat.add_sub_cancel' hlow]
  exact Char.ofNat_toNat letter

end Pattern

namespace Address

variable {text : List Char} {a : Address}

/-- The texts that spell an address are those of the pattern. -/
theorem ofNameChars?_eq_some_iff : ofNameChars? text = some a ↔
    ∃ letter first rest, Pattern text letter first rest ∧ letter.toNat = 'A'.toNat + a.col ∧
      Nat.ofDigitChars 10 (first :: rest) 0 = a.row + 1 := by
  constructor
  · intro h
    obtain ⟨letter, first, rest, rfl, hletter, hdigits, hzero, rfl⟩ :=
      exists_of_ofNameChars?_eq_some h
    obtain ⟨hfirst, hrest⟩ := List.forall_mem_cons.mp hdigits
    have hpattern : Pattern (letter :: first :: rest) letter first rest :=
      ⟨rfl, isUpper_iff_toNat.mp hletter, isDigit_and_ne_zero_iff_toNat.mp ⟨hfirst, hzero⟩,
        fun c hc => Char.isDigit_iff_toNat.mp (hrest c hc)⟩
    exact ⟨letter, first, rest, hpattern, (Nat.add_sub_cancel' hpattern.letter_range.1).symm,
      (Nat.sub_add_cancel hpattern.toDigits_eq.1).symm⟩
  · rintro ⟨letter, first, rest, hpattern, hcol, hrow⟩
    have hshape : (letter.isUpper && first.isDigit && first != '0' &&
        rest.all Char.isDigit) = true := by
      simp only [Bool.and_eq_true, List.all_eq_true, bne_iff_ne]
      obtain ⟨hfirst, hrest⟩ := List.forall_mem_cons.mp hpattern.isDigit
      exact ⟨⟨⟨isUpper_iff_toNat.mpr hpattern.letter_range, hfirst⟩, hpattern.first_ne_zero⟩, hrest⟩
    rw [hpattern.text_eq, ofNameChars?, if_pos hshape, hrow, hcol, Nat.add_sub_cancel,
      Nat.add_sub_cancel_left]

/-- A text that spells an address is the name of that address. -/
theorem nameChars_eq (h : ofNameChars? text = some a) : a.nameChars = text := by
  obtain ⟨letter, first, rest, hpattern, hcol, hrow⟩ := ofNameChars?_eq_some_iff.mp h
  have hletter : columnLetter a.col = letter := by
    rw [← hpattern.columnLetter_eq, hcol, Nat.add_sub_cancel_left]
  rw [nameChars, hletter, ← hrow, hpattern.toDigits_eq.2, hpattern.text_eq]

end Address

/-! ### Texts that are no names -/

/-- The ways in which a text misses being a name, whatever the grid. -/
inductive Misspelt : List Char → Prop
  /-- The letter or the number is missing. -/
  | tooShort {text : List Char} : text.length < 2 → Misspelt text
  /-- The first character is no letter from `A` to `Z`: a lower-case letter, say, or a blank. -/
  | noLetter {c : Char} {rest : List Char} :
    ¬ ('A'.toNat ≤ c.toNat ∧ c.toNat ≤ 'Z'.toNat) → Misspelt (c :: rest)
  /-- Something stands before the letter: a blank, say, or a letter more. -/
  | before {extra rest : List Char} {letter : Char} : extra ≠ [] →
    'A'.toNat ≤ letter.toNat ∧ letter.toNat ≤ 'Z'.toNat → Misspelt (extra ++ letter :: rest)
  /-- The number starts with a zero; it may be zero itself. -/
  | zero {letter : Char} {rest : List Char} : Misspelt (letter :: '0' :: rest)
  /-- A character behind the letter, in the number or after it, is no digit from `0` to `9`: a digit
  of another script, say, or the end of a line. -/
  | stray {letter c : Char} {rest : List Char} : c ∈ rest →
    ¬ ('0'.toNat ≤ c.toNat ∧ c.toNat ≤ '9'.toNat) → Misspelt (letter :: rest)
  /-- The number does not fit a 64-bit word. -/
  | large {letter : Char} {rest : List Char} : sizeBound ≤ Nat.ofDigitChars 10 rest 0 →
    Misspelt (letter :: rest)

namespace Misspelt

variable {text rest : List Char} {letter first : Char}

/-- A misspelt text that still has the pattern has a number too large for a word. -/
theorem sizeBound_le (h : Misspelt text) (hpattern : Pattern text letter first rest) :
    sizeBound ≤ Nat.ofDigitChars 10 (first :: rest) 0 := by
  have htext := hpattern.text_eq
  have hdigits := hpattern.isDigit
  cases h with
  | tooShort hshort =>
    rw [htext, List.length_cons, List.length_cons] at hshort
    omega
  | noLetter hletter =>
    obtain ⟨rfl, -⟩ := List.cons.inj htext
    exact absurd hpattern.letter_range hletter
  | @before extra _ other hextra hother =>
    obtain ⟨c, extra, rfl⟩ := List.exists_cons_of_ne_nil hextra
    have hmem : other ∈ first :: rest := by
      rw [← (List.cons.inj htext).2]
      exact List.mem_append_right _ List.mem_cons_self
    have hnine := (Char.isDigit_iff_toNat.mp (hdigits other hmem)).2
    exact absurd (Nat.le_trans hother.1 hnine) (by decide)
  | zero =>
    obtain ⟨-, htail⟩ := List.cons.inj htext
    exact absurd (List.cons.inj htail).1.symm hpattern.first_ne_zero
  | @stray _ c _ hmem hc =>
    rw [(List.cons.inj htext).2] at hmem
    exact absurd (Char.isDigit_iff_toNat.mp (hdigits c hmem)) hc
  | large hlarge =>
    rwa [(List.cons.inj htext).2] at hlarge

end Misspelt

/-- **The list is complete**: a text with the pattern whose number fits a word is not misspelt, and
every other text is. -/
theorem misspelt_iff {text : List Char} : Misspelt text ↔ ∀ letter first rest,
    Pattern text letter first rest → sizeBound ≤ Nat.ofDigitChars 10 (first :: rest) 0 := by
  refine ⟨fun h _ _ _ hpattern => h.sizeBound_le hpattern, fun h => ?_⟩
  match text with
  | [] => exact .tooShort (by decide)
  | [_] => exact .tooShort (Nat.lt_succ_self 1)
  | letter :: first :: rest =>
    by_contra hspelt
    have hletter : 'A'.toNat ≤ letter.toNat ∧ letter.toNat ≤ 'Z'.toNat := by
      by_contra hletter
      exact hspelt (.noLetter hletter)
    have hdigits : ∀ c ∈ first :: rest, '0'.toNat ≤ c.toNat ∧ c.toNat ≤ '9'.toNat := by
      intro c hc
      by_contra hdigit
      exact hspelt (.stray hc hdigit)
    have hfirst : first ≠ '0' := by
      rintro rfl
      exact hspelt .zero
    obtain ⟨hdigit, hrest⟩ := List.forall_mem_cons.mp hdigits
    have hpattern : Pattern (letter :: first :: rest) letter first rest :=
      ⟨rfl, hletter, isDigit_and_ne_zero_iff_toNat.mp ⟨Char.isDigit_iff_toNat.mpr hdigit, hfirst⟩,
        hrest⟩
    exact hspelt (.large (h letter first rest hpattern))

/-! ### Cells and their names -/

namespace Grid

variable {grid : Grid} {text : String} {a : Address}

theorem parse?_eq_some_iff : grid.parse? text = some a ↔
    Address.ofNameChars? text.toList = some a ∧ grid.contains a = true :=
  parseChars?_eq_some_iff

/-- The row number of a cell of the grid fits a word, with the one added to it. -/
theorem row_succ_lt_sizeBound (ha : grid.contains a = true) : a.row + 1 < sizeBound := by
  obtain ⟨-, hrow⟩ := contains_iff.mp ha
  exact Nat.lt_of_le_of_lt hrow grid.rows_lt

/-- A text stands for a cell of the grid when it has the pattern, the letter is that of the column,
and the number, read in checked arithmetic, is one more than the row. -/
theorem parse?_eq_some_iff_pattern : grid.parse? text = some a ↔
    ∃ letter first rest, Pattern text.toList letter first rest ∧
      letter.toNat = 'A'.toNat + a.col ∧ wordOfDigits? (first :: rest) = some (a.row + 1) ∧
      grid.contains a = true := by
  simp only [parse?_eq_some_iff, Address.ofNameChars?_eq_some_iff, wordOfDigits?_eq,
    word?_eq_some_iff]
  constructor
  · rintro ⟨⟨letter, first, rest, hpattern, hcol, hrow⟩, ha⟩
    exact ⟨letter, first, rest, hpattern, hcol, ⟨hrow ▸ row_succ_lt_sizeBound ha, hrow⟩, ha⟩
  · rintro ⟨letter, first, rest, hpattern, hcol, ⟨-, hrow⟩, ha⟩
    exact ⟨⟨letter, first, rest, hpattern, hcol, hrow⟩, ha⟩

/-- A text that stands for a cell is the name of the cell. -/
theorem name_eq_of_parse? (h : grid.parse? text = some a) : a.name = text := by
  rw [Address.name, Address.nameChars_eq (parse?_eq_some_iff.mp h).1, String.ofList_toList]

/-- The name of a cell in a column with a letter stands for it. -/
theorem parse?_name (ha : grid.contains a = true) (hcol : a.col < Address.letterCount) :
    grid.parse? a.name = some a := by
  rw [parse?_eq_some_iff, Address.name, String.toList_ofList]
  exact ⟨Address.ofNameChars?_nameChars hcol, ha⟩

/-- A misspelt text stands for no cell, whatever the grid. -/
theorem parse?_eq_none_of_misspelt (h : Misspelt text.toList) : grid.parse? text = none := by
  refine Option.eq_none_iff_forall_not_mem.mpr fun a ha => ?_
  obtain ⟨letter, first, rest, hpattern, -, hword, -⟩ := parse?_eq_some_iff_pattern.mp ha
  rw [wordOfDigits?_eq, word?_eq_some_iff] at hword
  exact absurd hword.1 (Nat.not_lt.mpr (h.sizeBound_le hpattern))

/-- The end of a line is no part of a name. -/
example : (Grid.standard.parse? "A1", Grid.standard.parse? "A1\n") = (some ⟨0, 0⟩, none) := by
  decide

end Grid

/-- The columns of settings are among those with a letter. -/
theorem Settings.col_lt_letterCount {settings : Settings} {a : Address}
    (ha : settings.grid.contains a = true) : a.col < Address.letterCount :=
  Nat.lt_of_lt_of_le (Grid.contains_iff.mp ha).1 settings.columns_range.2

/-- In the grid of settings, a text stands for the cell that has it as its name. -/
theorem Settings.parse?_eq_some_iff {settings : Settings} {text : String} {a : Address} :
    settings.grid.parse? text = some a ↔ settings.grid.contains a = true ∧ a.name = text := by
  constructor
  · intro h
    exact ⟨(Grid.parse?_eq_some_iff.mp h).2, Grid.name_eq_of_parse? h⟩
  · rintro ⟨ha, rfl⟩
    exact Grid.parse?_name ha (col_lt_letterCount ha)

namespace Grid

/-- **Cells and names are in bijection.** The clauses say, of any grid: a text that stands for a cell
is the name of that cell, and the cell is in the grid; the name of every cell in a column with a letter
stands for it; so no two texts stand for one cell, and with settings each cell has exactly one text. A
text is read in 64-bit words without overflow: it has the pattern, its checked number is one more than
the row, and that number fits again when the name is written. Misspelt texts stand for nothing. -/
theorem names_bijective (grid : Grid) :
    (∀ text a, grid.parse? text = some a → grid.contains a = true ∧ a.name = text) ∧
    (∀ a, grid.contains a = true → a.col < Address.letterCount → grid.parse? a.name = some a) ∧
    (∀ text other a, grid.parse? text = some a → grid.parse? other = some a → text = other) ∧
    (∀ columns rows settings, Settings.ofSize columns rows = .ok settings →
      ∀ a, settings.grid.contains a = true → ∃! text, settings.grid.parse? text = some a) ∧
    (∀ text a, grid.parse? text = some a ↔
      ∃ letter first rest, Pattern text.toList letter first rest ∧
        letter.toNat = 'A'.toNat + a.col ∧ wordOfDigits? (first :: rest) = some (a.row + 1) ∧
        grid.contains a = true) ∧
    (∀ a, grid.contains a = true → a.row + 1 < sizeBound) ∧
    (∀ text : String, Misspelt text.toList → grid.parse? text = none) := by
  refine ⟨fun text a h => ⟨(parse?_eq_some_iff.mp h).2, name_eq_of_parse? h⟩,
    fun a => parse?_name, fun text other a h hother => ?_, fun _ _ settings _ a ha => ?_,
    fun text a => parse?_eq_some_iff_pattern, fun a => row_succ_lt_sizeBound,
    fun text => parse?_eq_none_of_misspelt⟩
  · exact (name_eq_of_parse? h).symm.trans (name_eq_of_parse? hother)
  · exact ⟨a.name, parse?_name ha (Settings.col_lt_letterCount ha),
      fun text h => (name_eq_of_parse? h).symm⟩

end Grid

end Worksheet
