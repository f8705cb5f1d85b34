import Mathlib.Data.Nat.Basic
import Worksheet.Grid

/-!
# The names of cells

The name of a cell in a column that has a letter spells the address of the cell
(`Address.ofNameChars?_nameChars`), since the row is written without a zero at its start. The other
way round, a text that spells an address at all has letters and digits only and names a column with
a letter, so nothing else has to be known about a word in order to read it as a cell.

## Main results

* `Address.ofNameChars?_nameChars`, `Grid.parseChars?_nameChars` — names can be read
* `Address.isAlphanum_of_ofNameChars?`, `Address.col_lt_of_ofNameChars?` — what can be read
-/

namespace Worksheet

/-- A positive number is written without a zero at its start. -/
theorem exists_toDigits_eq_cons {n : Nat} (hn : 0 < n) :
    ∃ d ds, Nat.toDigits 10 n = d :: ds ∧ d ≠ '0' := by
  induction n using Nat.strongRecOn with
  | ind n ih =>
    rcases Nat.lt_or_ge n 10 with hlt | hge
    · refine ⟨n.digitChar, [], Nat.toDigits_of_lt_base hlt, ?_⟩
      rw [Ne, Nat.digitChar_eq_zero]
      omega
    · obtain ⟨d, ds, heq, hd⟩ := ih (n / 10) (by omega) (by omega)
      refine ⟨d, ds ++ [(n % 10).digitChar], ?_, hd⟩
      rw [Nat.toDigits_of_base_le (by decide) hge, heq, List.cons_append]

theorem isUpper_iff_toNat {c : Char} :
    c.isUpper = true ↔ 'A'.toNat ≤ c.toNat ∧ c.toNat ≤ 'Z'.toNat := by
  have hval : c.isUpper = true ↔ 'A'.val ≤ c.val ∧ c.val ≤ 'Z'.val := decide_eq_true_iff
  rw [hval, UInt32.le_iff_toNat_le, UInt32.le_iff_toNat_le]
  rfl

/-- A letter stands for its column. -/
theorem columnLetter_spec : ∀ col < Address.letterCount,
    (columnLetter col).isUpper = true ∧ (columnLetter col).toNat - 'A'.toNat = col := by
  decide

namespace Address

variable {a : Address} {text : List Char}

/-- The name of a cell spells its address. -/
theorem ofNameChars?_nameChars (ha : a.col < letterCount) :
    ofNameChars? a.nameChars = some a := by
  obtain ⟨hupper, hcol⟩ := columnLetter_spec a.col ha
  obtain ⟨d, ds, hdigits, hd⟩ := exists_toDigits_eq_cons (Nat.succ_pos a.row)
  have hall : ∀ c ∈ d :: ds, c.isDigit = true := by
    rw [← hdigits]
    exact fun c hc => Nat.isDigit_of_mem_toDigits (by decide) (by decide) hc
  have hrow : Nat.ofDigitChars 10 (d :: ds) 0 = a.row + 1 := by
    rw [← hdigits]
    exact Nat.ofDigitChars_toDigits (by decide) (by decide)
  have hshape : ((columnLetter a.col).isUpper && d.isDigit && d != '0' &&
      ds.all Char.isDigit) = true := by
    simp only [Bool.and_eq_true, List.all_eq_true, bne_iff_ne]
    exact ⟨⟨⟨hupper, hall d List.mem_cons_self⟩, hd⟩,
      fun c hc => hall c (List.mem_cons_of_mem d hc)⟩
  rw [nameChars, hdigits, ofNameChars?, if_pos hshape, hrow, hcol, Nat.add_sub_cancel]

/-- What spells an address, and which address it spells. -/
theorem exists_of_ofNameChars?_eq_some (h : ofNameChars? text = some a) :
    ∃ letter digit digits, text = letter :: digit :: digits ∧ letter.isUpper = true ∧
      (∀ c ∈ digit :: digits, c.isDigit = true) ∧ digit ≠ '0' ∧
      a = ⟨Nat.ofDigitChars 10 (digit :: digits) 0 - 1, letter.toNat - 'A'.toNat⟩ := by
  unfold ofNameChars? at h
  split at h
  · rename_i letter digit digits
    split at h
    · rename_i hshape
      cases h
      simp only [Bool.and_eq_true, List.all_eq_true, bne_iff_ne] at hshape
      obtain ⟨⟨⟨hupper, hdigit⟩, hzero⟩, hdigits⟩ := hshape
      exact ⟨letter, digit, digits, rfl, hupper, List.forall_mem_cons.mpr ⟨hdigit, hdigits⟩, hzero,
        rfl⟩
    · cases h
  · cases h

/-- Only columns with a letter have a name. -/
theorem col_lt_of_ofNameChars? (h : ofNameChars? text = some a) : a.col < letterCount := by
  obtain ⟨letter, digit, digits, -, hupper, -, -, rfl⟩ := exists_of_ofNameChars?_eq_some h
  have hle : letter.toNat ≤ 'Z'.toNat := (isUpper_iff_toNat.mp hupper).2
  show letter.toNat - 'A'.toNat < 26
  have hletters : 'Z'.toNat = 'A'.toNat + 25 := rfl
  omega

/-- A name is a word. -/
theorem isAlphanum_of_ofNameChars? (h : ofNameChars? text = some a) :
    text ≠ [] ∧ ∀ c ∈ text, c.isAlphanum = true := by
  obtain ⟨letter, digit, digits, rfl, hupper, hdigits, -⟩ := exists_of_ofNameChars?_eq_some h
  refine ⟨List.cons_ne_nil _ _, List.forall_mem_cons.mpr ⟨?_, fun c hc => ?_⟩⟩
  · have halpha : letter.isAlpha = true := Bool.or_eq_true_iff.mpr (.inl hupper)
    rw [Char.isAlphanum, halpha, Bool.true_or]
  · rw [Char.isAlphanum, hdigits c hc, Bool.or_true]

end Address

namespace Grid

variable {grid : Grid} {a : Address} {text : List Char}

theorem parseChars?_eq_some_iff : grid.parseChars? text = some a ↔
    Address.ofNameChars? text = some a ∧ grid.contains a = true :=
  Option.filter_eq_some_iff

/-- The name of a cell that can be named at all stands for that cell. -/
theorem parseChars?_nameChars (h : grid.parseChars? text = some a) :
    grid.parseChars? a.nameChars = some a := by
  obtain ⟨hname, hgrid⟩ := parseChars?_eq_some_iff.mp h
  exact parseChars?_eq_some_iff.mpr
    ⟨Address.ofNameChars?_nameChars (Address.col_lt_of_ofNameChars? hname), hgrid⟩

end Grid

end Worksheet
