import Std.Data.TreeSet
import Std.Data.TreeMap

/-!
# Addresses

An address names one cell of a worksheet by its row and its column, both counted from zero. Its
written name is a column letter followed by the row counted from one, so row `2` of column `1` is
`B3`.

Addresses are ordered by row first and by column second. This is the order of reading a sheet
line by line, and every list of cells that the library produces in a fixed order uses it; it is
therefore the order of the `Ord` instance, and with it of all sets and maps keyed by addresses.

## Main definitions

* `Address` and its order;
* `columnLetter`, `Address.name`: the written name;
* `Address.rectangle`: the cells between two opposite corners.
-/

namespace Worksheet

/-- A cell of a worksheet, by its row and column counted from zero. -/
structure Address where
  /-- The row, counted from zero. -/
  row : Nat
  /-- The column, counted from zero. -/
  col : Nat
deriving DecidableEq, Repr, Inhabited

namespace Address

/-! ### Reading order -/

/-- Addresses are compared by row, and within a row by column. -/
instance : Ord Address := ⟨compareLex (compareOn Address.row) (compareOn Address.col)⟩

theorem compare_def (a b : Address) :
    compare a b = (compare a.row b.row).then (compare a.col b.col) := rfl

instance : Std.TransOrd Address :=
  inferInstanceAs (Std.TransCmp (compareLex (compareOn Address.row) (compareOn Address.col)))

instance : Std.LawfulEqOrd Address where
  eq_of_compare {a b} h := by
    rw [compare_def, Ordering.then_eq_eq, Nat.compare_eq_eq, Nat.compare_eq_eq] at h
    cases a; cases b; simp_all

/-- An address comes earlier when its row does, or in the same row its column. -/
theorem compare_eq_lt_iff {a b : Address} :
    compare a b = .lt ↔ a.row < b.row ∨ a.row = b.row ∧ a.col < b.col := by
  rw [compare_def, Ordering.then_eq_lt, Nat.compare_eq_lt, Nat.compare_eq_eq, Nat.compare_eq_lt]

theorem ne_of_compare_eq_lt {a b : Address} (h : compare a b = .lt) : a ≠ b := by
  rintro rfl
  have hself : compare a a = .eq := Std.ReflCmp.compare_self
  cases hself.symm.trans h

/-- A list in reading order has each of its addresses once. -/
theorem nodup_of_pairwise_lt {cells : List Address}
    (h : cells.Pairwise fun a b => compare a b = .lt) : cells.Nodup :=
  h.imp ne_of_compare_eq_lt

/-- A list in reading order is determined by its members. -/
theorem eq_of_pairwise_lt {cells cells' : List Address}
    (h : cells.Pairwise fun a b => compare a b = .lt)
    (h' : cells'.Pairwise fun a b => compare a b = .lt) (hmem : ∀ a, a ∈ cells ↔ a ∈ cells') :
    cells = cells' := by
  refine List.Perm.eq_of_pairwise (fun a b _ _ hab hba => ?_) h h' ?_
  · exact absurd hba (Std.OrientedCmp.not_lt_of_lt hab)
  · exact (List.perm_ext_iff_of_nodup (nodup_of_pairwise_lt h) (nodup_of_pairwise_lt h')).mpr hmem

/-- Addresses sorted into reading order. -/
def sorted (cells : List Address) : List Address :=
  cells.mergeSort fun a b => (compare a b).isLE

/-! ### Names -/

/-- The number of columns that have a letter. -/
def letterCount : Nat := 26

end Address

/-- The letter of a column: `A` for column zero to `Z`, and `?` for the columns after that, which
have none. -/
def columnLetter (col : Nat) : Char :=
  if col < Address.letterCount then Char.ofNat ('A'.toNat + col) else '?'

namespace Address

/-- The column letter and the row counted from one, as characters. -/
def nameChars (a : Address) : List Char :=
  columnLetter a.col :: Nat.toDigits 10 (a.row + 1)

/-- The written name of an address. -/
def name (a : Address) : String :=
  String.ofList a.nameChars

/-- The address that the characters of a name spell: an upper-case letter and a row number that
starts with no zero. Every such text spells an address; whether a worksheet has that cell is for
its grid to say. -/
def ofNameChars? : List Char → Option Address
  | letter :: digit :: digits =>
    if letter.isUpper && digit.isDigit && digit != '0' && digits.all Char.isDigit then
      some ⟨Nat.ofDigitChars 10 (digit :: digits) 0 - 1, letter.toNat - 'A'.toNat⟩
    else none
  | _ => none

/-! ### Rectangles -/

/-- The numbers between two bounds, both included, in ascending order. The bounds may come in
either order. -/
def span (a b : Nat) : List Nat :=
  List.range' (min a b) (max a b - min a b + 1)

theorem mem_span {a b i : Nat} : i ∈ span a b ↔ min a b ≤ i ∧ i ≤ max a b := by
  simp only [span, List.mem_range'_1]
  omega

theorem span_comm (a b : Nat) : span a b = span b a := by
  simp only [span, Nat.min_comm a b, Nat.max_comm a b]

/-- The cells of the rectangle between two opposite corners, row by row. Any two opposite corners
of the rectangle name it. -/
def rectangle (a b : Address) : List Address :=
  (span a.row b.row).flatMap fun row => (span a.col b.col).map fun col => ⟨row, col⟩

/-- A cell is in the rectangle when its row and its column lie between those of the corners. -/
theorem mem_rectangle {a b c : Address} :
    c ∈ rectangle a b ↔ c.row ∈ span a.row b.row ∧ c.col ∈ span a.col b.col := by
  simp only [rectangle, List.mem_flatMap, List.mem_map]
  constructor
  · rintro ⟨row, hrow, col, hcol, rfl⟩
    exact ⟨hrow, hcol⟩
  · rintro ⟨hrow, hcol⟩
    exact ⟨c.row, hrow, c.col, hcol, rfl⟩

end Address

/-- A set of addresses, held in reading order. -/
abbrev AddressSet := Std.TreeSet Address

/-- A table keyed by addresses, held in reading order. -/
abbrev AddressMap := Std.TreeMap Address

namespace AddressMap

variable {α : Type} {table : AddressMap α} {a b : Address} {v w : α}

theorem getElem?_insert_of_ne (table : AddressMap α) (v : α) (hba : b ≠ a) :
    (table.insert a v)[b]? = table[b]? := by
  rw [Std.TreeMap.getElem?_insert]
  simp only [Std.LawfulEqOrd.compare_eq_iff_eq, hba.symm, if_false]

theorem getElem?_insert_eq_some_iff :
    (table.insert a v)[b]? = some w ↔ b = a ∧ v = w ∨ b ≠ a ∧ table[b]? = some w := by
  by_cases hba : b = a
  · simp [hba]
  · simp [hba, getElem?_insert_of_ne table v hba]

theorem getElem?_erase_of_ne (table : AddressMap α) (hba : b ≠ a) :
    (table.erase a)[b]? = table[b]? := by
  rw [Std.TreeMap.getElem?_erase]
  simp only [Std.LawfulEqOrd.compare_eq_iff_eq, hba.symm, if_false]

end AddressMap

end Worksheet
