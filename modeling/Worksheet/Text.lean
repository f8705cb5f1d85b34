/-!
# Characters of an input text

Inputs are read as lists of characters. This module settles the two questions about characters
that every reader shares: which of them are *blank*, and how many bytes a run of them takes up.

A character is blank when it has the Unicode property `White_Space`. That is a wider class than
`Char.isWhitespace`, which knows six ASCII characters only.

## Main definitions

* `isBlank`: membership in the table `blankRanges`;
* `skipBlanks`, `trim`: a text without the blanks at its start, and at both ends;
* `byteLength`: the length of a text in UTF-8.
-/

namespace Worksheet

/-! ### Blank characters -/

/-- The code points with the property `White_Space`, as closed intervals in ascending order. -/
def blankRanges : List (Nat × Nat) :=
  [(0x09, 0x0D), (0x20, 0x20), (0x85, 0x85), (0xA0, 0xA0), (0x1680, 0x1680), (0x2000, 0x200A),
    (0x2028, 0x2029), (0x202F, 0x202F), (0x205F, 0x205F), (0x3000, 0x3000)]

/-- Whether a character counts as space. -/
def isBlank (c : Char) : Bool :=
  blankRanges.any fun range => range.1 ≤ c.toNat && c.toNat ≤ range.2

/-- The text from its first character that is not blank. -/
def skipBlanks (text : List Char) : List Char :=
  text.dropWhile isBlank

/-- The text without the blanks at its two ends. -/
def trim (text : List Char) : List Char :=
  (skipBlanks (skipBlanks text).reverse).reverse

/-- Skipping blanks leaves an end of the text. -/
theorem skipBlanks_suffix (text : List Char) : skipBlanks text <:+ text :=
  List.dropWhile_suffix _

theorem length_skipBlanks_le (text : List Char) : (skipBlanks text).length ≤ text.length :=
  (skipBlanks_suffix text).length_le

/-! ### Bytes -/

/-- The number of bytes that the text takes up in UTF-8. -/
def byteLength (text : List Char) : Nat :=
  text.foldr (fun c length => c.utf8Size + length) 0

@[simp] theorem byteLength_nil : byteLength [] = 0 := rfl

@[simp] theorem byteLength_cons (c : Char) (text : List Char) :
    byteLength (c :: text) = c.utf8Size + byteLength text := rfl

@[simp] theorem byteLength_append (text rest : List Char) :
    byteLength (text ++ rest) = byteLength text + byteLength rest := by
  induction text with
  | nil => rw [List.nil_append, byteLength_nil, Nat.zero_add]
  | cons c text ih => rw [List.cons_append, byteLength_cons, byteLength_cons, ih, Nat.add_assoc]

end Worksheet
