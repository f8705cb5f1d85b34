import Worksheet.Grid

/-!
# Settings

The settings of a worksheet are its numbers of columns and rows. Columns are named by single
letters, which bounds their number; the bound on the rows keeps the sheet to a size that can be
worked with.

Settings are kept in a document. The format of documents is not a matter of this library. Whoever
asks for the settings of a document brings a *reader* along, which finds out what the document sets and
refuses documents that are malformed. What is not set has its standard value.

## Main definitions

* `Settings`, `Settings.ofSize`: sizes within the bounds;
* `Settings.Assigned`, `DocumentReader`: what a document sets, and how that is found out;
* `Settings.ofDocument`, `Settings.ofFile`: settings from a text, and from the bytes of a file;
* `SettingsFault`: why there are no settings.
-/

namespace Worksheet

/-- The largest number of columns: one for each letter. -/
def maxColumns : Nat := Address.letterCount

/-- The largest number of rows. -/
def maxRows : Nat := 10000

/-- The settings of a worksheet. -/
structure Settings where
  /-- The number of columns. -/
  columns : Nat
  /-- The number of rows. -/
  rows : Nat
  columns_range : 1 ≤ columns ∧ columns ≤ maxColumns := by decide
  rows_range : 1 ≤ rows ∧ rows ≤ maxRows := by decide
deriving DecidableEq, Repr

/-- Why there are no settings. -/
inductive SettingsFault where
  /-- The number of columns is out of bounds. -/
  | columnsOutOfRange (columns : Nat)
  /-- The number of rows is out of bounds. -/
  | rowsOutOfRange (rows : Nat)
  /-- The document is refused by its reader. -/
  | malformed (reason : String)
  /-- The file is too large to be read. -/
  | tooLarge (path : String) (size : Nat)
  /-- The file cannot be read. -/
  | unreadable (reason : String)
deriving DecidableEq, Repr

/-- The largest size of a file that is read, in bytes. -/
def maxFileSize : Nat := 1048576

/-- What is wrong, in words. -/
def SettingsFault.message : SettingsFault → String
  | columnsOutOfRange columns =>
    s!"Invalid config: columns must be between 1 and {maxColumns}, got {columns}"
  | rowsOutOfRange rows => s!"Invalid config: rows must be between 1 and {maxRows}, got {rows}"
  | malformed reason => "Config parse error: " ++ reason
  | tooLarge path size =>
    s!"Invalid config: refusing to read {path}: file too large ({size} bytes, max {maxFileSize})"
  | unreadable reason => "IO error: " ++ reason

namespace Settings

/-- The settings of the standard grid. -/
def standard : Settings where
  columns := Grid.standard.columns
  rows := Grid.standard.rows

instance : Inhabited Settings := ⟨standard⟩

/-- The settings with these numbers of columns and rows, if both are within the bounds. The columns
are looked at first. -/
def ofSize (columns rows : Nat) : Except SettingsFault Settings :=
  if hc : 1 ≤ columns ∧ columns ≤ maxColumns then
    if hr : 1 ≤ rows ∧ rows ≤ maxRows then .ok ⟨columns, rows, hc, hr⟩
    else .error (.rowsOutOfRange rows)
  else .error (.columnsOutOfRange columns)

/-! ### Documents -/

/-- What a document sets. -/
structure Assigned where
  /-- The number of columns, if it is set. -/
  columns : Option Nat
  /-- The number of rows, if it is set. -/
  rows : Option Nat
deriving DecidableEq, Repr

end Settings

/-- Finds out what the text of a document sets, or why the document is malformed. -/
abbrev DocumentReader := String → Except String Settings.Assigned

namespace Settings

/-- The settings of a document. -/
def ofDocument (read : DocumentReader) (text : String) : Except SettingsFault Settings :=
  match read text with
  | .ok assigned =>
    ofSize (assigned.columns.getD standard.columns) (assigned.rows.getD standard.rows)
  | .error reason => .error (.malformed reason)

/-- The settings of a file with this content. -/
def ofFile (read : DocumentReader) (path : String) (content : ByteArray) :
    Except SettingsFault Settings :=
  if maxFileSize < content.size then .error (.tooLarge path content.size)
  else
    match String.fromUTF8? content with
    | some text => ofDocument read text
    | none => .error (.unreadable "stream did not contain valid UTF-8")

/-! ### The grid of settings -/

/-- The grid of the settings. -/
def grid (s : Settings) : Grid where
  columns := s.columns
  rows := s.rows
  columns_lt := Nat.lt_of_le_of_lt s.columns_range.2 (by decide)
  rows_lt := Nat.lt_of_le_of_lt s.rows_range.2 (by decide)

end Settings

end Worksheet
