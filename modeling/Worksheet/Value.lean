import Worksheet.Text
import Worksheet.Decimal.Numeral
import Worksheet.Decimal.Shortest

/-!
# Values

A cell shows a number, a text, or a fault. A fault is a value like the others: a formula that reads
a cell with a fault has that fault as its own value. There are two sorts, for formulas that could
not be read or evaluated, and for cells on a circular reference.

Numbers are displayed by the fewest decimal digits that read back as the same number, without an
exponent. What is no finite number is displayed as a fault.

## Main definitions

* `Fault`, `Value`: what a cell can show;
* `Value.ofLiteral`: the value of an input that is no formula;
* `numberText`, `Value.display`: how values are shown.
-/

namespace Worksheet

/-! ### Faults -/

/-- Why a cell has no proper value. -/
inductive Fault where
  /-- The formula could not be read, or its evaluation failed. -/
  | invalid (message : String)
  /-- The cell is part of a circular reference. -/
  | circular (message : String)
deriving DecidableEq, Repr

namespace Fault

/-- The three letters that stand for the sort of fault. -/
def tag : Fault → String
  | invalid _ => "ERR"
  | circular _ => "CYC"

/-- What went wrong, in words. -/
def message : Fault → String
  | invalid message => message
  | circular message => message

/-- How a cell with the fault looks. -/
def label (f : Fault) : String :=
  "#" ++ f.tag

/-- The label with the message. -/
def describe (f : Fault) : String :=
  f.label ++ ": " ++ f.message

end Fault

/-! ### Values -/

/-- What a cell can show. -/
inductive Value where
  /-- A number. -/
  | number (x : Float)
  /-- A text. -/
  | text (content : String)
  /-- A fault in the place of a value. -/
  | fault (f : Fault)
deriving DecidableEq

namespace Value

/-- The value of a cell that holds nothing. -/
def blank : Value := text ""

instance : Inhabited Value := ⟨blank⟩

/-- Whether a value is a text without visible characters. -/
def isBlank : Value → Bool
  | text content => (trim content.toList).isEmpty
  | _ => false

/-- The fault, if the value is one. -/
def fault? : Value → Option Fault
  | fault f => some f
  | _ => none

/-- The value of an input that is no formula: a number if the input is a numeral, up to blanks at
its ends, that spells a finite one, and otherwise the input itself as a text. -/
def ofLiteral (input : String) : Value :=
  match readNumber? (trim input.toList) with
  | some x => if x.isFinite then number x else text input
  | none => text input

/-- The value that an evaluation ends with. -/
def ofResult : Except Fault Float → Value
  | .ok x => number x
  | .error f => fault f

end Value

/-! ### Display -/

/-- The text shown for a number. Zero has no sign, and what is no finite number shows as a
fault. -/
def numberText (x : Float) : String :=
  if !x.isFinite then (Fault.invalid "").label
  else if x == 0 then "0"
  else
    let digits := (Decimal.shortest (Binary64.magnitudeOf x)).positional
    String.ofList (if Binary64.isNegative x then '-' :: digits else digits)

/-- The text shown for a value. -/
def Value.display : Value → String
  | number x => numberText x
  | text content => content
  | fault f => f.label

end Worksheet
