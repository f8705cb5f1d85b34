import Worksheet.Address

/-!
# Formulas

A formula is an expression over numbers and cells: the four operations of arithmetic, and two
functions that summarise a rectangle of cells.

The type is wider than what can be written. A rectangle may stand anywhere in it, and a call may
have any list of arguments; evaluation gives such formulas a fault.

## Main definitions

* `Operator`, with its symbol and its `Precedence`;
* `Aggregate`, with its name;
* `Formula`.
-/

namespace Worksheet

/-! ### Operators -/

/-- How tightly an operator binds. -/
inductive Precedence where
  /-- Sums and differences. -/
  | additive
  /-- Products and quotients, which bind more tightly. -/
  | multiplicative
deriving DecidableEq, Repr

/-- The operations of arithmetic. -/
inductive Operator where
  | add
  | subtract
  | multiply
  | divide
deriving DecidableEq, Repr

namespace Operator

/-- The character that stands for the operation. -/
def symbol : Operator → Char
  | add => '+'
  | subtract => '-'
  | multiply => '*'
  | divide => '/'

/-- The operation that a character stands for. -/
def ofSymbol? (c : Char) : Option Operator :=
  [add, subtract, multiply, divide].find? fun op => op.symbol == c

/-- How tightly the operation binds. -/
def precedence : Operator → Precedence
  | add | subtract => .additive
  | multiply | divide => .multiplicative

@[simp] theorem ofSymbol?_symbol (op : Operator) : ofSymbol? op.symbol = some op := by
  cases op <;> rfl

theorem ofSymbol?_eq_some_iff {c : Char} {op : Operator} :
    ofSymbol? c = some op ↔ op.symbol = c := by
  constructor
  · intro h
    simpa using List.find?_some h
  · rintro rfl
    exact ofSymbol?_symbol op

end Operator

/-! ### Functions -/

/-- The functions that summarise the numbers of a rectangle. -/
inductive Aggregate where
  /-- The sum. -/
  | sum
  /-- The arithmetic mean. -/
  | average
deriving DecidableEq, Repr

namespace Aggregate

/-- The name in capitals. -/
def name : Aggregate → String
  | sum => "SUM"
  | average => "AVG"

/-- The function of a name. The case of ASCII letters does not matter. -/
def ofNameChars? (text : List Char) : Option Aggregate :=
  [sum, average].find? fun f => f.name.toList == text.map Char.toUpper

/-- The function of a name. The case of ASCII letters does not matter. -/
def ofName? (name : String) : Option Aggregate :=
  ofNameChars? name.toList

end Aggregate

/-! ### Formulas -/

/-- A formula. -/
inductive Formula where
  /-- A number. -/
  | number (x : Float)
  /-- The value of a cell. -/
  | cell (a : Address)
  /-- The rectangle between two opposite corners, which has no value of its own. -/
  | range (first last : Address)
  /-- An operation on two formulas. -/
  | binary (op : Operator) (left right : Formula)
  /-- A function applied to arguments. -/
  | call (f : Aggregate) (arguments : List Formula)

instance : Inhabited Formula := ⟨.number 0⟩

end Worksheet
