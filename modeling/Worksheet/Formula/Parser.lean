import Worksheet.Formula.Basic
import Worksheet.Grid
import Worksheet.Text
import Worksheet.Decimal.Numeral

/-!
# Reading formulas

The text of a formula starts with an equals sign. What follows it, without the blanks at both ends,
is the *body*, and reads as an expression:

```text
expression := term (('+' | '-') term)*
term       := operand (('*' | '/') operand)*
operand    := number | name '(' argument ')' | argument | '(' expression ')'
argument   := cell | cell ':' cell
```

Chains of one precedence associate to the left, so both levels are read by the same two functions,
`chain` and `links`. Blanks may stand between any two tokens. Cells have to lie in the grid.

Every function consumes a text from its start and returns what it leaves. The type of the result,
`Reading`, bounds the length of the rest; this is why the recursion ends. A reader that gets stuck
returns the cause and the text that it is stuck at, from which `Formula.parse` tells the position.

## Main definitions

* `SyntaxFault`, `SyntaxError`: why a text is no formula, and where;
* `Reading`: what a reader returns;
* `Formula.parse`.
-/

namespace Worksheet

/-! ### Errors -/

/-- Why a text is no formula. -/
inductive SyntaxFault where
  /-- There is no equals sign at the start. -/
  | missingMarker
  /-- Something follows the expression. -/
  | trailingText
  /-- No operand starts here. -/
  | unexpectedCharacter
  /-- Digits and points that spell no number. -/
  | invalidNumber
  /-- A word that names no cell of the grid. -/
  | invalidReference (word : String)
  /-- A corner of a rectangle that is no cell of the grid. -/
  | invalidRange
  /-- A word in the place of a function that names none. -/
  | unknownFunction (word : String)
  /-- A parenthesis around an expression is not closed. -/
  | unclosedParenthesis
  /-- The parenthesis of a call is not closed. -/
  | unclosedCall
deriving DecidableEq, Repr

/-- The cause in words. -/
def SyntaxFault.message : SyntaxFault → String
  | missingMarker => "Formula must start with ="
  | trailingText => "Unexpected characters after expression"
  | unexpectedCharacter => "Unexpected character"
  | invalidNumber => "Invalid number"
  | invalidReference word => "Invalid cell reference: " ++ word
  | invalidRange => "Invalid range"
  | unknownFunction word => "Unknown function: " ++ word
  | unclosedParenthesis => "Missing closing parenthesis"
  | unclosedCall => "Missing closing parenthesis in function"

/-- Why a text is no formula, and where reading stopped. -/
structure SyntaxError where
  /-- The cause. -/
  fault : SyntaxFault
  /-- The number of bytes of the body before the place where reading stopped. -/
  position : Nat
deriving DecidableEq, Repr

/-! ### Readers -/

/-- What a reader makes of a text: a value and the rest of the text, which is shorter than the
bound, or a fault and the text at which it occurred. -/
inductive Reading (α : Type) (bound : Nat) where
  /-- A value was read. -/
  | done (value : α) (rest : List Char) (shorter : rest.length < bound)
  /-- Reading stopped. -/
  | stuck (fault : SyntaxFault) (rest : List Char)

namespace Reading

/-- The same reading under a larger bound. -/
def weaken {α : Type} {m n : Nat} (h : m ≤ n) : Reading α m → Reading α n
  | done value rest shorter => done value rest (Nat.lt_of_lt_of_le shorter h)
  | stuck fault rest => stuck fault rest

end Reading

/-! ### Tokens -/

/-- Splits off the letters and digits at the start. -/
def splitWord (text : List Char) : List Char × List Char :=
  (text.takeWhile Char.isAlphanum, text.dropWhile Char.isAlphanum)

theorem length_splitWord_le (text : List Char) : (splitWord text).2.length ≤ text.length :=
  (List.dropWhile_suffix _).length_le

/-- Splits off digits, with at most one point among them. -/
def splitNumber (text : List Char) : List Char × List Char :=
  let (whole, afterWhole) := Numeral.splitDigits text
  match afterWhole with
  | '.' :: afterPoint =>
    let (fraction, rest) := Numeral.splitDigits afterPoint
    (whole ++ '.' :: fraction, rest)
  | rest => (whole, rest)

theorem length_dropWhile_le {α : Type} (p : α → Bool) (xs : List α) :
    (xs.dropWhile p).length ≤ xs.length :=
  (List.dropWhile_suffix _).length_le

/-- Splitting off a word that starts with a letter or a digit leaves less. -/
theorem length_splitWord_lt {c : Char} {text : List Char} (h : c.isAlphanum = true) :
    (splitWord (c :: text)).2.length < (c :: text).length := by
  simp only [splitWord, List.dropWhile_cons, h, if_true, List.length_cons]
  have := length_dropWhile_le Char.isAlphanum text
  omega

/-- Splitting off a number that starts with a digit leaves less. -/
theorem length_splitNumber_lt {c : Char} {text : List Char} (h : c.isDigit = true) :
    (splitNumber (c :: text)).2.length < (c :: text).length := by
  have hrest : ((c :: text).dropWhile Char.isDigit).length ≤ text.length := by
    simpa [List.dropWhile_cons, h] using length_dropWhile_le Char.isDigit text
  simp only [splitNumber, Numeral.splitDigits]
  split
  · rename_i afterPoint hafter
    have := length_dropWhile_le Char.isDigit afterPoint
    simp only [hafter, List.length_cons] at hrest ⊢
    omega
  · simp only [List.length_cons]
    omega

namespace Formula

/-! ### Cells and rectangles -/

/-- Reads the second corner of a rectangle, where the first one and the colon have been read. -/
def lastCorner (grid : Grid) (first : List Char) (text : List Char) :
    Reading Formula (text.length + 1) :=
  let corner := splitWord (skipBlanks text)
  have shorter : corner.2.length < text.length + 1 :=
    Nat.lt_succ_of_le (Nat.le_trans (length_splitWord_le _) (length_skipBlanks_le _))
  match grid.parseChars? first, grid.parseChars? corner.1 with
  | some a, some b => .done (.range a b) corner.2 shorter
  | _, _ => .stuck .invalidRange corner.2

/-- Reads a cell or a rectangle, where its first word has been read. -/
def reference (grid : Grid) (word : List Char) (text : List Char) :
    Reading Formula (text.length + 1) :=
  have shorter := length_skipBlanks_le text
  match h : skipBlanks text with
  | ':' :: rest =>
    (lastCorner grid word rest).weaken (by simp only [h, List.length_cons] at shorter; omega)
  | rest =>
    match grid.parseChars? word with
    | some a => .done (.cell a) rest (by rw [h] at shorter; omega)
    | none => .stuck (.invalidReference (String.ofList word)) rest

/-- Reads the argument of a function and the closing parenthesis, where the opening one has been
read. -/
def callArgument (grid : Grid) (f : Aggregate) (text : List Char) :
    Reading Formula (text.length + 1) :=
  let word := splitWord (skipBlanks text)
  have shorter : word.2.length ≤ text.length :=
    Nat.le_trans (length_splitWord_le _) (length_skipBlanks_le _)
  match reference grid word.1 word.2 with
  | .stuck fault rest => .stuck fault rest
  | .done argument rest hrest =>
    have hskip := length_skipBlanks_le rest
    match h : skipBlanks rest with
    | ')' :: rest' =>
      .done (.call f [argument]) rest' (by simp only [h, List.length_cons] at hskip; omega)
    | rest' => .stuck .unclosedCall rest'

/-- Reads an operand that starts with a word, where the word has been read: a call if a parenthesis
follows, and a cell or a rectangle otherwise. -/
def wordOperand (grid : Grid) (word : List Char) (text : List Char) :
    Reading Formula (text.length + 1) :=
  have shorter := length_skipBlanks_le text
  match h : skipBlanks text with
  | '(' :: rest =>
    match Aggregate.ofNameChars? word with
    | some f =>
      (callArgument grid f rest).weaken (by simp only [h, List.length_cons] at shorter; omega)
    | none => .stuck (.unknownFunction (String.ofList word)) ('(' :: rest)
  | _ => reference grid word text

/-- Reads a number, where a digit is at the start. -/
def numberOperand (c : Char) (text : List Char) (h : c.isDigit = true) :
    Reading Formula (text.length + 1) :=
  let token := splitNumber (c :: text)
  match readNumber? token.1 with
  | some x => .done (.number x) token.2 (length_splitNumber_lt h)
  | none => .stuck .invalidNumber (c :: text)

/-! ### Expressions -/

/-- The operator of this precedence that a character stands for. -/
def operatorAt? (level : Precedence) (c : Char) : Option Operator :=
  (Operator.ofSymbol? c).filter fun op => op.precedence == level

/-- The number of readers that may follow a reader of operands at a level before one of them
consumes something: the operand of a sum is a chain of products, and its operand a single one. -/
def operandRank : Precedence → Nat
  | .additive => 3
  | .multiplicative => 1

theorem operandRank_le (level : Precedence) : operandRank level ≤ 3 := by
  cases level <;> decide

mutual

/-- Reads operands joined by operators of one precedence. -/
def chain (grid : Grid) (level : Precedence) (text : List Char) : Reading Formula text.length :=
  match chainOperand grid level text with
  | .stuck fault rest => .stuck fault rest
  | .done left rest _ => (links grid level left rest).weaken (by omega)
termination_by 5 * text.length + operandRank level + 1
decreasing_by all_goals omega

/-- Reads one operand of a chain: in a sum a product, and in a product a single operand. -/
def chainOperand (grid : Grid) (level : Precedence) (text : List Char) :
    Reading Formula text.length :=
  match level with
  | .additive => chain grid .multiplicative text
  | .multiplicative => operand grid text
termination_by 5 * text.length + operandRank level
decreasing_by all_goals simp [operandRank]

/-- Reads the rest of a chain, where its operands so far make up the formula `left`. -/
def links (grid : Grid) (level : Precedence) (left : Formula) (text : List Char) :
    Reading Formula (text.length + 1) :=
  have shorter := length_skipBlanks_le text
  match h : skipBlanks text with
  | [] => .done left [] (by simp)
  | c :: rest =>
    have hrest : rest.length < text.length := by
      simp only [h, List.length_cons] at shorter; omega
    match operatorAt? level c with
    | none => .done left (c :: rest) (by simp only [List.length_cons]; omega)
    | some op =>
      match chainOperand grid level rest with
      | .stuck fault rest' => .stuck fault rest'
      | .done right rest' hrest' =>
        (links grid level (.binary op left right) rest').weaken (by omega)
termination_by 5 * text.length
decreasing_by all_goals have := operandRank_le level; omega

/-- Reads a single operand. -/
def operand (grid : Grid) (text : List Char) : Reading Formula text.length :=
  have shorter := length_skipBlanks_le text
  match h : skipBlanks text with
  | [] => .stuck .unexpectedCharacter []
  | c :: rest =>
    have hrest : rest.length < text.length := by
      simp only [h, List.length_cons] at shorter; omega
    if digit : c.isDigit = true then (numberOperand c rest digit).weaken (by omega)
    else if letter : c.isAlphanum = true then
      let word := splitWord (c :: rest)
      have hword : word.2.length < rest.length + 1 := length_splitWord_lt letter
      (wordOperand grid word.1 word.2).weaken (by omega)
    else if c = '(' then
      match chain grid .additive rest with
      | .stuck fault rest' => .stuck fault rest'
      | .done inner rest' hinner =>
        have hskip := length_skipBlanks_le rest'
        match h' : skipBlanks rest' with
        | ')' :: rest'' =>
          .done inner rest'' (by simp only [h', List.length_cons] at hskip; omega)
        | rest'' => .stuck .unclosedParenthesis rest''
    else .stuck .unexpectedCharacter (c :: rest)
termination_by 5 * text.length
decreasing_by all_goals have := operandRank_le .additive; omega

end

/-! ### Whole texts -/

/-- Whether a text is meant as a formula. -/
def isMarked (text : String) : Bool :=
  text.toList.head? == some '='

/-- Reads the body of a formula. -/
def parseBody (grid : Grid) (body : List Char) : Except SyntaxError Formula :=
  let stop (fault : SyntaxFault) (rest : List Char) : Except SyntaxError Formula :=
    .error ⟨fault, byteLength body - byteLength rest⟩
  match chain grid .additive body with
  | .stuck fault rest => stop fault rest
  | .done formula rest _ =>
    match skipBlanks rest with
    | [] => .ok formula
    | trailing => stop .trailingText trailing

/-- Reads the text of a formula, its equals sign included. -/
def parse (grid : Grid) (text : String) : Except SyntaxError Formula :=
  match text.toList with
  | '=' :: body => parseBody grid (trim body)
  | _ => .error ⟨.missingMarker, 0⟩

end Formula

end Worksheet
