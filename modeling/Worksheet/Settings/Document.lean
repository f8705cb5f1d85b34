import Worksheet.Settings.Basic

/-!
# A reader for documents

Settings may come from any reader of documents. This one reads documents of lines, in the part of the
TOML format that whole numbers need:

```text
columns = 26   # one for each letter
rows    = 1_000
```

A line holds a setting, or nothing, and may end with a comment. A setting is the name `columns` or
`rows`, an equals sign, and a whole number. Each name may be set once; one that is not set has its
standard value. The name may stand in quotes. The number may be written in base ten, or in base
sixteen, eight or two after `0x`, `0o` or `0b`, with single underscores between digits. It has to fit
a signed 64-bit word.

Everything else that the format knows would set something that is no setting, or set it to something
that is no number. Such documents are refused, like those that are not in the format at all.

## Main definitions

* `Settings.parseWhole?`: whole numbers;
* `Settings.parseLine?`: one line;
* `Settings.readDocument`: the reader.
-/

namespace Worksheet

namespace Settings

/-! ### Characters -/

/-- Whether a character separates the parts of a line. -/
def isGap (c : Char) : Bool :=
  c == ' ' || c == '\t'

/-- The text from its first character that is no gap. -/
def skipGaps (text : List Char) : List Char :=
  text.dropWhile isGap

/-- Whether a character may stand in a comment or in quotes: any but control characters. -/
def isPrintable (c : Char) : Bool :=
  c == '\t' || (0x20 ≤ c.toNat && c.toNat != 0x7F)

/-- Whether a character may stand in a name without quotes. -/
def isBare (c : Char) : Bool :=
  c.isAlphanum || c == '_' || c == '-'

/-! ### Whole numbers -/

/-- The value of a digit in a base of at most sixteen, in either case. -/
def digitValue? (base : Nat) (c : Char) : Option Nat :=
  let value? :=
    if c.isDigit then some (c.toNat - '0'.toNat)
    else if 'a' ≤ c ∧ c ≤ 'f' then some (c.toNat - 'a'.toNat + 10)
    else if 'A' ≤ c ∧ c ≤ 'F' then some (c.toNat - 'A'.toNat + 10)
    else none
  value?.filter (· < base)

/-- Reads digits on top of a value. An underscore may stand between two digits. -/
def parseDigits? (base : Nat) (value : Nat) : List Char → Option Nat
  | [] => some value
  | '_' :: c :: rest => do parseDigits? base (value * base + (← digitValue? base c)) rest
  | c :: rest => do parseDigits? base (value * base + (← digitValue? base c)) rest

/-- Reads a number that starts with a digit. -/
def parseUnsigned? (base : Nat) : List Char → Option Nat
  | [] => none
  | c :: rest => do parseDigits? base (← digitValue? base c) rest

/-- Reads a number in base ten, which starts with a zero only if it is one. -/
def parseDecimal? : List Char → Option Nat
  | ['0'] => some 0
  | '0' :: _ => none
  | text => parseUnsigned? 10 text

/-- The exclusive bound of the numbers that can be written, `2 ^ 63`. -/
def wholeBound : Nat := 0x8000000000000000

/-- Reads a whole number that is not negative. Only in base ten may it have a sign. -/
def parseWhole? (text : List Char) : Option Nat :=
  let value? := match text with
    | '0' :: 'x' :: digits => parseUnsigned? 16 digits
    | '0' :: 'o' :: digits => parseUnsigned? 8 digits
    | '0' :: 'b' :: digits => parseUnsigned? 2 digits
    | '+' :: digits => parseDecimal? digits
    | '-' :: digits => (parseDecimal? digits).filter (· = 0)
    | digits => parseDecimal? digits
  value?.filter (· < wholeBound)

/-! ### Names -/

/-- The character of a code point in base sixteen. -/
def parseCodePoint? (digits : List Char) : Option Char := do
  let code ← digits.foldlM (fun value c => do return value * 16 + (← digitValue? 16 c)) 0
  if code.isValidChar then some (Char.ofNat code) else none

/-- Reads a name up to a closing double quote. A backslash introduces a code point of four digits
after `u` or of eight after `U`; what else it may introduce is part of no name. -/
def parseQuoted? : List Char → Option (List Char × List Char)
  | '"' :: rest => some ([], rest)
  | '\\' :: 'u' :: a :: b :: c :: d :: rest => do
    let char ← parseCodePoint? [a, b, c, d]
    let (name, rest) ← parseQuoted? rest
    return (char :: name, rest)
  | '\\' :: 'U' :: a :: b :: c :: d :: e :: f :: g :: h :: rest => do
    let char ← parseCodePoint? [a, b, c, d, e, f, g, h]
    let (name, rest) ← parseQuoted? rest
    return (char :: name, rest)
  | c :: rest =>
    if c != '\\' && isPrintable c then do
      let (name, rest) ← parseQuoted? rest
      return (c :: name, rest)
    else none
  | [] => none

/-- Reads a name up to a closing single quote. No character has a special meaning. -/
def parseVerbatim? (text : List Char) : Option (List Char × List Char) :=
  match text.dropWhile fun c => c != '\'' && isPrintable c with
  | '\'' :: rest => some (text.takeWhile fun c => c != '\'' && isPrintable c, rest)
  | _ => none

/-- Reads a name, with or without quotes. -/
def parseName? : List Char → Option (List Char × List Char)
  | '"' :: rest => parseQuoted? rest
  | '\'' :: rest => parseVerbatim? rest
  | text =>
    match text.takeWhile isBare with
    | [] => none
    | name => some (name, text.dropWhile isBare)

/-! ### Lines -/

/-- What can be set. -/
inductive Key where
  | columns
  | rows
deriving DecidableEq, Repr

/-- The name under which it is set. -/
def Key.name : Key → String
  | columns => "columns"
  | rows => "rows"

/-- What is set under a name. -/
def Key.ofNameChars? (name : List Char) : Option Key :=
  [columns, rows].find? fun key => key.name.toList == name

/-- Whether nothing or a comment is left of a line. -/
def isRestOfLine (text : List Char) : Bool :=
  match skipGaps text with
  | [] => true
  | '#' :: comment => comment.all isPrintable
  | _ => false

/-- Reads a setting. -/
def parseSetting? (text : List Char) : Option (Key × Nat) := do
  let (name, afterName) ← parseName? text
  let key ← Key.ofNameChars? name
  match skipGaps afterName with
  | '=' :: afterSign =>
    let isPart (c : Char) : Bool := !isGap c && c != '#'
    let token := skipGaps afterSign
    let value ← parseWhole? (token.takeWhile isPart)
    if isRestOfLine (token.dropWhile isPart) then some (key, value) else none
  | _ => none

/-- Reads a line, which need not hold a setting. -/
def parseLine? (line : List Char) : Option (Option (Key × Nat)) :=
  if isRestOfLine line then some none else (parseSetting? (skipGaps line)).map some

/-- The lines of a text that follows on the start of a line and on the lines before it, both given
with the last one first. -/
def gatherLines (before : List (List Char)) (line : List Char) : List Char → List (List Char)
  | [] => (line.reverse :: before).reverse
  | '\r' :: '\n' :: rest => gatherLines (line.reverse :: before) [] rest
  | '\n' :: rest => gatherLines (line.reverse :: before) [] rest
  | c :: rest => gatherLines before (c :: line) rest

/-- The lines of a text. A line ends with a line feed, and a carriage return before that belongs to
the ending. -/
def splitLines (text : List Char) : List (List Char) :=
  gatherLines [] [] text

/-! ### Documents -/

/-- Sets something that was not set before. -/
def Assigned.set? (assigned : Assigned) : Key → Nat → Option Assigned
  | .columns, value =>
    if assigned.columns.isSome then none else some { assigned with columns := some value }
  | .rows, value =>
    if assigned.rows.isSome then none else some { assigned with rows := some value }

/-- Takes in one line. -/
def Assigned.addLine? (assigned : Assigned) (line : List Char) : Option Assigned := do
  match ← parseLine? line with
  | some (key, value) => assigned.set? key value
  | none => some assigned

/-- Takes in lines, the first of which has the given number. -/
def Assigned.addLines (assigned : Assigned) (number : Nat) :
    List (List Char) → Except String Assigned
  | [] => .ok assigned
  | line :: lines =>
    match assigned.addLine? line with
    | some next => next.addLines (number + 1) lines
    | none => .error s!"line {number} is no setting"

/-- The text of a document without the mark that may stand at the start of a file. -/
def withoutMark (text : List Char) : List Char :=
  match text with
  | '\uFEFF' :: rest => rest
  | _ => text

/-- Reads a document line by line. -/
def readDocument : DocumentReader := fun text =>
  Assigned.addLines ⟨none, none⟩ 1 (splitLines (withoutMark text.toList))

end Settings

end Worksheet
