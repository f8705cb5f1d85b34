import Worksheet.Proofs.Formula.Cursor

/-!
# Reading formulas byte by byte

These are the readers of formulas once more, for a cursor. They look at one byte at a time, move the
cursor over it if it is a part of the token, and cut words and numbers out of the text when they are
complete. Blanks are the one place where a whole character is decoded, since not all of them have one
byte only.

None of the definitions says that reading ends. The readers of a chain, of its links and of an operand
call each other, and there is no number in sight that would go down: the cursor could stay where it is.
So they are least fixed points, and whether there is a result at all is left to a proof. For the tokens
it is given here, by induction on the rest of the text: blanks, words and numbers are read as they are
split off from a list of characters.

## Main definitions

* `Source` — a text and a grid
* `Source.skip`, `word`, `number` — tokens
* `Source.chain`, `links`, `operand`, `expression` — formulas

## Main results

* `exists_outcome_skip`, `exists_outcome_word`, `exists_outcome_number` — tokens are read in full
-/

namespace Worksheet

/-- What formulas are read from: a text, and the grid that the cells in it have to lie in. -/
structure Source where
  /-- The text. -/
  body : String
  /-- The grid. -/
  grid : Grid

namespace Source

open CursorReader

/-! ### Tokens -/

/-- Moves over blanks. Inside of a character there is none, and the cursor stays. -/
def skip (source : Source) : CursorReader Unit := do
  match ← charAt? source.body with
  | some c =>
    if isBlank c then
      advance c.utf8Size
      source |>.skip
  | none => return ()
partial_fixpoint

/-- Moves over letters and digits. -/
def overWord (source : Source) : CursorReader Unit := do
  if (← peek source.body).any Char.isAlphanum then
    advance 1
    source |>.overWord
partial_fixpoint

/-- Moves over digits, and over a point if there was none before. -/
def overNumber (source : Source) (pointMet : Bool) : CursorReader Unit := do
  match ← peek source.body with
  | some c =>
    if c.isDigit then
      advance 1
      source |>.overNumber pointMet
    else if c = '.' ∧ pointMet = false then
      advance 1
      source |>.overNumber true
  | none => return ()
partial_fixpoint

/-- Reads the letters and digits at the cursor. -/
def word (source : Source) : CursorReader (List Char) := do
  let start ← position
  source.overWord
  slice source.body start

/-- Reads a number, where a digit is at the cursor. -/
def number (source : Source) : CursorReader Formula := do
  let start ← position
  source.overNumber false
  match readNumber? (← slice source.body start) with
  | some x => return .number x
  | none => throw ⟨.invalidNumber, start⟩

/-! ### Cells, rectangles and calls -/

/-- The cell that a word names. -/
def cell (source : Source) (name : List Char) : CursorReader Formula :=
  match source.grid.parseChars? name with
  | some a => return .cell a
  | none => refuse (.invalidReference (String.ofList name))

/-- Reads the second corner of a rectangle, after the colon. -/
def lastCorner (source : Source) (first : List Char) : CursorReader Formula := do
  source.skip
  let last ← source.word
  match source.grid.parseChars? first, source.grid.parseChars? last with
  | some a, some b => return .range a b
  | _, _ => refuse .invalidRange

/-- Reads a cell or a rectangle. -/
def argument (source : Source) : CursorReader Formula := do
  let first ← source.word
  source.skip
  if (← peek source.body) = some ':' then
    advance 1
    source.lastCorner first
  else source.cell first

/-- Moves over the parenthesis that closes a formula. -/
def closing (source : Source) (formula : Formula) (fault : SyntaxFault) : CursorReader Formula := do
  source.skip
  if (← peek source.body) = some ')' then
    advance 1
    return formula
  else refuse fault

/-- Reads a call, where its name has been read and the parenthesis is at the cursor. -/
def call (source : Source) (name : List Char) : CursorReader Formula := do
  match Aggregate.ofNameChars? name with
  | none => refuse (.unknownFunction (String.ofList name))
  | some f =>
    advance 1
    source.skip
    let argument ← source.argument
    source.closing (.call f [argument]) .unclosedCall

/-- Reads an operand that starts with a word, where the word has been read. -/
def wordOperand (source : Source) (name : List Char) : CursorReader Formula := do
  source.skip
  match ← peek source.body with
  | some '(' => source.call name
  | some ':' =>
    advance 1
    source.lastCorner name
  | _ => source.cell name

/-! ### Expressions -/

mutual

/-- Reads operands joined by operators of one precedence. -/
def chain (source : Source) (level : Precedence) : CursorReader Formula := do
  let left ← source |>.chainOperand level
  source |>.links level left
partial_fixpoint

/-- Reads one operand of a chain: in a sum a product, and in a product a single operand. -/
def chainOperand (source : Source) (level : Precedence) : CursorReader Formula :=
  match level with
  | .additive => source |>.chain .multiplicative
  | .multiplicative => source |>.operand
partial_fixpoint

/-- Reads the rest of a chain, where its operands so far make up the formula `left`. -/
def links (source : Source) (level : Precedence) (left : Formula) : CursorReader Formula := do
  source.skip
  match (← peek source.body).bind (Formula.operatorAt? level) with
  | none => return left
  | some op =>
    advance 1
    let right ← source |>.chainOperand level
    source |>.links level (.binary op left right)
partial_fixpoint

/-- Reads a single operand. -/
def operand (source : Source) : CursorReader Formula := do
  source.skip
  match ← peek source.body with
  | none => refuse .unexpectedCharacter
  | some c =>
    if c.isDigit then source.number
    else if c.isAlpha then
      let name ← source.word
      source.wordOperand name
    else if c = '(' then
      advance 1
      let inner ← source |>.chain .additive
      source.closing inner .unclosedParenthesis
    else refuse .unexpectedCharacter
partial_fixpoint

end

/-! ### Whole texts -/

/-- Reads an expression that nothing follows. -/
def expression (source : Source) : CursorReader Formula := do
  let formula ← source.chain .additive
  source.skip
  if source.body.utf8ByteSize ≤ (← position) then return formula
  else refuse .trailingText

/-- The body of a formula: what follows the equals sign, without the blanks at its ends. -/
def bodyOf (text : String) : String := String.ofList (trim text.toList.tail)

/-- Reads the text of a formula at a cursor, its equals sign included. -/
def parse (grid : Grid) (text : String) : Option (Except SyntaxError Formula × Cursor) :=
  match text.toList with
  | '=' :: _ => outcome (expression ⟨bodyOf text, grid⟩) .start
  | _ => some (.error ⟨.missingMarker, 0⟩, .start)

variable {source : Source} {cursor cursor' : Cursor} {rest text text' : List Char} {c : Char}

/-! ### What tokens are read -/

/-- **Blanks are moved over**, and none is left. -/
theorem exists_outcome_skip (h : cursor.At source.body rest) : ∃ cursor',
    outcome source.skip cursor = some (.ok (), cursor') ∧
      cursor'.At source.body (skipBlanks rest) := by
  induction rest generalizing cursor with
  | nil =>
    refine ⟨cursor, ?_, h⟩
    rw [skip, outcome_bind_ok (outcome_charAt? h)]
    rfl
  | cons c rest ih =>
    rw [skip, outcome_bind_ok (outcome_charAt? h), skipBlanks, List.dropWhile_cons]
    simp only [List.head?_cons]
    split
    · obtain ⟨cursor', hskip, hat⟩ := ih h.advance
      exact ⟨cursor', (outcome_bind_ok (outcome_advance _ _) _).trans hskip, hat⟩
    · exact ⟨cursor, rfl, h⟩

theorem exists_outcome_overWord (h : cursor.At source.body rest) : ∃ cursor',
    outcome source.overWord cursor = some (.ok (), cursor') ∧
      cursor'.At source.body (splitWord rest).2 := by
  induction rest generalizing cursor with
  | nil =>
    refine ⟨cursor, ?_, h⟩
    rw [overWord, outcome_bind_ok (outcome_peek h)]
    rfl
  | cons c rest ih =>
    rw [overWord, outcome_bind_ok (outcome_peek h), splitWord, List.dropWhile_cons]
    simp only [List.head?_cons, Option.map_some, Option.any_some, isAlphanum_firstByte]
    split
    · rename_i hc
      have hlt : c.toNat < 128 := Nat.lt_of_le_of_lt (toNat_of_isAlphanum hc).2 (by decide)
      obtain ⟨cursor', hover, hat⟩ := ih (h.advance_one hlt)
      exact ⟨cursor', (outcome_bind_ok (outcome_advance _ _) _).trans hover, hat⟩
    · exact ⟨cursor, rfl, h⟩

/-- **A word is read in full.** -/
theorem exists_outcome_word (h : cursor.At source.body rest) : ∃ cursor',
    outcome source.word cursor = some (.ok (splitWord rest).1, cursor') ∧
      cursor'.At source.body (splitWord rest).2 := by
  obtain ⟨cursor', hover, hat⟩ := exists_outcome_overWord h
  have hstart : cursor.At source.body ((splitWord rest).1 ++ (splitWord rest).2) := by
    rwa [append_splitWord]
  refine ⟨cursor', ?_, hat⟩
  rw [word, outcome_bind_ok (outcome_position cursor), outcome_bind_ok hover,
    outcome_slice hstart hat]

/-- What is left after the digits, and after a point if one may come. -/
def afterNumber (pointMet : Bool) (text : List Char) : List Char :=
  if pointMet then (Numeral.splitDigits text).2 else (splitNumber text).2

/-- What a number leaves depends on what its digits leave. -/
theorem splitNumber_snd_congr (h : (Numeral.splitDigits text).2 = (Numeral.splitDigits text').2) :
    (splitNumber text).2 = (splitNumber text').2 := by
  simp only [splitNumber, h]
  split <;> rfl

theorem afterNumber_of_isDigit (hc : c.isDigit = true) (pointMet : Bool) :
    afterNumber pointMet (c :: rest) = afterNumber pointMet rest := by
  have hdrop : (Numeral.splitDigits (c :: rest)).2 = (Numeral.splitDigits rest).2 := by
    rw [Numeral.splitDigits, List.dropWhile_cons, if_pos hc]
    rfl
  cases pointMet with
  | true => exact hdrop
  | false => exact splitNumber_snd_congr hdrop

theorem afterNumber_of_not_isDigit {pointMet : Bool} (hc : ¬c.isDigit = true)
    (hpoint : ¬(c = '.' ∧ pointMet = false)) : afterNumber pointMet (c :: rest) = c :: rest := by
  have hdrop : (Numeral.splitDigits (c :: rest)).2 = c :: rest := by
    rw [Numeral.splitDigits, List.dropWhile_cons, if_neg hc]
  cases pointMet with
  | true => exact hdrop
  | false =>
    change (splitNumber (c :: rest)).2 = c :: rest
    simp only [splitNumber, hdrop]
    split
    · rename_i heq
      cases heq
      exact absurd ⟨rfl, rfl⟩ hpoint
    · rfl

theorem exists_outcome_overNumber (pointMet : Bool) (h : cursor.At source.body rest) : ∃ cursor',
    outcome (source.overNumber pointMet) cursor = some (.ok (), cursor') ∧
      cursor'.At source.body (afterNumber pointMet rest) := by
  induction rest generalizing cursor pointMet with
  | nil =>
    refine ⟨cursor, ?_, ?_⟩
    · rw [overNumber, outcome_bind_ok (outcome_peek h)]
      rfl
    · cases pointMet <;> exact h
  | cons c rest ih =>
    rw [overNumber, outcome_bind_ok (outcome_peek h)]
    simp only [List.head?_cons, Option.map_some, isDigit_firstByte]
    split
    · rename_i hc
      have hlt : c.toNat < 128 :=
        Nat.lt_of_le_of_lt (toNat_of_isAlphanum (isAlphanum_of_isDigit hc)).2 (by decide)
      obtain ⟨cursor', hover, hat⟩ := ih pointMet (h.advance_one hlt)
      refine ⟨cursor', (outcome_bind_ok (outcome_advance _ _) _).trans hover, ?_⟩
      rwa [afterNumber_of_isDigit hc]
    · rename_i hc
      simp only [firstByte_eq_iff (show '.'.toNat < 128 by decide)]
      split
      · rename_i hpoint
        obtain ⟨rfl, rfl⟩ := hpoint
        obtain ⟨cursor', hover, hat⟩ := ih true (h.advance_one (by decide))
        exact ⟨cursor', (outcome_bind_ok (outcome_advance _ _) _).trans hover, hat⟩
      · rename_i hpoint
        refine ⟨cursor, rfl, ?_⟩
        rwa [afterNumber_of_not_isDigit hc hpoint]

/-- **A number is read in full, and it has a value.** -/
theorem exists_outcome_number (h : cursor.At source.body (c :: rest)) (hc : c.isDigit = true) :
    ∃ cursor' x, readNumber? (splitNumber (c :: rest)).1 = some x ∧
      outcome source.number cursor = some (.ok (.number x), cursor') ∧
        cursor'.At source.body (splitNumber (c :: rest)).2 := by
  obtain ⟨cursor', hover, hat⟩ := exists_outcome_overNumber false h
  have hnumeral : IsNumeral (splitNumber (c :: rest)).1 := isNumeral_splitNumber hc
  obtain ⟨x, hx⟩ := hnumeral.exists_readNumber?
  have hstart :
      cursor.At source.body ((splitNumber (c :: rest)).1 ++ (splitNumber (c :: rest)).2) := by
    rwa [append_splitNumber]
  refine ⟨cursor', x, hx, ?_, hat⟩
  rw [number, outcome_bind_ok (outcome_position cursor), outcome_bind_ok hover,
    outcome_bind_ok (outcome_slice hstart hat), hx, outcome_pure]

end Source

end Worksheet
