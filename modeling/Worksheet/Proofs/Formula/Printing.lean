import Worksheet.Proofs.Formula.Parsing

/-!
# Printing formulas

A formula is printed with a pair of parentheses around every operation that stands in a place which
does not admit it as it is: a sum that is an operand of a product, and an operation that is the right
operand of another one of the same precedence. What is printed derives the formula again
(`derives_print`), for every formula that can be written at all.

Apart from that, printing is free at every node of the formula (`Style`). There may be more pairs of
parentheses, a number may have any digits that spell it, and the name of a function any case of
letters. Blanks are the business of `Written`.

## Main definitions

* `Style` — what is free at a node
* `Formula.print` — the tokens of a formula

## Main results

* `Formula.derives_print` — the tokens derive the formula
* `Formula.parse_exact` — the texts that are formulas, their trees, and the way back from a tree
-/

namespace Worksheet

/-- The two operands of an operator. -/
inductive Side where
  | left
  | right

/-- How one node of a formula is printed. -/
structure Style where
  /-- The digits of a number. -/
  numeral : Float → List Char
  /-- The name of a function. -/
  name : Aggregate → List Char
  /-- The number of pairs of parentheses that are put around it although it needs none. -/
  pairs : Nat
  /-- A number that can be written is written as itself. -/
  numeral_spells : ∀ x, (∃ digits, IsNumeral digits ∧ readNumber? digits = some x) →
    IsNumeral (numeral x) ∧ readNumber? (numeral x) = some x
  /-- A name is one of the function, in any case of letters. -/
  name_spells : ∀ f, (name f).map Char.toUpper = f.name.toList

instance : Nonempty Style := by
  classical
  have hname : ∀ f : Aggregate, f.name.toList.map Char.toUpper = f.name.toList := by
    intro f
    cases f <;> decide
  refine ⟨fun x => if h : ∃ digits, IsNumeral digits ∧ readNumber? digits = some x then h.choose
    else [], fun f => f.name.toList, 0, fun x h => ?_, hname⟩
  rw [dif_pos h]
  exact h.choose_spec

/-- Whether an operation of this precedence may stand in the place as it is. -/
def Phrase.admits : Phrase → Precedence → Bool
  | expression, _ => true
  | term, .multiplicative => true
  | term, .additive => false
  | operand, _ => false

/-- The tokens in so many pairs of parentheses. -/
def parenthesize : Nat → List Token → List Token
  | 0, ts => ts
  | n + 1, ts => .symbol '(' :: (parenthesize n ts ++ [.symbol ')'])

namespace Formula

variable {grid : Grid} {place : Phrase} {level : Precedence} {ts : List Token} {e : Formula}
  {n : Nat}

/-- The tokens of a cell or a rectangle. -/
def argumentTokens : Formula → List Token
  | cell a => [.word a.nameChars]
  | range a b => [.word a.nameChars, .symbol ':', .word b.nameChars]
  | _ => []

/-- The tokens of a formula that stands in this place. Every node has a style of its own, found by
the way to it from the root. -/
def print : (List Side → Style) → Phrase → Formula → List Token
  | style, place, binary op left right =>
    parenthesize ((style []).pairs + if place.admits op.precedence then 0 else 1)
      (print (fun way => style (.left :: way)) op.precedence.phrase left ++ .symbol op.symbol ::
        print (fun way => style (.right :: way)) op.precedence.operandPhrase right)
  | style, _, number x => parenthesize (style []).pairs [.numeral ((style []).numeral x)]
  | style, _, call f arguments => parenthesize (style []).pairs
      (.word ((style []).name f) :: .symbol '(' ::
        (arguments.flatMap argumentTokens ++ [.symbol ')']))
  | style, _, argument => parenthesize (style []).pairs argument.argumentTokens

/-- Any phrase is an expression. -/
theorem derives_expression (h : Derives grid place ts e) : Derives grid .expression ts e := by
  cases place with
  | expression => exact h
  | term => exact .term h
  | operand => exact .term (.operand h)

theorem derives_expression_parenthesize (h : Derives grid place ts e) (n : Nat) :
    Derives grid .expression (parenthesize n ts) e := by
  induction n with
  | zero => exact derives_expression h
  | succ n ih => exact .of_operand (.parentheses ih) .expression

/-- In parentheses, a phrase may stand in any place. -/
theorem derives_parenthesize {place' : Phrase} (h : Derives grid place ts e)
    (hplace : n = 0 → Derives grid place' ts e) : Derives grid place' (parenthesize n ts) e := by
  cases n with
  | zero => exact hplace rfl
  | succ n => exact .of_operand (.parentheses (derives_expression_parenthesize h n)) place'

theorem derives_of_admits (h : Derives grid level.phrase ts e)
    (hplace : place.admits level = true) : Derives grid place ts e := by
  cases place with
  | expression => exact derives_expression h
  | term =>
    cases level with
    | additive => cases hplace
    | multiplicative => exact h
  | operand => cases hplace

theorem argument_argumentTokens (h : Argument grid ts e) : Argument grid e.argumentTokens e := by
  cases h with
  | cell ha => exact .cell (Grid.parseChars?_nameChars ha)
  | range ha hb => exact .range (Grid.parseChars?_nameChars ha) (Grid.parseChars?_nameChars hb)

theorem print_argument (h : Argument grid ts e) (style : List Side → Style) (place : Phrase) :
    e.print style place = parenthesize (style []).pairs e.argumentTokens := by
  cases h <;> rfl

theorem derives_print_binary {op : Operator} {left right : Formula} {style : List Side → Style}
    (hleft : Derives grid op.precedence.phrase
      (left.print (fun way => style (.left :: way)) op.precedence.phrase) left)
    (hright : Derives grid op.precedence.operandPhrase
      (right.print (fun way => style (.right :: way)) op.precedence.operandPhrase) right) :
    Derives grid place ((binary op left right).print style place) (binary op left right) := by
  have hboth := derives_binary rfl hleft hright
  refine derives_parenthesize hboth fun hnone => derives_of_admits hboth ?_
  by_contra hadmits
  rw [if_neg hadmits] at hnone
  omega

/-- **What is printed derives the formula**, in every style and in every place. -/
theorem derives_print (h : Derives grid place ts e) (style : List Side → Style) (place' : Phrase) :
    Derives grid place' (e.print style place') e := by
  induction h generalizing style place' with
  | term _ ih => exact ih style place'
  | sum _ _ _ ihLeft ihRight => exact derives_print_binary (ihLeft _ _) (ihRight _ _)
  | operand _ ih => exact ih style place'
  | product _ _ _ ihLeft ihRight => exact derives_print_binary (ihLeft _ _) (ihRight _ _)
  | number hdigits hx =>
    obtain ⟨hspelled, hvalue⟩ := (style []).numeral_spells _ ⟨_, hdigits, hx⟩
    exact derives_parenthesize (.number hspelled hvalue) fun _ =>
      .of_operand (.number hspelled hvalue) place'
  | @call _ f _ argument _ h =>
    have hcall := Derives.call ((style []).name_spells f) (argument_argumentTokens h)
    rw [print, List.flatMap_singleton]
    exact derives_parenthesize hcall fun _ => .of_operand hcall place'
  | argument h =>
    rw [print_argument h]
    have hargument := Derives.argument (argument_argumentTokens h)
    exact derives_parenthesize hargument fun _ => .of_operand hargument place'
  | parentheses _ ih => exact ih style place'

/-- **Reading and printing formulas.** For every grid:

* A text is read as a formula just if it is an equals sign and a text that is written, with any
  blanks between them, from tokens that derive the formula.
* The formula is the only one that the text derives.
* Every numeral has a value, so that none is refused.
* A formula that some text is read as is read again from whatever it is printed as. -/
theorem parse_exact (grid : Grid) :
    (∀ text e, parse grid text = .ok e ↔ ∃ body ts, text.toList = '=' :: body ∧
      Written ts body ∧ Derives grid .expression ts e) ∧
    (∀ body ts ts' e e', Written ts body → Derives grid .expression ts e →
      Written ts' body → Derives grid .expression ts' e' → e = e') ∧
    (∀ digits, IsNumeral digits → ∃ x, readNumber? digits = some x) ∧
    (∀ text e, parse grid text = .ok e → ∀ style body, Written (e.print style .expression) body →
      parse grid (String.ofList ('=' :: body)) = .ok e) := by
  refine ⟨fun text e => parse_eq_ok_iff, ?_, fun digits h => h.exists_readNumber?, ?_⟩
  · intro body ts ts' e e' hwritten hderives hwritten' hderives'
    have hread : parseBody grid body = .ok e :=
      parseBody_eq_ok_iff_derives.mpr ⟨ts, hwritten, hderives⟩
    have hread' : parseBody grid body = .ok e' :=
      parseBody_eq_ok_iff_derives.mpr ⟨ts', hwritten', hderives'⟩
    exact Except.ok.inj (hread.symm.trans hread')
  · intro text e hread style body hwritten
    obtain ⟨_, ts, -, -, hderives⟩ := parse_eq_ok_iff.mp hread
    exact parse_eq_ok_iff.mpr ⟨body, _, String.toList_ofList, hwritten,
      derives_print hderives style .expression⟩

end Formula

end Worksheet
