import Mathlib
import Worksheet.Formula.Parser
import Worksheet.Proofs.Names

/-!
# The grammar of formulas

The grammar says which texts are formulas, and of which tree, without saying how they are read. It
has two layers. A text is *written* from tokens with any blanks before, between and after them, but
none inside of a token. And a sequence of tokens *derives* a formula by the rules

```text
expression := term | expression ('+' | '-') term
term       := operand | term ('*' | '/') operand
operand    := numeral | name '(' argument ')' | argument | '(' expression ')'
argument   := cell | cell ':' cell
```

The first two rules are the chains of terms and of operands, taken apart at the last operator. That
the tree is the one that associates to the left is therefore part of the rules and need not be said.
A numeral stands for the float that it spells, a word for a function in any case of letters or for a
cell of the grid.

## Main definitions

* `Token`, `Written` — tokens, and the texts that are written from them
* `IsNumeral` — digits with at most one point
* `Argument`, `Derives` — the rules

## Main results

* `Derives.solid` — tokens of a formula have no blanks, so that they can be told apart
* `Written.trim` — blanks at the two ends do not matter
-/

namespace Worksheet

/-! ### Tokens -/

/-- The smallest parts of a written formula. -/
inductive Token where
  /-- A number. -/
  | numeral (digits : List Char)
  /-- The name of a cell or of a function. -/
  | word (letters : List Char)
  /-- An operator, a parenthesis or a colon. -/
  | symbol (c : Char)

/-- The characters of a token. -/
def Token.chars : Token → List Char
  | numeral digits => digits
  | word letters => letters
  | symbol c => [c]

/-- A text without visible characters. -/
def AllBlank (text : List Char) : Prop := ∀ c ∈ text, isBlank c = true

/-- The text has these tokens one after another, with any blanks before, between and after them. -/
inductive Written : List Token → List Char → Prop
  | nil {blanks : List Char} (hblanks : AllBlank blanks) : Written [] blanks
  | cons {token : Token} {tokens : List Token} {blanks text : List Char} (hblanks : AllBlank blanks)
      (h : Written tokens text) : Written (token :: tokens) (blanks ++ token.chars ++ text)

/-- A digit, and after it digits with at most one point among them. -/
structure IsNumeral (text : List Char) : Prop where
  head : ∃ c ∈ text.head?, c.isDigit = true
  chars : ∀ c ∈ text, c.isDigit = true ∨ c = '.'
  points : text.count '.' ≤ 1

/-! ### Rules -/

/-- The sorts of phrases that a formula is made of. -/
inductive Phrase where
  /-- Terms joined by `+` and `-`. -/
  | expression
  /-- Operands joined by `*` and `/`. -/
  | term
  /-- What operators join. -/
  | operand

/-- A cell of the grid, or two of them with a colon between. -/
inductive Argument (grid : Grid) : List Token → Formula → Prop
  | cell {word : List Char} {a : Address} (h : grid.parseChars? word = some a) :
      Argument grid [.word word] (.cell a)
  | range {word word' : List Char} {a b : Address} (ha : grid.parseChars? word = some a)
      (hb : grid.parseChars? word' = some b) :
      Argument grid [.word word, .symbol ':', .word word'] (.range a b)

/-- The tokens are a phrase of this sort, and the formula is what they stand for. -/
inductive Derives (grid : Grid) : Phrase → List Token → Formula → Prop
  | term {ts : List Token} {e : Formula} (h : Derives grid .term ts e) :
      Derives grid .expression ts e
  | sum {op : Operator} {ts us : List Token} {left right : Formula}
      (hop : op.precedence = .additive) (hleft : Derives grid .expression ts left)
      (hright : Derives grid .term us right) :
      Derives grid .expression (ts ++ .symbol op.symbol :: us) (.binary op left right)
  | operand {ts : List Token} {e : Formula} (h : Derives grid .operand ts e) :
      Derives grid .term ts e
  | product {op : Operator} {ts us : List Token} {left right : Formula}
      (hop : op.precedence = .multiplicative) (hleft : Derives grid .term ts left)
      (hright : Derives grid .operand us right) :
      Derives grid .term (ts ++ .symbol op.symbol :: us) (.binary op left right)
  | number {digits : List Char} {x : Float} (hdigits : IsNumeral digits)
      (hx : readNumber? digits = some x) : Derives grid .operand [.numeral digits] (.number x)
  | call {name : List Char} {f : Aggregate} {ts : List Token} {e : Formula}
      (hname : name.map Char.toUpper = f.name.toList) (h : Argument grid ts e) :
      Derives grid .operand (.word name :: .symbol '(' :: (ts ++ [.symbol ')'])) (.call f [e])
  | argument {ts : List Token} {e : Formula} (h : Argument grid ts e) :
      Derives grid .operand ts e
  | parentheses {ts : List Token} {e : Formula} (h : Derives grid .expression ts e) :
      Derives grid .operand (.symbol '(' :: (ts ++ [.symbol ')'])) e

variable {grid : Grid} {token : Token} {ts us : List Token} {e : Formula} {place : Phrase}
  {text blanks word : List Char} {c : Char}

/-- An operand is a phrase of every sort. -/
theorem Derives.of_operand (h : Derives grid .operand ts e) (place : Phrase) :
    Derives grid place ts e := by
  cases place with
  | expression => exact .term (.operand h)
  | term => exact .operand h
  | operand => exact h

/-! ### Blanks and the characters of tokens -/

theorem toNat_of_isBlank (h : isBlank c = true) : c.toNat ≤ 32 ∨ 133 ≤ c.toNat := by
  simp only [isBlank, blankRanges, List.any_cons, List.any_nil, Bool.or_eq_true, Bool.and_eq_true,
    decide_eq_true_eq, Bool.false_eq_true, or_false] at h
  omega

theorem toNat_of_isAlphanum (h : c.isAlphanum = true) : 48 ≤ c.toNat ∧ c.toNat ≤ 122 := by
  simp only [Char.isAlphanum, Char.isAlpha, Char.isUpper, Char.isLower, Char.isDigit,
    Bool.or_eq_true, Bool.and_eq_true, decide_eq_true_eq, UInt32.le_iff_toNat_le, ge_iff_le] at h
  have hval : c.toNat = c.val.toNat := rfl
  have hnine : '9'.val.toNat = 57 := rfl
  have hzero : '0'.val.toNat = 48 := rfl
  have hA : 'A'.val.toNat = 65 := rfl
  have hZ : 'Z'.val.toNat = 90 := rfl
  have ha : 'a'.val.toNat = 97 := rfl
  have hz : 'z'.val.toNat = 122 := rfl
  omega

theorem isBlank_eq_false_of_isAlphanum (h : c.isAlphanum = true) : isBlank c = false := by
  rw [← Bool.not_eq_true]
  intro hblank
  have := toNat_of_isBlank hblank
  have := toNat_of_isAlphanum h
  omega

theorem isAlphanum_of_isDigit (h : c.isDigit = true) : c.isAlphanum = true := by
  rw [Char.isAlphanum, h, Bool.or_true]

/-- The token has characters, none of them blank. -/
def Token.Solid (token : Token) : Prop :=
  token.chars ≠ [] ∧ ∀ c ∈ token.chars, isBlank c = false

theorem solid_symbol (h : isBlank c = false) : (Token.symbol c).Solid :=
  ⟨List.cons_ne_nil _ _, fun _ hd => List.mem_singleton.mp hd ▸ h⟩

theorem IsNumeral.solid (h : IsNumeral text) : (Token.numeral text).Solid := by
  refine ⟨?_, fun c hc => ?_⟩
  · rintro (rfl : text = [])
    obtain ⟨c, hc, -⟩ := h.head
    cases hc
  · rcases h.chars c hc with hdigit | rfl
    · exact isBlank_eq_false_of_isAlphanum (isAlphanum_of_isDigit hdigit)
    · rfl

theorem solid_word (hne : word ≠ []) (h : ∀ c ∈ word, c.isAlphanum = true) :
    (Token.word word).Solid :=
  ⟨hne, fun c hc => isBlank_eq_false_of_isAlphanum (h c hc)⟩

/-- A word that stands for a cell. -/
theorem isAlphanum_of_parseChars? {a : Address} (h : grid.parseChars? word = some a) :
    word ≠ [] ∧ ∀ c ∈ word, c.isAlphanum = true :=
  Address.isAlphanum_of_ofNameChars? (Grid.parseChars?_eq_some_iff.mp h).1

/-- Digits come before letters. -/
theorem isDigit_eq_false_of_isAlpha (h : c.isAlpha = true) : c.isDigit = false := by
  rw [← Bool.not_eq_true, Char.isDigit_iff_toNat]
  simp only [Char.isAlpha, Char.isUpper, Char.isLower, Bool.or_eq_true, Bool.and_eq_true,
    decide_eq_true_eq, UInt32.le_iff_toNat_le, ge_iff_le] at h
  have hval : c.toNat = c.val.toNat := rfl
  have hnine : '9'.toNat = 57 := rfl
  have hA : 'A'.val.toNat = 65 := rfl
  have ha : 'a'.val.toNat = 97 := rfl
  omega

/-- A word that stands for a cell does not start with a digit. -/
theorem head_of_parseChars? {a : Address} (h : grid.parseChars? word = some a) :
    ∀ c ∈ word.head?, c.isDigit = false := by
  obtain ⟨letter, digit, digits, rfl, hupper, -, -⟩ :=
    Address.exists_of_ofNameChars?_eq_some (Grid.parseChars?_eq_some_iff.mp h).1
  rintro c ⟨⟩
  refine isDigit_eq_false_of_isAlpha ?_
  rw [Char.isAlpha, hupper, Bool.true_or]

/-- A word that names a function has letters only. -/
theorem isAlpha_of_name {f : Aggregate} (h : word.map Char.toUpper = f.name.toList) :
    word ≠ [] ∧ ∀ c ∈ word, c.isAlpha = true := by
  have hne : f.name.toList ≠ [] := by
    cases f <;> decide
  have hname : f.name.toList.all Char.isAlpha = true := by
    cases f <;> rfl
  rw [← h] at hne hname
  refine ⟨fun hnil => hne (List.map_eq_nil_iff.mpr hnil), fun c hc => ?_⟩
  rw [← Char.isAlpha_toUpper_eq_isAlpha]
  exact List.all_eq_true.mp hname _ (List.mem_map_of_mem hc)

theorem isAlphanum_of_name {f : Aggregate} (h : word.map Char.toUpper = f.name.toList) :
    word ≠ [] ∧ ∀ c ∈ word, c.isAlphanum = true := by
  obtain ⟨hne, hall⟩ := isAlpha_of_name h
  refine ⟨hne, fun c hc => ?_⟩
  rw [Char.isAlphanum, hall c hc, Bool.true_or]

/-- A word that names a function does not start with a digit. -/
theorem head_of_name {f : Aggregate} (h : word.map Char.toUpper = f.name.toList) :
    ∀ c ∈ word.head?, c.isDigit = false := fun c hc =>
  isDigit_eq_false_of_isAlpha ((isAlpha_of_name h).2 c (List.mem_of_mem_head? hc))

theorem isBlank_symbol (op : Operator) : isBlank op.symbol = false := by
  cases op <;> decide

theorem solid_word_of_parseChars? {a : Address} (h : grid.parseChars? word = some a) :
    (Token.word word).Solid := by
  obtain ⟨hne, hall⟩ := isAlphanum_of_parseChars? h
  exact solid_word hne hall

theorem Argument.solid (h : Argument grid ts e) : ∀ token ∈ ts, token.Solid := by
  cases h with
  | cell h => exact List.forall_mem_singleton.mpr (solid_word_of_parseChars? h)
  | range ha hb =>
    refine List.forall_mem_cons.mpr ⟨solid_word_of_parseChars? ha, ?_⟩
    refine List.forall_mem_cons.mpr ⟨?_, ?_⟩
    · exact solid_symbol (by decide)
    · exact List.forall_mem_singleton.mpr (solid_word_of_parseChars? hb)

theorem solid_binary (op : Operator) (hts : ∀ token ∈ ts, token.Solid)
    (hus : ∀ token ∈ us, token.Solid) : ∀ token ∈ ts ++ .symbol op.symbol :: us, token.Solid :=
  List.forall_mem_append.mpr
    ⟨hts, List.forall_mem_cons.mpr ⟨solid_symbol (isBlank_symbol op), hus⟩⟩

theorem solid_parentheses (hts : ∀ token ∈ ts, token.Solid) :
    ∀ token ∈ .symbol '(' :: (ts ++ [.symbol ')']), token.Solid := by
  refine List.forall_mem_cons.mpr ⟨solid_symbol (by decide), List.forall_mem_append.mpr ⟨hts, ?_⟩⟩
  exact List.forall_mem_singleton.mpr (solid_symbol (by decide))

/-- **The tokens of a formula have no blanks.** -/
theorem Derives.solid (h : Derives grid place ts e) : ∀ token ∈ ts, token.Solid := by
  induction h with
  | term _ ih => exact ih
  | sum _ _ _ ihLeft ihRight => exact solid_binary _ ihLeft ihRight
  | operand _ ih => exact ih
  | product _ _ _ ihLeft ihRight => exact solid_binary _ ihLeft ihRight
  | number hdigits _ => exact List.forall_mem_singleton.mpr hdigits.solid
  | call hname h =>
    obtain ⟨hne, hall⟩ := isAlphanum_of_name hname
    exact List.forall_mem_cons.mpr ⟨solid_word hne hall, solid_parentheses h.solid⟩
  | argument h => exact h.solid
  | parentheses _ ih => exact solid_parentheses ih

/-! ### Written texts -/

theorem skipBlanks_skipBlanks (text : List Char) :
    skipBlanks (skipBlanks text) = skipBlanks text :=
  List.dropWhile_idempotent _ _

theorem allBlank_nil : AllBlank [] := nofun

theorem AllBlank.append {blanks' : List Char} (h : AllBlank blanks) (h' : AllBlank blanks') :
    AllBlank (blanks ++ blanks') :=
  List.forall_mem_append.mpr ⟨h, h'⟩

theorem AllBlank.skipBlanks_append (h : AllBlank blanks) (text : List Char) :
    skipBlanks (blanks ++ text) = skipBlanks text :=
  List.dropWhile_append_of_pos h

theorem AllBlank.skipBlanks_eq (h : AllBlank blanks) : skipBlanks blanks = [] := by
  have happend := h.skipBlanks_append []
  rwa [List.append_nil] at happend

theorem allBlank_of_skipBlanks_eq_nil (h : skipBlanks text = []) : AllBlank text :=
  List.dropWhile_eq_nil_iff.mp h

/-- Skipping blanks takes blanks away. -/
theorem exists_blanks_append (text : List Char) :
    ∃ blanks, AllBlank blanks ∧ text = blanks ++ skipBlanks text := by
  refine ⟨text.takeWhile isBlank, fun c hc => ?_, List.takeWhile_append_dropWhile.symm⟩
  exact List.all_eq_true.mp List.all_takeWhile c hc

theorem Token.Solid.skipBlanks_append (h : token.Solid) (text : List Char) :
    skipBlanks (token.chars ++ text) = token.chars ++ text := by
  obtain ⟨c, rest, hchars⟩ := List.exists_cons_of_ne_nil h.1
  have hc : isBlank c = false := h.2 c (hchars ▸ List.mem_cons_self)
  rw [hchars, List.cons_append, skipBlanks, List.dropWhile_cons, hc]
  rfl

/-- What is dropped from the end does not go beyond a character that stays. -/
theorem rdropWhile_append_of_eq_false {p : Char → Bool} (hc : p c = false)
    (front text : List Char) :
    (front ++ [c] ++ text).rdropWhile p = front ++ [c] ++ text.rdropWhile p := by
  induction text using List.reverseRecOn with
  | nil =>
    rw [List.append_nil, List.rdropWhile_nil, List.append_nil]
    exact List.rdropWhile_concat_neg p front c (by rw [hc]; exact Bool.false_ne_true)
  | append_singleton text d ih =>
    rw [← List.append_assoc, List.rdropWhile_concat, List.rdropWhile_concat]
    split
    · exact ih
    · rw [List.append_assoc]

namespace Written

theorem blanks_append (h : Written ts text) (hblanks : AllBlank blanks) :
    Written ts (blanks ++ text) := by
  cases h with
  | nil h => exact .nil (hblanks.append h)
  | cons h htext =>
    rw [← List.append_assoc, ← List.append_assoc]
    exact .cons (hblanks.append h) htext

theorem append {text' : List Char} (h : Written ts text) (h' : Written us text') :
    Written (ts ++ us) (text ++ text') := by
  induction h with
  | nil hblanks => exact h'.blanks_append hblanks
  | cons hblanks _ ih =>
    rw [List.append_assoc]
    exact .cons hblanks ih

/-- Blanks at the start can be left out. -/
theorem skip (h : Written ts text) (hts : ∀ token ∈ ts, token.Solid) :
    Written ts (skipBlanks text) := by
  cases h with
  | nil hblanks =>
    rw [hblanks.skipBlanks_eq]
    exact .nil allBlank_nil
  | cons hblanks h =>
    rw [List.append_assoc, hblanks.skipBlanks_append,
      (hts _ List.mem_cons_self).skipBlanks_append]
    exact .cons allBlank_nil h

/-- Blanks at the end can be left out. -/
theorem skipEnd (h : Written ts text) (hts : ∀ token ∈ ts, token.Solid) :
    Written ts (text.rdropWhile isBlank) := by
  induction h with
  | nil hblanks =>
    rw [List.rdropWhile_eq_nil_iff.mpr hblanks]
    exact .nil allBlank_nil
  | @cons token tokens blanks text hblanks _ ih =>
    obtain ⟨htoken, hrest⟩ := List.forall_mem_cons.mp hts
    obtain ⟨front, c, hchars⟩ := (List.eq_nil_or_concat' token.chars).resolve_left htoken.1
    have hc : isBlank c = false := htoken.2 c (hchars ▸ List.mem_append_right _ List.mem_cons_self)
    have hdrop : (blanks ++ token.chars ++ text).rdropWhile isBlank =
        blanks ++ token.chars ++ text.rdropWhile isBlank := by
      rw [hchars, ← List.append_assoc]
      exact rdropWhile_append_of_eq_false hc _ _
    rw [hdrop]
    exact .cons hblanks (ih hrest)

/-- **Blanks at the two ends do not matter.** -/
theorem trim (h : Written ts text) (hts : ∀ token ∈ ts, token.Solid) :
    Written ts (Worksheet.trim text) :=
  (h.skip hts).skipEnd hts

end Written

/-- Trimming takes blanks away from the two ends. -/
theorem exists_blanks_trim (text : List Char) : ∃ blanks blanks',
    AllBlank blanks ∧ AllBlank blanks' ∧ text = blanks ++ trim text ++ blanks' := by
  obtain ⟨blanks, hblanks, htext⟩ := exists_blanks_append text
  refine ⟨blanks, (skipBlanks text).rtakeWhile isBlank, hblanks,
    fun c hc => List.mem_rtakeWhile_imp hc, ?_⟩
  rw [List.append_assoc]
  exact htext.trans (congrArg (blanks ++ ·) List.rdropWhile_append_rtakeWhile.symm)

end Worksheet
