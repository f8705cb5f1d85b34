import Worksheet.Proofs.Formula.Readers
import Worksheet.Proofs.Formula.Scanning

/-!
# Formulas are read by the grammar

What `Formula.parse` accepts is what the grammar derives. Both directions are proved for the readers,
each of which leaves a rest.

* Soundness follows the recursion of the readers. For the links of a chain it speaks of everything
  read since the start of the chain, because the tree is built from the left.
* Completeness follows the derivation. A chain that has been read up to a point goes on from there
  just as its links do, so nothing has to be known about what follows, except that it cannot be
  taken for a part of the phrase (`Closes`).

## Main definitions

* `Precedence.phrase`, `Precedence.operandPhrase` — the two sides of an operator
* `Spells` — a phrase at the start of a text
* `Closes` — what may stand after a phrase
* `IsRead`, `AreRead` — how the readers read the tokens of a phrase

## Main results

* `spells_of_readers` — soundness
* `areRead_of_derives` — completeness
* `parse_eq_ok_iff` — what is accepted, and as what formula
-/

namespace Worksheet

/-- What a chain of this precedence is. -/
def Precedence.phrase : Precedence → Phrase
  | additive => .expression
  | multiplicative => .term

/-- What a chain of this precedence is made of. -/
def Precedence.operandPhrase : Precedence → Phrase
  | additive => .term
  | multiplicative => .operand

namespace Formula

variable {grid : Grid} {place : Phrase} {level : Precedence} {op : Operator} {ts us : List Token}
  {e left right : Formula} {text text' rest mid word : List Char} {f : Aggregate} {c : Char}

theorem derives_single (h : Derives grid level.operandPhrase ts e) :
    Derives grid level.phrase ts e := by
  cases level with
  | additive => exact .term h
  | multiplicative => exact .operand h

theorem derives_binary (hop : op.precedence = level) (hleft : Derives grid level.phrase ts left)
    (hright : Derives grid level.operandPhrase us right) :
    Derives grid level.phrase (ts ++ .symbol op.symbol :: us) (.binary op left right) := by
  cases level with
  | additive => exact .sum hop hleft hright
  | multiplicative => exact .product hop hleft hright

/-! ### Soundness -/

/-- The text starts with a phrase of this sort for the formula, and the rest follows it. -/
def Spells (grid : Grid) (place : Phrase) (text : List Char) (e : Formula) (rest : List Char) :
    Prop :=
  ∃ ts, Derives grid place ts e ∧ StartsWith ts text rest

theorem Spells.single (h : Spells grid level.operandPhrase text e rest) :
    Spells grid level.phrase text e rest := by
  obtain ⟨ts, hderives, hstart⟩ := h
  exact ⟨ts, derives_single hderives, hstart⟩

theorem Spells.of_skipBlanks_rest_eq (h : Spells grid place text e mid)
    (heq : skipBlanks mid = skipBlanks rest) : Spells grid place text e rest := by
  obtain ⟨ts, hderives, hstart⟩ := h
  exact ⟨ts, hderives, hstart.of_skipBlanks_rest_eq heq⟩

/-- An operator joins the phrase before it and the phrase after it. -/
theorem Spells.binary (hleft : Spells grid level.phrase text left mid)
    (hmid : skipBlanks mid = c :: text') (hop : operatorAt? level c = some op)
    (hright : Spells grid level.operandPhrase text' right rest) :
    Spells grid level.phrase text (.binary op left right) rest := by
  obtain ⟨rfl, hlevel⟩ := operatorAt?_eq_some_iff.mp hop
  obtain ⟨ts, hts, hstart⟩ := hleft
  obtain ⟨us, hus, hnext⟩ := hright
  exact ⟨_, derives_binary hlevel hts hus, hstart.append (.cons hmid hnext)⟩

theorem exists_argument_of_reference (h : (reference grid word text).result? = some (e, rest)) :
    ∃ ts, Argument grid (.word word :: ts) e ∧ StartsWith ts text rest := by
  by_cases hcolon : (skipBlanks text).head? = some ':'
  · obtain ⟨text', htext⟩ := List.head?_eq_some_iff.mp hcolon
    rw [result?_reference_colon htext, lastCorner_eq_some_iff] at h
    obtain ⟨a, b, ha, hb, rfl, rfl⟩ := h
    refine ⟨[.symbol ':', .word (splitWord (skipBlanks text')).1], .range ha hb, ?_⟩
    exact .cons htext (.single (append_splitWord _).symm)
  · rw [result?_reference_of_ne hcolon, Option.map_eq_some_iff] at h
    obtain ⟨a, ha, heq⟩ := h
    cases heq
    exact ⟨[], .cell ha, .nil (skipBlanks_skipBlanks _).symm⟩

theorem exists_call_of_callArgument (hname : Aggregate.ofNameChars? word = some f)
    (h : (callArgument grid f text).result? = some (e, rest)) :
    ∃ ts, Derives grid .operand (.word word :: .symbol '(' :: ts) e ∧ StartsWith ts text rest := by
  rw [result?_callArgument, Option.bind_eq_some_iff] at h
  obtain ⟨⟨argument, mid⟩, hargument, h⟩ := h
  obtain ⟨rest', hclose, heq⟩ := Option.map_eq_some_iff.mp h
  cases heq
  obtain ⟨ts, hts, hstart⟩ := exists_argument_of_reference hargument
  refine ⟨_ :: ts ++ [.symbol ')'], .call (ofNameChars?_eq_some_iff.mp hname) hts, ?_⟩
  refine StartsWith.append (.cons (append_splitWord _).symm hstart) ?_
  exact .single (afterClosing?_eq_some_iff.mp hclose)

theorem exists_of_wordOperand (h : (wordOperand grid word text).result? = some (e, rest)) :
    ∃ ts, Derives grid .operand (.word word :: ts) e ∧ StartsWith ts text rest := by
  by_cases hopen : (skipBlanks text).head? = some '('
  · obtain ⟨text', htext⟩ := List.head?_eq_some_iff.mp hopen
    rw [result?_wordOperand_open htext, Option.bind_eq_some_iff] at h
    obtain ⟨f, hname, h⟩ := h
    obtain ⟨ts, hts, hstart⟩ := exists_call_of_callArgument hname h
    exact ⟨_, hts, .cons htext hstart⟩
  · rw [result?_wordOperand_of_ne hopen] at h
    obtain ⟨ts, hts, hstart⟩ := exists_argument_of_reference h
    exact ⟨ts, .argument hts, hstart⟩

theorem spells_of_digit (htext : skipBlanks text = c :: text') (hc : c.isDigit = true)
    (h : (operand grid text).result? = some (e, rest)) : Spells grid .operand text e rest := by
  rw [result?_operand_digit htext hc, Option.map_eq_some_iff] at h
  obtain ⟨x, hx, heq⟩ := h
  cases heq
  exact ⟨_, .number (isNumeral_splitNumber hc) hx,
    .single (htext.trans (append_splitNumber _).symm)⟩

theorem spells_of_word (htext : skipBlanks text = c :: text') (hdigit : ¬c.isDigit = true)
    (hc : c.isAlphanum = true) (h : (operand grid text).result? = some (e, rest)) :
    Spells grid .operand text e rest := by
  rw [result?_operand_word htext hdigit hc] at h
  obtain ⟨ts, hts, hstart⟩ := exists_of_wordOperand h
  exact ⟨_, hts, .cons (htext.trans (append_splitWord _).symm) hstart⟩

theorem spells_of_open (htext : skipBlanks text = '(' :: text')
    (ih : ∀ e rest, (chain grid .additive text').result? = some (e, rest) →
      Spells grid .expression text' e rest)
    (h : (operand grid text).result? = some (e, rest)) : Spells grid .operand text e rest := by
  rw [result?_operand_open htext, Option.bind_eq_some_iff] at h
  obtain ⟨⟨inner, mid⟩, hinner, h⟩ := h
  obtain ⟨rest', hclose, heq⟩ := Option.map_eq_some_iff.mp h
  cases heq
  obtain ⟨ts, hts, hstart⟩ := ih inner mid hinner
  refine ⟨_, .parentheses hts, .cons htext (hstart.append ?_)⟩
  exact .single (afterClosing?_eq_some_iff.mp hclose)

/-- **Whatever is read is derived.** For the links of a chain, this says how the part that was read
before them goes on. -/
theorem spells_of_readers (grid : Grid) :
    (∀ level text, ∀ e rest, (chain grid level text).result? = some (e, rest) →
      Spells grid level.phrase text e rest) ∧
    (∀ level left text, ∀ e rest, (links grid level left text).result? = some (e, rest) →
      ∀ start, Spells grid level.phrase start left text → Spells grid level.phrase start e rest) ∧
    (∀ level text, ∀ e rest, (chainOperand grid level text).result? = some (e, rest) →
      Spells grid level.operandPhrase text e rest) ∧
    (∀ text, ∀ e rest, (operand grid text).result? = some (e, rest) →
      Spells grid .operand text e rest) := by
  apply chain.mutual_induct grid
  -- a chain: its first operand is stuck, or the links come next
  case case1 =>
    intro level text fault rest hread _ e rest h
    rw [result?_chain, hread] at h
    cases h
  case case2 =>
    intro level text left mid shorter hread ihOperand ihLinks e rest h
    rw [result?_chain, hread] at h
    have hleft : Spells grid level.operandPhrase text left mid :=
      ihOperand left mid (congrArg Reading.result? hread)
    exact ihLinks e rest h text hleft.single
  -- links: the text ends, no operator comes, its operand is stuck, or one more link is read
  case case3 =>
    intro level left text _ htext e rest h start hleft
    rw [result?_links_end (chainEnds_nil htext)] at h
    cases h
    exact hleft.of_skipBlanks_rest_eq (skipBlanks_skipBlanks _).symm
  case case4 =>
    intro level left text _ c text' htext _ hop e rest h start hleft
    rw [result?_links_end (chainEnds_cons htext hop)] at h
    cases h
    exact hleft.of_skipBlanks_rest_eq (skipBlanks_skipBlanks _).symm
  case case5 =>
    intro level left text _ c text' htext _ op hop fault rest hread _ e rest h
    rw [result?_links_operator htext hop, hread] at h
    cases h
  case case6 =>
    intro level left text _ c text' htext _ op hop right mid shorter hread ihOperand ihLinks
      e rest h start hleft
    rw [result?_links_operator htext hop, hread] at h
    have hright : Spells grid level.operandPhrase text' right mid :=
      ihOperand right mid (congrArg Reading.result? hread)
    exact ihLinks e rest h start (hleft.binary htext hop hright)
  -- the operands of a chain
  case case7 =>
    intro text ih e rest h
    exact ih e rest (result?_chainOperand_additive.symm.trans h)
  case case8 =>
    intro text ih e rest h
    exact ih e rest (result?_chainOperand_multiplicative.symm.trans h)
  -- a single operand: nothing, a number, a word, parentheses or something else
  case case9 =>
    intro text _ htext e rest h
    cases (result?_operand_nil htext).symm.trans h
  case case10 =>
    intro text _ c text' htext _ hc e rest h
    exact spells_of_digit htext hc h
  case case11 =>
    intro text _ c text' htext _ hdigit hc word _ e rest h
    exact spells_of_word htext hdigit hc h
  case case12 =>
    intro text _ text' fault rest _ htext _ _ _ ih e rest h
    exact spells_of_open htext ih h
  case case13 =>
    intro text _ text' inner mid _ _ _ rest' _ htext _ _ _ ih e rest h
    exact spells_of_open htext ih h
  case case14 =>
    intro text _ text' inner mid _ _ _ htext _ _ _ _ ih e rest h
    exact spells_of_open htext ih h
  case case15 =>
    intro text _ c text' htext _ _ hc hopen e rest h
    cases (result?_operand_other htext hc hopen).symm.trans h

/-! ### Completeness -/

/-- What comes next cannot go on with a phrase, except by an operator: it is an operator, a closing
parenthesis or the end of the text. -/
def Closes (text : List Char) : Prop :=
  ∀ c ∈ (skipBlanks text).head?, c = ')' ∨ ∃ op : Operator, op.symbol = c

theorem closes_parenthesis (h : skipBlanks text = ')' :: rest) : Closes text := by
  rw [Closes, h]
  rintro _ ⟨⟩
  exact .inl rfl

theorem closes_operator (h : skipBlanks text = op.symbol :: rest) : Closes text := by
  rw [Closes, h]
  rintro _ ⟨⟩
  exact .inr ⟨op, rfl⟩

theorem chainEnds_parenthesis (h : skipBlanks text = ')' :: rest) : ChainEnds level text := by
  refine chainEnds_cons h ?_
  cases level <;> decide

theorem chainEnds_operator (h : skipBlanks text = op.symbol :: rest) (hop : op.precedence ≠ level) :
    ChainEnds level text := by
  refine chainEnds_cons h ?_
  rw [Option.eq_none_iff_forall_ne_some]
  intro op' hop'
  obtain ⟨hsymbol, rfl⟩ := operatorAt?_eq_some_iff.mp hop'
  have hsame : some op = some op' := by
    rw [← Operator.ofSymbol?_symbol op, ← hsymbol, Operator.ofSymbol?_symbol]
  cases hsame
  exact hop rfl

theorem Closes.apart (h : Closes text) : Apart text := by
  intro c hc
  rcases h c hc with rfl | ⟨op, rfl⟩
  · decide
  · cases op <;> decide

theorem Closes.head?_ne (h : Closes text) (hc : c ≠ ')') (hop : ∀ op : Operator, op.symbol ≠ c) :
    (skipBlanks text).head? ≠ some c := by
  intro hhead
  rcases h c hhead with rfl | ⟨op, rfl⟩
  · exact hc rfl
  · exact hop op rfl

/-- The formula has been read, and the rest is left, up to blanks. -/
def Yields (result : Option (Formula × List Char)) (e : Formula) (rest : List Char) : Prop :=
  ∃ rest', result = some (e, rest') ∧ skipBlanks rest' = skipBlanks rest

/-- After the word at its start, an argument goes on with a colon or is at its end. -/
theorem skipBlanks_of_argument (h : Argument grid (.word word :: ts) e)
    (hstart : StartsWith ts text rest) :
    (∃ text', skipBlanks text = ':' :: text') ∨ skipBlanks text = skipBlanks rest := by
  cases h with
  | cell => exact .inr hstart.skipBlanks_eq
  | range =>
    obtain ⟨text', htext, -⟩ := hstart.exists_of_symbol
    exact .inl ⟨text', htext⟩

theorem apart_of_argument (h : Argument grid (.word word :: ts) e)
    (hstart : StartsWith ts text rest) (hrest : Closes rest) :
    Apart text ∧ (skipBlanks text).head? ≠ some '(' := by
  rcases skipBlanks_of_argument h hstart with ⟨text', htext⟩ | htext
  · refine ⟨apart_cons htext (by decide), ?_⟩
    rw [htext]
    rintro ⟨⟩
  · refine ⟨hrest.apart.of_skipBlanks_eq htext, ?_⟩
    rw [htext]
    exact hrest.head?_ne (by decide) fun op => by cases op <;> decide

theorem yields_reference (h : Argument grid (.word word :: ts) e)
    (hstart : StartsWith ts text rest) (hrest : Closes rest) :
    Yields (reference grid word text).result? e rest := by
  cases h with
  | cell ha =>
    have htext : skipBlanks text = skipBlanks rest := hstart.skipBlanks_eq
    have hcolon : (skipBlanks text).head? ≠ some ':' := by
      rw [htext]
      exact hrest.head?_ne (by decide) fun op => by cases op <;> decide
    refine ⟨skipBlanks text, ?_, ?_⟩
    · rw [result?_reference_of_ne hcolon, ha]
      rfl
    · rw [htext]
      exact skipBlanks_skipBlanks _
  | @range _ word' a b ha hb =>
    obtain ⟨text', htext, hstart⟩ := hstart.exists_of_symbol
    obtain ⟨text'', htext', hstart⟩ := hstart.exists_of_cons
    have hrest'' : skipBlanks text'' = skipBlanks rest := hstart.skipBlanks_eq
    have hapart : Apart text'' := hrest.apart.of_skipBlanks_eq hrest''
    have hsplit : splitWord (skipBlanks text') = (word', text'') := by
      rw [htext']
      exact splitWord_append (isAlphanum_of_parseChars? hb).2 hapart
    refine ⟨text'', ?_, hrest''⟩
    rw [result?_reference_colon htext, lastCorner_eq_some_iff]
    exact ⟨a, b, ha, by rw [hsplit]; exact hb, rfl, by rw [hsplit]⟩

theorem exists_word_of_argument (h : Argument grid ts e) :
    ∃ word us a, ts = .word word :: us ∧ grid.parseChars? word = some a := by
  cases h with
  | cell ha => exact ⟨_, _, _, rfl, ha⟩
  | range ha _ => exact ⟨_, _, _, rfl, ha⟩

theorem yields_callArgument (h : Argument grid ts e)
    (hstart : StartsWith (ts ++ [.symbol ')']) text rest) :
    Yields (callArgument grid f text).result? (call f [e]) rest := by
  obtain ⟨word, us, a, rfl, ha⟩ := exists_word_of_argument h
  obtain ⟨mid, rest', hstart, hclose, hrest⟩ := hstart.exists_of_append_symbol
  obtain ⟨text', htext, hstart⟩ := hstart.exists_of_cons
  have hmid : Closes mid := closes_parenthesis hclose
  have hsplit : splitWord (skipBlanks text) = (word, text') := by
    rw [htext]
    exact splitWord_append (isAlphanum_of_parseChars? ha).2 (apart_of_argument h hstart hmid).1
  obtain ⟨mid', hread, hmid'⟩ := yields_reference h hstart hmid
  have hclose' : afterClosing? mid' = some rest' :=
    afterClosing?_eq_some_iff.mpr (hmid'.trans hclose)
  refine ⟨rest', ?_, hrest⟩
  rw [result?_callArgument, hsplit, hread, Option.bind_some, hclose', Option.map_some]

theorem result?_operand_of_word (hword : word ≠ [] ∧ ∀ c ∈ word, c.isAlphanum = true)
    (hhead : ∀ c ∈ word.head?, c.isDigit = false) (htext : skipBlanks text = word ++ text')
    (hapart : Apart text') :
    (operand grid text).result? = (wordOperand grid word text').result? := by
  obtain ⟨c, rest, rfl⟩ := List.exists_cons_of_ne_nil hword.1
  have hdigit : ¬c.isDigit = true := Bool.eq_false_iff.mp (hhead c rfl)
  have hsplit : splitWord (c :: (rest ++ text')) = (c :: rest, text') :=
    splitWord_append hword.2 hapart
  rw [List.cons_append] at htext
  rw [result?_operand_word htext hdigit (hword.2 c List.mem_cons_self), hsplit]

theorem yields_call (hname : word.map Char.toUpper = f.name.toList) (h : Argument grid ts e)
    (hstart : StartsWith (.word word :: .symbol '(' :: (ts ++ [.symbol ')'])) text rest) :
    Yields (operand grid text).result? (call f [e]) rest := by
  obtain ⟨text', htext, hstart⟩ := hstart.exists_of_cons
  obtain ⟨text'', hopen, hstart⟩ := hstart.exists_of_symbol
  have hapart : Apart text' := apart_cons hopen (by decide)
  obtain ⟨rest', hread, hrest⟩ := yields_callArgument h hstart
  refine ⟨rest', ?_, hrest⟩
  rw [result?_operand_of_word (isAlphanum_of_name hname) (head_of_name hname) htext hapart,
    result?_wordOperand_open hopen, ofNameChars?_eq_some_iff.mpr hname, Option.bind_some, hread]

theorem yields_argument (h : Argument grid ts e) (hstart : StartsWith ts text rest)
    (hrest : Closes rest) : Yields (operand grid text).result? e rest := by
  obtain ⟨word, us, a, rfl, ha⟩ := exists_word_of_argument h
  obtain ⟨text', htext, hstart⟩ := hstart.exists_of_cons
  obtain ⟨hapart, hopen⟩ := apart_of_argument h hstart hrest
  rw [result?_operand_of_word (isAlphanum_of_parseChars? ha) (head_of_parseChars? ha) htext hapart,
    result?_wordOperand_of_ne hopen]
  exact yields_reference h hstart hrest

theorem yields_number {digits : List Char} {x : Float} (hdigits : IsNumeral digits)
    (hx : readNumber? digits = some x) (hstart : StartsWith [.numeral digits] text rest)
    (hrest : Closes rest) : Yields (operand grid text).result? (number x) rest := by
  obtain ⟨text', htext, hstart⟩ := hstart.exists_of_cons
  have hrest' : skipBlanks text' = skipBlanks rest := hstart.skipBlanks_eq
  have hapart : Apart text' := hrest.apart.of_skipBlanks_eq hrest'
  obtain ⟨c, hc, hdigit⟩ := hdigits.head
  obtain ⟨ds, rfl⟩ := List.head?_eq_some_iff.mp hc
  have hsplit : splitNumber (c :: (ds ++ text')) = (c :: ds, text') :=
    splitNumber_append hdigits hapart
  have htext' : skipBlanks text = c :: (ds ++ text') := htext
  refine ⟨text', ?_, hrest'⟩
  rw [result?_operand_digit htext' hdigit, hsplit, hx, Option.map_some]

/-- The formula is read from the text as a phrase of this sort. A chain that has been read up to the
end of the phrase goes on from there as its links do. -/
def IsRead (grid : Grid) (text : List Char) (e : Formula) (rest : List Char) : Phrase → Prop
  | .expression => ChainEnds .multiplicative rest →
      (chain grid .additive text).result? = (links grid .additive e rest).result?
  | .term => (chain grid .multiplicative text).result? =
      (links grid .multiplicative e rest).result?
  | .operand => Yields (operand grid text).result? e rest

/-- An operand of a chain is read before a place where it cannot go on. -/
theorem yields_chainOperand (h : IsRead grid text e rest level.operandPhrase)
    (hend : level = .additive → ChainEnds .multiplicative rest) :
    Yields (chainOperand grid level text).result? e rest := by
  cases level with
  | additive =>
    refine ⟨skipBlanks rest, ?_, skipBlanks_skipBlanks _⟩
    rw [result?_chainOperand_additive]
    exact h.trans (result?_links_end (hend rfl))
  | multiplicative =>
    rw [result?_chainOperand_multiplicative]
    exact h

theorem isRead_phrase_iff : IsRead grid text e rest level.phrase ↔
    ((level = .additive → ChainEnds .multiplicative rest) →
      (chain grid level text).result? = (links grid level e rest).result?) := by
  cases level with
  | additive => exact ⟨fun h hend => h (hend rfl), fun h hend => h fun _ => hend⟩
  | multiplicative => exact ⟨fun h _ => h, fun h => h nofun⟩

theorem isRead_single (h : IsRead grid text e rest level.operandPhrase) :
    IsRead grid text e rest level.phrase := by
  rw [isRead_phrase_iff]
  intro hend
  obtain ⟨rest', hread, hrest⟩ := yields_chainOperand h hend
  rw [result?_chain, hread, Option.bind_some]
  exact result?_links_congr hrest

/-- The tokens are read as the formula wherever they stand. -/
def AreRead (grid : Grid) (ts : List Token) (e : Formula) (place : Phrase) : Prop :=
  ∀ text rest, StartsWith ts text rest → Closes rest → IsRead grid text e rest place

theorem areRead_binary (hop : op.precedence = level) (hleft : AreRead grid ts left level.phrase)
    (hright : AreRead grid us right level.operandPhrase) :
    AreRead grid (ts ++ .symbol op.symbol :: us) (binary op left right) level.phrase := by
  intro text rest hstart hrest
  obtain ⟨mid, hstart, hnext⟩ := hstart.exists_of_append
  obtain ⟨text', hmid, hnext⟩ := hnext.exists_of_symbol
  have hleft := hleft text mid hstart (closes_operator hmid)
  rw [isRead_phrase_iff] at hleft ⊢
  intro hend
  have hmidEnd : level = .additive → ChainEnds .multiplicative mid := fun hlevel =>
    chainEnds_operator hmid ((hop.trans hlevel).trans_ne nofun)
  have hsymbol : operatorAt? level op.symbol = some op := operatorAt?_eq_some_iff.mpr ⟨rfl, hop⟩
  obtain ⟨rest', hread, hrest⟩ := yields_chainOperand (hright text' rest hnext hrest) hend
  rw [hleft hmidEnd, result?_links_operator hmid hsymbol, hread, Option.bind_some]
  exact result?_links_congr hrest

theorem yields_parentheses {inner : List Char} (hopen : skipBlanks text = '(' :: inner)
    (hclose : skipBlanks mid = ')' :: text') (hrest : skipBlanks text' = skipBlanks rest)
    (h : IsRead grid inner e mid .expression) : Yields (operand grid text).result? e rest := by
  have hinner : (chain grid .additive inner).result? = some (e, skipBlanks mid) :=
    (h (chainEnds_parenthesis hclose)).trans (result?_links_end (chainEnds_parenthesis hclose))
  have hclose' : afterClosing? (skipBlanks mid) = some text' :=
    afterClosing?_eq_some_iff.mpr ((skipBlanks_skipBlanks _).trans hclose)
  refine ⟨text', ?_, hrest⟩
  rw [result?_operand_open hopen, hinner, Option.bind_some, hclose', Option.map_some]

/-- **Whatever is derived is read.** -/
theorem areRead_of_derives (h : Derives grid place ts e) : AreRead grid ts e place := by
  induction h with
  | term _ ih =>
    intro text rest hstart hrest
    have hterm : IsRead grid text _ rest Precedence.additive.operandPhrase :=
      ih text rest hstart hrest
    exact isRead_single hterm
  | sum hop _ _ ihLeft ihRight => exact areRead_binary hop ihLeft ihRight
  | operand _ ih =>
    intro text rest hstart hrest
    have hoperand : IsRead grid text _ rest Precedence.multiplicative.operandPhrase :=
      ih text rest hstart hrest
    exact isRead_single hoperand
  | product hop _ _ ihLeft ihRight => exact areRead_binary hop ihLeft ihRight
  | number hdigits hx =>
    intro text rest hstart hrest
    exact yields_number hdigits hx hstart hrest
  | call hname h =>
    intro text rest hstart _
    exact yields_call hname h hstart
  | argument h =>
    intro text rest hstart hrest
    exact yields_argument h hstart hrest
  | parentheses _ ih =>
    intro text rest hstart _
    obtain ⟨inner, hopen, hstart⟩ := hstart.exists_of_symbol
    obtain ⟨mid, text', hstart, hclose, hrest⟩ := hstart.exists_of_append_symbol
    exact yields_parentheses hopen hclose hrest (ih inner mid hstart (closes_parenthesis hclose))

/-! ### Whole texts -/

theorem parseBody_eq_ok_iff {body : List Char} : parseBody grid body = .ok e ↔
    ∃ rest, (chain grid .additive body).result? = some (e, rest) ∧ skipBlanks rest = [] := by
  simp only [parseBody]
  split
  · rename_i h
    rw [h]
    constructor
    · rintro ⟨⟩
    · rintro ⟨_, ⟨⟩, -⟩
  · rename_i formula rest _ h
    rw [h, Reading.result?_done]
    split
    · rename_i hrest
      constructor
      · rintro ⟨⟩
        exact ⟨rest, rfl, hrest⟩
      · rintro ⟨_, heq, -⟩
        cases heq
        rfl
    · rename_i hrest
      constructor
      · rintro ⟨⟩
      · rintro ⟨_, heq, hnil⟩
        cases heq
        exact absurd hnil hrest

/-- **The body of a formula** is read as what the grammar derives. -/
theorem parseBody_eq_ok_iff_derives {body : List Char} : parseBody grid body = .ok e ↔
    ∃ ts, Written ts body ∧ Derives grid .expression ts e := by
  rw [parseBody_eq_ok_iff]
  constructor
  · rintro ⟨rest, hread, hrest⟩
    obtain ⟨ts, hderives, hstart⟩ := (spells_of_readers grid).1 .additive body e rest hread
    exact ⟨ts, hstart.written hrest, hderives⟩
  · rintro ⟨ts, hwritten, hderives⟩
    have hclose : Closes [] := nofun
    have hend : ∀ level, ChainEnds level [] := nofun
    have hread := areRead_of_derives hderives body []
      (startsWith_of_written hwritten hderives.solid) hclose (hend _)
    exact ⟨[], hread.trans (result?_links_end (hend _)), rfl⟩

/-- **The texts that are formulas**, and of which tree. -/
theorem parse_eq_ok_iff {text : String} : parse grid text = .ok e ↔
    ∃ body ts, text.toList = '=' :: body ∧ Written ts body ∧ Derives grid .expression ts e := by
  unfold parse
  split
  · rename_i body htext
    rw [parseBody_eq_ok_iff_derives]
    constructor
    · rintro ⟨ts, hwritten, hderives⟩
      obtain ⟨blanks, blanks', hblanks, hblanks', hbody⟩ := exists_blanks_trim body
      have hboth := (hwritten.blanks_append hblanks).append (.nil hblanks')
      rw [List.append_nil, ← hbody] at hboth
      exact ⟨body, ts, htext, hboth, hderives⟩
    · rintro ⟨_, ts, heq, hwritten, hderives⟩
      cases htext.symm.trans heq
      exact ⟨ts, hwritten.trim hderives.solid, hderives⟩
  · rename_i htext
    refine iff_of_false nofun ?_
    rintro ⟨body, _, heq, -⟩
    exact htext body heq

end Formula

end Worksheet
