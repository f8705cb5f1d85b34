import Worksheet.Proofs.Formula.Bytewise
import Worksheet.Proofs.Formula.Stops

/-!
# Reading at a cursor is safe

The readers at a cursor do what the readers of characters do (`Source.follows_chain`): if the
cursor is where the rest of the text starts, they come to the same end, with the cursor where the rest
starts that the others leave, and in between it has been at boundaries only. The proof recurs as the
readers of characters do, whose recursion is known to end. So the readers at a cursor end as well,
although nothing in their definition says so, and what carries the argument is the place of the cursor:
a cursor inside of a character would not be where any rest starts.

All that is known of the readers of characters is then known of the others: where they stop, for which
causes, and that an operand is not read from nothing.

## Main definitions

* `Source.Follows` — the same comes of reading at a cursor and of reading the rest

## Main results

* `Source.follows_chain` and its three companions — the readers agree
* `Source.parse_safe` — the cursor is safe all the while
-/

namespace Worksheet

namespace Source

open CursorReader

variable {source : Source} {cursor cursor' : Cursor} {rest text : List Char} {c : Char}

/-! ### Agreement with the readers of characters -/

/-- What comes of reading at a cursor is the same as what comes of reading the rest of the text. -/
inductive Follows (source : Source) {α : Type} {bound : Nat} :
    Reading α bound → Option (Except SyntaxError α × Cursor) → Prop
  | done {value : α} {rest : List Char} {shorter : rest.length < bound} {cursor : Cursor}
      (h : cursor.At source.body rest) :
      Follows source (.done value rest shorter) (some (.ok value, cursor))
  | stuck {fault : SyntaxFault} {rest : List Char} {cursor : Cursor}
      (h : cursor.At source.body rest) :
      Follows source (.stuck fault rest) (some (.error ⟨fault, cursor.position⟩, cursor))

namespace Follows

variable {α : Type} {m n : Nat} {reading : Reading α m}
  {result : Option (Except SyntaxError α × Cursor)}

theorem weaken (h : Follows source reading result) (hmn : m ≤ n) :
    Follows source (reading.weaken hmn) result := by
  cases h with
  | done h => exact .done h
  | stuck h => exact .stuck h

/-- A reader goes on with what another one has read, and is stuck where the other one is. -/
theorem bind {β : Type} {outer : Reading β n} {reader : CursorReader α}
    {next : α → CursorReader β} (h : Follows source reading (outcome reader cursor))
    (hstuck : ∀ fault rest, reading = .stuck fault rest → outer = .stuck fault rest)
    (hdone : ∀ value rest shorter cursor', reading = .done value rest shorter →
      cursor'.At source.body rest → Follows source outer (outcome (next value) cursor')) :
    Follows source outer (outcome (reader >>= next) cursor) := by
  generalize hresult : outcome reader cursor = result at h
  cases h with
  | done hat =>
    rw [outcome_bind_ok hresult]
    exact hdone _ _ _ _ rfl hat
  | stuck hat =>
    rw [outcome_bind_error hresult, hstuck _ _ rfl]
    exact .stuck hat

end Follows

variable {first name : List Char} {level : Precedence} {left : Formula}

theorem follows_lastCorner (h : cursor.At source.body text) : Follows source
    (Formula.lastCorner source.grid first text) (outcome (source.lastCorner first) cursor) := by
  obtain ⟨cursor₁, hskip, hat₁⟩ := exists_outcome_skip h
  obtain ⟨cursor₂, hword, hat₂⟩ := exists_outcome_word hat₁
  rw [lastCorner, outcome_bind_ok hskip, outcome_bind_ok hword]
  simp only [Formula.lastCorner]
  cases source.grid.parseChars? first with
  | none => exact .stuck hat₂
  | some a =>
    cases source.grid.parseChars? (splitWord (skipBlanks text)).1 with
    | none => exact .stuck hat₂
    | some b => exact .done hat₂

/-- Where a colon is at the cursor, a rectangle is read. -/
theorem follows_reference_colon (h : cursor.At source.body (':' :: rest))
    (htext : skipBlanks text = ':' :: rest) :
    Follows source (Formula.reference source.grid name text)
      (outcome (do advance 1; source.lastCorner name) cursor) := by
  rw [outcome_bind_ok (outcome_advance _ _)]
  unfold Formula.reference
  split
  · rename_i rest' htext'
    cases htext.symm.trans htext'
    exact (follows_lastCorner (h.advance_one (by decide))).weaken _
  · rename_i hne
    exact absurd htext (hne rest)

/-- Otherwise the word names a cell. -/
theorem follows_reference_cell (h : cursor.At source.body (skipBlanks text))
    (hne : ∀ rest, skipBlanks text ≠ ':' :: rest) :
    Follows source (Formula.reference source.grid name text)
      (outcome (source.cell name) cursor) := by
  unfold Formula.reference cell
  split
  · rename_i rest htext
    exact absurd htext (hne rest)
  · cases source.grid.parseChars? name with
    | none => exact .stuck h
    | some a => exact .done h

theorem follows_argument (h : cursor.At source.body text) : Follows source
    (Formula.reference source.grid (splitWord text).1 (splitWord text).2)
    (outcome source.argument cursor) := by
  obtain ⟨cursor₁, hword, hat₁⟩ := exists_outcome_word h
  obtain ⟨cursor₂, hskip, hat₂⟩ := exists_outcome_skip hat₁
  rw [argument, outcome_bind_ok hword, outcome_bind_ok hskip, outcome_bind_ok (outcome_peek hat₂)]
  by_cases hcolon : ∃ rest, skipBlanks (splitWord text).2 = ':' :: rest
  · rw [if_pos ((head?_map_firstByte_eq_iff (by decide)).mpr hcolon)]
    obtain ⟨rest, hrest⟩ := hcolon
    exact follows_reference_colon (hrest ▸ hat₂) hrest
  · rw [if_neg (mt (head?_map_firstByte_eq_iff (by decide)).mp hcolon)]
    exact follows_reference_cell hat₂ (not_exists.mp hcolon)

theorem length_lt_of_closing {bound : Nat} (h : skipBlanks text = ')' :: rest)
    (hbound : text.length < bound) : rest.length < bound :=
  Nat.lt_trans (length_lt_of_skipBlanks h) hbound

/-- What the readers of characters make of a text where a parenthesis has to be closed. -/
def closed (formula : Formula) (fault : SyntaxFault) (text : List Char) {bound : Nat}
    (hbound : text.length < bound) : Reading Formula bound :=
  match h : skipBlanks text with
  | ')' :: rest => .done formula rest (length_lt_of_closing h hbound)
  | rest => .stuck fault rest

theorem follows_closing {fault : SyntaxFault} {formula : Formula} {bound : Nat}
    (h : cursor.At source.body text) (hbound : text.length < bound) :
    Follows source (closed formula fault text hbound)
      (outcome (source.closing formula fault) cursor) := by
  obtain ⟨cursor', hskip, hat⟩ := exists_outcome_skip h
  rw [closing, outcome_bind_ok hskip, outcome_bind_ok (outcome_peek hat)]
  unfold closed
  split
  · rename_i rest htext
    rw [if_pos ((head?_map_firstByte_eq_iff (by decide)).mpr ⟨rest, htext⟩),
      outcome_bind_ok (outcome_advance _ _)]
    rw [htext] at hat
    exact .done (hat.advance_one (by decide))
  · rename_i hne
    rw [if_neg (mt (head?_map_firstByte_eq_iff (by decide)).mp (not_exists.mpr hne))]
    exact .stuck hat

theorem follows_call {f : Aggregate} (hname : Aggregate.ofNameChars? name = some f)
    (h : cursor.At source.body ('(' :: text)) :
    Follows source (Formula.callArgument source.grid f text)
      (outcome (source.call name) cursor) := by
  obtain ⟨cursor₁, hskip, hat₁⟩ := exists_outcome_skip (h.advance_one (by decide))
  rw [call, hname]
  simp only [Formula.callArgument]
  rw [outcome_bind_ok (outcome_advance _ _), outcome_bind_ok hskip]
  refine (follows_argument hat₁).bind (fun fault rest hread => by rw [hread])
    fun argument rest hshorter cursor₂ hread hat₂ => ?_
  rw [hread]
  refine follows_closing hat₂ (Nat.lt_of_lt_of_le hshorter (Nat.succ_le_succ ?_))
  exact Nat.le_trans (length_splitWord_le _) (length_skipBlanks_le text)

theorem follows_wordOperand (h : cursor.At source.body text) : Follows source
    (Formula.wordOperand source.grid name text) (outcome (source.wordOperand name) cursor) := by
  obtain ⟨cursor', hskip, hat⟩ := exists_outcome_skip h
  have hshows : ∀ d, d.toNat < 128 →
      ((skipBlanks text).head?.map firstByte = some d ↔ ∃ rest, skipBlanks text = d :: rest) :=
    fun _ hd => head?_map_firstByte_eq_iff hd
  rw [wordOperand, outcome_bind_ok hskip, outcome_bind_ok (outcome_peek hat)]
  unfold Formula.wordOperand
  split
  · rename_i rest htext
    rw [(hshows '(' (by decide)).mpr ⟨rest, htext⟩]
    rw [htext] at hat
    cases hname : Aggregate.ofNameChars? name with
    | some f => exact (follows_call hname hat).weaken _
    | none =>
      dsimp only
      rw [call, hname]
      exact .stuck hat
  · rename_i hopen
    split
    · rename_i heq
      exact absurd ((hshows '(' (by decide)).mp heq) (not_exists.mpr hopen)
    · rename_i heq
      obtain ⟨rest, htext⟩ := (hshows ':' (by decide)).mp heq
      exact follows_reference_colon (htext ▸ hat) htext
    · rename_i hcolon
      refine follows_reference_cell hat fun rest htext => ?_
      exact hcolon ((hshows ':' (by decide)).mpr ⟨rest, htext⟩)

theorem follows_numberOperand (h : cursor.At source.body (c :: text)) (hc : c.isDigit = true) :
    Follows source (Formula.numberOperand c text hc) (outcome source.number cursor) := by
  obtain ⟨cursor', x, hx, hnumber, hat⟩ := exists_outcome_number h hc
  rw [hnumber]
  simp only [Formula.numberOperand]
  split
  · rename_i y hy
    cases hx.symm.trans hy
    exact .done hat
  · rename_i hnone
    cases hx.symm.trans hnone

/-! ### Agreement on expressions -/

open Formula (operandRank operandRank_le)

mutual

/-- **Reading a chain at a cursor** follows reading the rest of the text, by the recursion of the readers
of characters. That they come to an end is what makes the other ones come to an end. -/
theorem follows_chain (level : Precedence) (text : List Char) {cursor : Cursor}
    (h : cursor.At source.body text) :
    Follows source (Formula.chain source.grid level text)
      (outcome (source.chain level) cursor) := by
  rw [Formula.chain, chain]
  refine (follows_chainOperand level text h).bind (fun fault rest hread => by rw [hread])
    fun left rest hshorter cursor' hread hat => ?_
  rw [hread]
  exact (follows_links level left rest hat).weaken _
termination_by 5 * text.length + operandRank level + 1
decreasing_by all_goals omega

theorem follows_chainOperand (level : Precedence) (text : List Char) {cursor : Cursor}
    (h : cursor.At source.body text) : Follows source (Formula.chainOperand source.grid level text)
      (outcome (source.chainOperand level) cursor) := by
  cases level with
  | additive =>
    rw [Formula.chainOperand, chainOperand]
    exact follows_chain .multiplicative text h
  | multiplicative =>
    rw [Formula.chainOperand, chainOperand]
    exact follows_operand text h
termination_by 5 * text.length + operandRank level
decreasing_by all_goals simp [operandRank]

theorem follows_links (level : Precedence) (left : Formula) (text : List Char) {cursor : Cursor}
    (h : cursor.At source.body text) : Follows source (Formula.links source.grid level left text)
      (outcome (source.links level left) cursor) := by
  obtain ⟨cursor₁, hskip, hat₁⟩ := exists_outcome_skip h
  rw [Formula.links, links, outcome_bind_ok hskip]
  split
  · rename_i htext
    rw [htext] at hat₁
    rw [outcome_bind_ok (outcome_peek hat₁)]
    exact .done hat₁
  · rename_i c rest htext
    have hrest : rest.length < text.length := length_lt_of_skipBlanks htext
    rw [htext] at hat₁
    rw [outcome_bind_ok (outcome_peek hat₁), List.head?_cons, Option.map_some, Option.bind_some,
      operatorAt?_firstByte]
    cases hop : Formula.operatorAt? level c with
    | none => exact .done hat₁
    | some op =>
      have hat₂ := hat₁.advance_one (toNat_lt_of_operatorAt? hop)
      dsimp only
      rw [outcome_bind_ok (outcome_advance _ _)]
      refine (follows_chainOperand level rest hat₂).bind (fun fault rest' hread => by rw [hread])
        fun right rest' hshorter cursor' hread hat => ?_
      rw [hread]
      exact (follows_links level (.binary op left right) rest' hat).weaken _
termination_by 5 * text.length
decreasing_by all_goals have := operandRank_le level; omega

theorem follows_operand (text : List Char) {cursor : Cursor} (h : cursor.At source.body text) :
    Follows source (Formula.operand source.grid text) (outcome source.operand cursor) := by
  obtain ⟨cursor₁, hskip, hat₁⟩ := exists_outcome_skip h
  rw [Formula.operand, operand, outcome_bind_ok hskip]
  split
  · rename_i htext
    rw [htext] at hat₁
    rw [outcome_bind_ok (outcome_peek hat₁)]
    exact .stuck hat₁
  · rename_i c rest htext
    have hrest : rest.length < text.length := length_lt_of_skipBlanks htext
    rw [htext] at hat₁
    rw [outcome_bind_ok (outcome_peek hat₁), List.head?_cons, Option.map_some]
    dsimp only
    rw [isDigit_firstByte, isAlpha_firstByte]
    by_cases hdigit : c.isDigit = true
    · rw [dif_pos hdigit, if_pos hdigit]
      exact (follows_numberOperand hat₁ hdigit).weaken _
    · have hletter : c.isAlphanum = c.isAlpha := by
        rw [Char.isAlphanum, Bool.eq_false_iff.mpr hdigit, Bool.or_false]
      rw [dif_neg hdigit, if_neg hdigit]
      by_cases hword : c.isAlpha = true
      · obtain ⟨cursor₂, houtcome, hat₂⟩ := exists_outcome_word hat₁
        rw [dif_pos (hletter.trans hword), if_pos hword, outcome_bind_ok houtcome]
        exact (follows_wordOperand hat₂).weaken _
      · rw [dif_neg (hletter ▸ hword), if_neg hword]
        by_cases hopen : c = '('
        · rw [if_pos hopen, if_pos ((firstByte_eq_iff (by decide)).mpr hopen),
            outcome_bind_ok (outcome_advance _ _)]
          have hat₂ := hat₁.advance_one (hopen ▸ by decide)
          refine (follows_chain .additive rest hat₂).bind (fun fault rest' hread => by rw [hread])
            fun inner rest' hshorter cursor₃ hread hat₃ => ?_
          rw [hread]
          exact follows_closing hat₃ (by omega)
        · rw [if_neg hopen, if_neg (mt (firstByte_eq_iff (by decide)).mp hopen)]
          exact .stuck hat₁
termination_by 5 * text.length
decreasing_by all_goals have := operandRank_le .additive; omega

end

/-! ### Whole texts -/

/-- The cursor is after the text if nothing is left. -/
theorem utf8ByteSize_le_position_iff {body : String} (h : cursor.At body rest) :
    body.utf8ByteSize ≤ cursor.position ↔ rest = [] := by
  obtain ⟨before, hbody, hposition⟩ := h.split
  rw [← String.utf8Len_toList, utf8Len_eq_byteLength, hbody, hposition, byteLength_append]
  constructor
  · intro hle
    by_contra hne
    have hpos := byteLength_pos hne
    omega
  · rintro rfl
    exact Nat.le_refl _

/-- **The two ways of reading a body agree**, and the cursor stops where the error is. -/
theorem exists_outcome_expression (source : Source) : ∃ cursor,
    outcome source.expression .start =
        some (Formula.parseBody source.grid source.body.toList, cursor) ∧
      cursor.Safe source.body ∧
      ∀ e, Formula.parseBody source.grid source.body.toList = .error e →
        e.position = cursor.position := by
  have hchain :
      Follows source (Formula.chain source.grid .additive source.body.toList) _ :=
    follows_chain .additive source.body.toList (Cursor.at_start source.body)
  generalize hresult : outcome (source.chain .additive) .start = result at hchain
  simp only [Formula.parseBody, expression]
  split
  · rename_i fault rest hread
    rw [hread] at hchain
    cases hchain with
    | @stuck _ _ cursor hat =>
      refine ⟨cursor, ?_, hat.safe, ?_⟩
      · rw [outcome_bind_error hresult, hat.position_eq]
      · rintro _ ⟨⟩
        exact hat.position_eq.symm
  · rename_i formula rest _ hread
    rw [hread] at hchain
    cases hchain with
    | done hat =>
      obtain ⟨cursor, hskip, hat'⟩ := exists_outcome_skip hat
      have hend := utf8ByteSize_le_position_iff hat'
      rw [outcome_bind_ok hresult, outcome_bind_ok hskip, outcome_bind_ok (outcome_position _)]
      cases hrest : skipBlanks rest with
      | nil =>
        refine ⟨cursor, ?_, hat'.safe, nofun⟩
        rw [if_pos (hend.mpr hrest)]
        exact outcome_pure _ _
      | cons c trailing =>
        have hne : ¬skipBlanks rest = [] := hrest ▸ List.cons_ne_nil _ _
        have hposition := hat'.position_eq
        rw [hrest] at hposition
        refine ⟨cursor, ?_, hat'.safe, ?_⟩
        · rw [if_neg (mt hend.mp hne), outcome_refuse, hposition]
        · rintro _ ⟨⟩
          exact hposition.symm

theorem exists_parse_eq (grid : Grid) (text : String) : ∃ cursor,
    parse grid text = some (Formula.parse grid text, cursor) ∧ cursor.Safe (bodyOf text) ∧
      ∀ e, Formula.parse grid text = .error e → e.position = cursor.position := by
  by_cases hmarker : ∃ body, text.toList = '=' :: body
  · obtain ⟨body, htext⟩ := hmarker
    have hbody : (bodyOf text).toList = trim body := by
      rw [bodyOf, String.toList_ofList, htext, List.tail_cons]
    have hexpression := exists_outcome_expression ⟨bodyOf text, grid⟩
    rw [hbody] at hexpression
    simpa only [parse, Formula.parse, htext] using hexpression
  · have hparse : parse grid text = some (.error ⟨.missingMarker, 0⟩, .start) := by
      unfold parse
      split
      · rename_i heq
        exact absurd ⟨_, heq⟩ hmarker
      · rfl
    have hformula : Formula.parse grid text = .error ⟨.missingMarker, 0⟩ := by
      unfold Formula.parse
      split
      · rename_i heq
        exact absurd ⟨_, heq⟩ hmarker
      · rfl
    refine ⟨.start, by rw [hparse, hformula], (Cursor.at_start _).safe, fun e he => ?_⟩
    cases hformula.symm.trans he
    rfl

/-- **An operand takes up bytes.** -/
theorem position_lt_of_operand {formula : Formula} (h : cursor.Safe source.body)
    (hread : outcome source.operand cursor = some (.ok formula, cursor')) :
    cursor.position < cursor'.position := by
  obtain ⟨text, hat⟩ := h.exists_at
  have hfollows : Follows source (Formula.operand source.grid text) _ :=
    follows_operand text hat
  rw [hread] at hfollows
  generalize Formula.operand source.grid text = reading at hfollows
  cases hfollows with
  | @done _ rest shorter _ hat' => exact hat.position_lt hat' shorter

/-- Only the one cause has this message. -/
theorem message_ne_of_met {fault : SyntaxFault} (h : fault.Met) :
    fault.message ≠ "Invalid number" := by
  have hprefix : ∀ {start word : String}, 9 ≤ start.toList.length →
      start.toList.take 9 ≠ "Invalid number".toList.take 9 → start ++ word ≠ "Invalid number" := by
    intro start word hlength hne heq
    rw [← heq, String.toList_append, List.take_append_of_le_length hlength] at hne
    exact hne rfl
  cases fault with
  | invalidNumber => exact absurd rfl h.ne_invalidNumber
  | invalidReference word => exact hprefix (by decide) (by decide)
  | unknownFunction word => exact hprefix (by decide) (by decide)
  | _ => decide

/-- **Reading at a cursor is safe**, for every text and every grid. It comes to an end, without cutting
the text inside of a character, and with the formula or the error of the readers of characters. All the
while the cursor is never moved back, never after the body, and never inside of one of its characters.
The position in an error is therefore a place in the body as well; and no text is refused for a number
in it. Wherever in the body an operand is read, at least one byte is. -/
theorem parse_safe (grid : Grid) (text : String) :
    (∃ cursor, parse grid text = some (Formula.parse grid text, cursor) ∧
      cursor.Safe (bodyOf text) ∧ ∀ p ∈ cursor.places, p ≤ (bodyOf text).utf8ByteSize) ∧
    (∀ e, Formula.parse grid text = .error e → e.position ≤ (bodyOf text).utf8ByteSize ∧
      String.Pos.Raw.IsValid (bodyOf text) ⟨e.position⟩ ∧ e.fault.message ≠ "Invalid number") ∧
    ∀ cursor cursor' formula, cursor.Safe (bodyOf text) →
      outcome (operand ⟨bodyOf text, grid⟩) cursor = some (.ok formula, cursor') →
        cursor.position + 1 ≤ cursor'.position := by
  obtain ⟨cursor, hparse, hsafe, hposition⟩ := exists_parse_eq grid text
  refine ⟨⟨cursor, hparse, hsafe, hsafe.le_utf8ByteSize⟩, fun e he => ?_,
    fun _ _ _ hstart hread => position_lt_of_operand hstart hread⟩
  have hmem : e.position ∈ cursor.places := hposition e he ▸ List.mem_cons_self
  exact ⟨hsafe.le_utf8ByteSize _ hmem, hsafe.onBoundary _ hmem,
    message_ne_of_met (Formula.met_of_parse_eq_error he)⟩

end Source

end Worksheet
