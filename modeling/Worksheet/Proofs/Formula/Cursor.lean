import Worksheet.Proofs.Formula.Readers
import Worksheet.Proofs.Formula.Scanning

/-!
# Reading at a cursor

A text can be read without being taken apart. A cursor stands at a place in it, given by the number of
bytes before that place, and is moved on as the text is read. This is cheaper than a list of characters
but has two dangers. A place inside of a character is none at which the text can be cut; and a byte that
is looked at need not be a character.

The second one is harmless: a byte that is a character by itself begins no other character
(`le_firstByte`), so that letters, digits and symbols are told from the byte at the cursor alone
(`apply_firstByte`). The first one is met by an invariant (`Cursor.Safe`). The cursor keeps a trail of
the places where it has been, and all of them have to be boundaries between characters, none before an
earlier one. Moving the cursor over a whole character keeps it so (`Cursor.At.advance`).

A reader is a computation on the cursor that may refuse the text and may fail to have a result
(`CursorReader`). It has none where it cuts the text at a place that is no boundary, and it has none if
it does not come to an end. Between two safe places the text can always be cut (`outcome_slice`).

## Main definitions

* `firstByte` — the byte that a character starts with
* `Cursor`, `Cursor.Safe`, `Cursor.At` — places in a text
* `CursorReader` — computations on a cursor, and their single steps

## Main results

* `getElem?_toByteArray`, `get?_eq`, `extract_eq` — what is found at the start of the rest of a text
* `Cursor.At.advance` — the invariant is kept
* `outcome_peek`, `outcome_slice` — what the steps give at a safe cursor
-/

namespace Worksheet

variable {body : String} {before middle rest text : List Char} {c d : Char} {level : Precedence}

/-! ### Bytes -/

/-- The first byte of a character, as the character with that number. -/
def firstByte (c : Char) : Char :=
  Char.ofUInt8 ((String.utf8EncodeChar c).head String.utf8EncodeChar_ne_nil)

theorem toNat_firstByte (c : Char) : (firstByte c).toNat =
    ((String.utf8EncodeChar c).head String.utf8EncodeChar_ne_nil).toNat :=
  UInt8.toNat_toUInt32 _

/-- A character of one byte is this byte. -/
theorem firstByte_of_lt (h : c.toNat < 128) : firstByte c = c := by
  have hencode : String.utf8EncodeChar c = [UInt8.ofNat c.toNat] := if_pos (Nat.le_of_lt_succ h)
  refine Char.toNat_inj.mp ?_
  simp only [toNat_firstByte, hencode, List.head_cons, UInt8.toNat_ofNat']
  omega

/-- A character of more than one byte starts with a byte that is no character by itself. -/
theorem le_firstByte (h : 128 ≤ c.toNat) : 128 ≤ (firstByte c).toNat := by
  have hmany : ¬c.val.toNat ≤ 127 := Nat.not_le.mpr h
  rw [toNat_firstByte]
  simp only [String.utf8EncodeChar, if_neg hmany]
  split
  · simp only [List.head_cons, UInt8.toNat_ofNat']
    omega
  · split
    · simp only [List.head_cons, UInt8.toNat_ofNat']
      omega
    · simp only [List.head_cons, UInt8.toNat_ofNat']
      omega

theorem utf8Size_eq_one (h : c.toNat < 128) : c.utf8Size = 1 :=
  Char.utf8Size_eq_one_iff.mpr (UInt32.le_iff_toNat_le.mpr (Nat.le_of_lt_succ h))

/-- What is the same for all characters of more than one byte can be told from the first byte. -/
theorem apply_firstByte {α : Type} {f : Char → α} {default : α}
    (hf : ∀ c, 128 ≤ c.toNat → f c = default) (c : Char) : f (firstByte c) = f c := by
  rcases Nat.lt_or_ge c.toNat 128 with hlt | hge
  · rw [firstByte_of_lt hlt]
  · rw [hf _ (le_firstByte hge), hf _ hge]

/-! ### What the first byte tells -/

theorem isAlphanum_of_le (h : 128 ≤ c.toNat) : c.isAlphanum = false := by
  rw [← Bool.not_eq_true]
  intro halphanum
  have := toNat_of_isAlphanum halphanum
  omega

theorem isAlphanum_firstByte (c : Char) : (firstByte c).isAlphanum = c.isAlphanum :=
  apply_firstByte (fun _ => isAlphanum_of_le) c

theorem isDigit_firstByte (c : Char) : (firstByte c).isDigit = c.isDigit :=
  apply_firstByte (fun _ h => isDigit_eq_false_of_isAlphanum_eq_false (isAlphanum_of_le h)) c

theorem firstByte_eq_iff (hd : d.toNat < 128) : firstByte c = d ↔ c = d := by
  rcases Nat.lt_or_ge c.toNat 128 with hlt | hge
  · rw [firstByte_of_lt hlt]
  · have hbyte := le_firstByte hge
    constructor
    · rintro rfl
      omega
    · rintro rfl
      omega

theorem isAlpha_of_le (h : 128 ≤ c.toNat) : c.isAlpha = false :=
  (Bool.or_eq_false_iff.mp (isAlphanum_of_le h)).1

theorem isAlpha_firstByte (c : Char) : (firstByte c).isAlpha = c.isAlpha :=
  apply_firstByte (fun _ => isAlpha_of_le) c

theorem operatorAt?_of_le (h : 128 ≤ c.toNat) : Formula.operatorAt? level c = none := by
  rw [Option.eq_none_iff_forall_not_mem]
  intro op hop
  obtain ⟨rfl, -⟩ := Formula.operatorAt?_eq_some_iff.mp hop
  cases op <;> exact absurd h (by decide)

/-- An operator can be told from the first byte. -/
theorem operatorAt?_firstByte (c : Char) :
    Formula.operatorAt? level (firstByte c) = Formula.operatorAt? level c :=
  apply_firstByte (fun _ => operatorAt?_of_le) c

theorem toNat_lt_of_operatorAt? {op : Operator} (h : Formula.operatorAt? level c = some op) :
    c.toNat < 128 := by
  refine Nat.lt_of_not_le fun hle => ?_
  cases (operatorAt?_of_le hle).symm.trans h

/-- The character that is expected is there. -/
theorem head?_map_firstByte_eq_iff (hd : d.toNat < 128) :
    text.head?.map firstByte = some d ↔ ∃ rest, text = d :: rest := by
  cases text with
  | nil => exact iff_of_false nofun nofun
  | cons c rest =>
    rw [List.head?_cons, Option.map_some, Option.some.injEq, firstByte_eq_iff hd]
    constructor
    · rintro rfl
      exact ⟨rest, rfl⟩
    · rintro ⟨_, ⟨⟩⟩
      rfl

/-! ### Places in a text -/

/-- The bytes of a text are counted by its length in bytes. -/
theorem length_flatMap_utf8EncodeChar (text : List Char) :
    (text.flatMap String.utf8EncodeChar).length = byteLength text := by
  induction text with
  | nil => rfl
  | cons c text ih =>
    rw [List.flatMap_cons, List.length_append, String.length_utf8EncodeChar, ih, byteLength_cons]

theorem byteLength_pos (h : text ≠ []) : 0 < byteLength text := by
  obtain ⟨c, rest, rfl⟩ := List.exists_cons_of_ne_nil h
  exact Nat.add_pos_left c.utf8Size_pos _

theorem utf8Len_eq_byteLength (text : List Char) : String.utf8Len text = byteLength text := by
  induction text with
  | nil => rfl
  | cons c text ih => rw [String.utf8Len_cons, ih, byteLength_cons, Nat.add_comm]

/-- The byte at the start of the rest of a text. -/
theorem getElem?_toByteArray (h : body.toList = before ++ rest) :
    body.toByteArray.data[byteLength before]?.map Char.ofUInt8 = rest.head?.map firstByte := by
  rw [← String.ofList_toList (s := body), h, String.toByteArray_ofList, List.utf8Encode,
    List.data_toByteArray, List.getElem?_toArray, List.flatMap_append,
    List.getElem?_append_right (length_flatMap_utf8EncodeChar before).le,
    length_flatMap_utf8EncodeChar, Nat.sub_self]
  cases rest with
  | nil => rfl
  | cons c rest =>
    rw [List.flatMap_cons, List.getElem?_append_left
      (List.length_pos_iff.mpr String.utf8EncodeChar_ne_nil), ← List.head?_eq_getElem?,
      List.head?_eq_some_head String.utf8EncodeChar_ne_nil]
    rfl

/-- The character at the start of the rest of a text. -/
theorem get?_eq (h : body.toList = before ++ rest) :
    String.Pos.Raw.get? body ⟨byteLength before⟩ = rest.head? := by
  rw [← String.ofList_toList (s := body), h, ← utf8Len_eq_byteLength, String.get?_of_valid]

theorem extract_eq (h : body.toList = before ++ (middle ++ rest)) :
    String.Pos.Raw.extract body ⟨byteLength before⟩ ⟨byteLength (before ++ middle)⟩ =
      String.ofList middle := by
  rw [← String.ofList_toList (s := body), h, ← List.append_assoc, byteLength_append,
    ← utf8Len_eq_byteLength, ← utf8Len_eq_byteLength, String.extract_of_valid]

/-- The start of the rest of a text is a boundary between characters. -/
theorem isValid_byteLength (h : body.toList = before ++ rest) :
    String.Pos.Raw.IsValid body ⟨byteLength before⟩ := by
  refine String.Pos.Raw.isValid_iff_exists_append.mpr ⟨.ofList before, .ofList rest, ?_, ?_⟩
  · rw [← String.ofList_append, ← h, String.ofList_toList]
  · rw [String.rawEndPos_ofList, utf8Len_eq_byteLength]

/-- There are no other boundaries. -/
theorem exists_rest_of_isValid {p : Nat} (h : String.Pos.Raw.IsValid body ⟨p⟩) :
    ∃ before rest, body.toList = before ++ rest ∧ p = byteLength before := by
  obtain ⟨s, t, rfl, hp⟩ := String.Pos.Raw.isValid_iff_exists_append.mp h
  refine ⟨s.toList, t.toList, String.toList_append, ?_⟩
  rw [← utf8Len_eq_byteLength, String.utf8Len_toList]
  exact congrArg String.Pos.Raw.byteIdx hp

/-! ### Cursors -/

/-- A place in a text, counted in bytes, and the places before it, the last one first. -/
structure Cursor where
  /-- The number of bytes before the place. -/
  position : Nat
  /-- Where the cursor was before. -/
  trail : List Nat

namespace Cursor

variable {cursor cursor' : Cursor}

/-- The start of a text. -/
def start : Cursor := ⟨0, []⟩

/-- All places where the cursor has been, the last one first. -/
def places (cursor : Cursor) : List Nat := cursor.position :: cursor.trail

/-- The cursor is moved on over some bytes. -/
def advance (cursor : Cursor) (count : Nat) : Cursor := ⟨cursor.position + count, cursor.places⟩

/-- The cursor was never moved back, and it has always been between two characters of the text or at
one of its ends. -/
structure Safe (body : String) (cursor : Cursor) : Prop where
  /-- No place is before an earlier one. -/
  neverBack : cursor.places.Pairwise (· ≥ ·)
  /-- No place is inside of a character, or after the text. -/
  onBoundary : ∀ p ∈ cursor.places, String.Pos.Raw.IsValid body ⟨p⟩

theorem Safe.le_utf8ByteSize (h : cursor.Safe body) : ∀ p ∈ cursor.places, p ≤ body.utf8ByteSize :=
  fun p hp => (h.onBoundary p hp).le_utf8ByteSize

/-- The cursor is where the rest of the text starts. -/
structure At (body : String) (rest : List Char) (cursor : Cursor) : Prop where
  safe : cursor.Safe body
  split : ∃ before, body.toList = before ++ rest ∧ cursor.position = byteLength before

/-- A cursor that is safe is at some rest. -/
theorem Safe.exists_at (h : cursor.Safe body) : ∃ rest, cursor.At body rest := by
  obtain ⟨before, rest, hbody, hposition⟩ :=
    exists_rest_of_isValid (h.onBoundary cursor.position List.mem_cons_self)
  exact ⟨rest, h, before, hbody, hposition⟩

theorem at_start (body : String) : start.At body body.toList where
  safe := ⟨List.pairwise_singleton _ _, List.forall_mem_singleton.mpr String.Pos.Raw.isValid_zero⟩
  split := ⟨[], rfl, rfl⟩

namespace At

/-- **A cursor that is moved over a character is safe again.** -/
theorem advance (h : cursor.At body (c :: rest)) : (cursor.advance c.utf8Size).At body rest := by
  obtain ⟨before, hbody, hposition⟩ := h.split
  have hsplit : body.toList = (before ++ [c]) ++ rest := by
    rw [hbody, List.append_assoc, List.singleton_append]
  have hafter : cursor.position + c.utf8Size = byteLength (before ++ [c]) := by
    rw [byteLength_append, ← hposition]
    rfl
  refine ⟨⟨List.pairwise_cons.mpr ⟨fun p hp => ?_, h.safe.neverBack⟩,
    List.forall_mem_cons.mpr ⟨?_, h.safe.onBoundary⟩⟩, before ++ [c], hsplit, hafter⟩
  · have hle : p ≤ cursor.position := by
      rcases List.mem_cons.mp hp with rfl | hp
      · exact Nat.le_refl _
      · exact (List.pairwise_cons.mp h.safe.neverBack).1 p hp
    exact Nat.le_trans hle (Nat.le_add_right _ _)
  · have hvalid := isValid_byteLength hsplit
    rwa [← hafter] at hvalid

theorem advance_one (h : cursor.At body (c :: rest)) (hc : c.toNat < 128) :
    (cursor.advance 1).At body rest :=
  utf8Size_eq_one hc ▸ h.advance

/-- The position is the length of what comes before the rest. -/
theorem position_eq (h : cursor.At body rest) :
    cursor.position = byteLength body.toList - byteLength rest := by
  obtain ⟨before, hbody, hposition⟩ := h.split
  rw [hbody, hposition, byteLength_append, Nat.add_sub_cancel]

/-- Where less is left, the cursor is further on. -/
theorem position_lt {rest' : List Char} (h : cursor.At body rest) (h' : cursor'.At body rest')
    (hlt : rest'.length < rest.length) : cursor.position < cursor'.position := by
  obtain ⟨before, hbody, hposition⟩ := h.split
  obtain ⟨before', hbody', hposition'⟩ := h'.split
  rcases List.append_eq_append_iff.mp (hbody.symm.trans hbody') with
    ⟨between, rfl, rfl⟩ | ⟨between, -, rfl⟩
  · have hne : between ≠ [] := by
      rintro rfl
      exact absurd hlt (Nat.lt_irrefl _)
    rw [hposition, hposition', byteLength_append]
    exact Nat.lt_add_of_pos_right (byteLength_pos hne)
  · rw [List.length_append] at hlt
    omega

end At

end Cursor

/-! ### Readers -/

/-- Reads at a cursor and moves it. The text may be refused, and there may be no result at all: if the
text is cut where it cannot be cut, or if reading does not come to an end. -/
abbrev CursorReader (α : Type) : Type := ExceptT SyntaxError (StateT Cursor Option) α

namespace CursorReader

variable {α β : Type} {cursor cursor' : Cursor} {reader : CursorReader α} {a : α}
  {error : SyntaxError}

/-- What comes of a reader that starts at a cursor. -/
def outcome (reader : CursorReader α) (cursor : Cursor) : Option (Except SyntaxError α × Cursor) :=
  (ExceptT.run reader).run cursor

theorem outcome_bind_ok (h : outcome reader cursor = some (.ok a, cursor'))
    (next : α → CursorReader β) : outcome (reader >>= next) cursor = outcome (next a) cursor' := by
  unfold outcome at h ⊢
  rw [ExceptT.run_bind, StateT.run_bind, h]
  rfl

theorem outcome_bind_error (h : outcome reader cursor = some (.error error, cursor'))
    (next : α → CursorReader β) :
    outcome (reader >>= next) cursor = some (.error error, cursor') := by
  unfold outcome at h ⊢
  rw [ExceptT.run_bind, StateT.run_bind, h]
  rfl

theorem outcome_pure (a : α) (cursor : Cursor) : outcome (pure a) cursor = some (.ok a, cursor) :=
  rfl

/-! ### Single steps -/

/-- Where the cursor is. -/
def position : CursorReader Nat := return (← get).position

/-- Moves the cursor on over some bytes. -/
def advance (count : Nat) : CursorReader Unit := modify (·.advance count)

/-- The byte at the cursor, if there is one, as the character with that number. -/
def peek (body : String) : CursorReader (Option Char) := do
  return body.toByteArray.data[(← get).position]?.map Char.ofUInt8

/-- The character at the cursor. Inside of a character and at the end of the text there is none. -/
def charAt? (body : String) : CursorReader (Option Char) := do
  return String.Pos.Raw.get? body ⟨(← get).position⟩

/-- No result. -/
def crash : CursorReader α := fun _ => none

/-- The text from some place to the cursor. It can be cut between two characters only. -/
def slice (body : String) (start : Nat) : CursorReader (List Char) := do
  let stop ← position
  if start ≤ stop ∧ String.Pos.Raw.isValid body ⟨start⟩ ∧ String.Pos.Raw.isValid body ⟨stop⟩ then
    return (String.Pos.Raw.extract body ⟨start⟩ ⟨stop⟩).toList
  else crash

/-- Refuses the text at the cursor. -/
def refuse (fault : SyntaxFault) : CursorReader α := do throw ⟨fault, ← position⟩

theorem outcome_position (cursor : Cursor) :
    outcome position cursor = some (.ok cursor.position, cursor) := rfl

theorem outcome_advance (count : Nat) (cursor : Cursor) :
    outcome (advance count) cursor = some (.ok (), cursor.advance count) := rfl

theorem outcome_refuse (fault : SyntaxFault) (cursor : Cursor) :
    outcome (refuse fault : CursorReader α) cursor =
      some (.error ⟨fault, cursor.position⟩, cursor) := rfl

theorem outcome_peek (h : cursor.At body rest) :
    outcome (peek body) cursor = some (.ok (rest.head?.map firstByte), cursor) := by
  obtain ⟨before, hbody, hposition⟩ := h.split
  have hbyte := getElem?_toByteArray hbody
  rw [← hposition] at hbyte
  rw [← hbyte]
  rfl

theorem outcome_charAt? (h : cursor.At body rest) :
    outcome (charAt? body) cursor = some (.ok rest.head?, cursor) := by
  obtain ⟨before, hbody, hposition⟩ := h.split
  have hchar := get?_eq hbody
  rw [← hposition] at hchar
  rw [← hchar]
  rfl

/-- **Between two places where the cursor has been, the text can be cut.** -/
theorem outcome_slice (h : cursor.At body (middle ++ rest)) (h' : cursor'.At body rest) :
    outcome (slice body cursor.position) cursor' = some (.ok middle, cursor') := by
  obtain ⟨before, hbody, hposition⟩ := h.split
  obtain ⟨before', hbody', hposition'⟩ := h'.split
  have hbefore : before' = before ++ middle := by
    rw [hbody, ← List.append_assoc] at hbody'
    exact (List.append_cancel_right hbody').symm
  rw [hbefore] at hposition' hbody'
  have hvalid : cursor.position ≤ cursor'.position ∧
      String.Pos.Raw.isValid body ⟨cursor.position⟩ ∧
        String.Pos.Raw.isValid body ⟨cursor'.position⟩ := by
    refine ⟨?_, ?_, ?_⟩
    · rw [hposition, hposition', byteLength_append]
      exact Nat.le_add_right _ _
    · exact String.Pos.Raw.isValid_eq_true_iff.mpr (h.safe.onBoundary _ List.mem_cons_self)
    · exact String.Pos.Raw.isValid_eq_true_iff.mpr (h'.safe.onBoundary _ List.mem_cons_self)
  rw [slice, outcome_bind_ok (outcome_position cursor'), if_pos hvalid, hposition, hposition',
    extract_eq hbody, String.toList_ofList, outcome_pure]

end CursorReader

end Worksheet
