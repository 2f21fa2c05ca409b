import Highlighter.Cursor.Call

/-!
# Cursors in bytes

Where a line is held in its UTF-8 form, a cursor is no more than a number of bytes: what remains is
cut off the line there, which is refused inside a character and past the end. Some of its functions
count bytes, others characters:

* a byte below 128 is a character of its own, so characters ahead are looked up among the bytes as
  long as there are no others before them (`ByteCursor.peek?`);
* a text is expected, and passed, byte by byte (`ByteCursor.matchText?`);
* all other movements pass one character after the other.

Every function here answers `none` if it cuts a text, or looks up a byte, where it may not.

No movement goes back in the line, and where bytes remain, a character that is passed takes some of
them (`ByteCursor.gains_one_of_advance?`), so passing characters comes to an end.
-/

namespace Highlighter

/-- A line with a number of bytes that are passed. -/
structure ByteCursor where
  line : Text
  position : Nat
deriving DecidableEq

namespace ByteCursor

/-- The beginning of a line. -/
def ofLine (line : Text) : ByteCursor :=
  ⟨line, 0⟩

/-- No bytes remain. -/
def isAtEnd (cursor : ByteCursor) : Bool :=
  Text.byteLength cursor.line ≤ cursor.position

/-- Nothing has been passed. -/
def isAtStart (cursor : ByteCursor) : Bool :=
  cursor.position == 0

/-- What remains of the line. -/
def rest? (cursor : ByteCursor) : Option Text :=
  Text.dropBytes? cursor.position cursor.line

/-- The character some way ahead; past the end of the line there is only U+0000. -/
def peek? (cursor : ByteCursor) (offset : Nat) : Option Char := do
  let rest ← cursor.rest?
  let bytes := Text.bytes rest
  if offset < bytes.length && (bytes.take (offset + 1)).all Text.isAscii then
    -- up to here, each byte is a character of its own
    return Char.ofUInt8 (← bytes[offset]?)
  else return (rest[offset]?).getD '\x00'

/-! ### Movements -/

/-- From one cursor to another in the same line, at least a number of bytes further on. -/
structure Gains (cursor : ByteCursor) (bytes : Nat) (after : ByteCursor) : Prop where
  line_eq : after.line = cursor.line
  le_position : cursor.position + bytes ≤ after.position

/-- The number of bytes that remain. -/
def remaining (cursor : ByteCursor) : Nat :=
  Text.byteLength cursor.line - cursor.position

/-- Passes one character, if any remains. -/
def advance? (cursor : ByteCursor) : Option ByteCursor := do
  match ← cursor.rest? with
  | [] => return cursor
  | c :: _ => return { cursor with position := cursor.position + c.utf8Size }

section

variable {cursor after last : ByteCursor} {m n : Nat}

theorem Gains.refl (cursor : ByteCursor) : cursor.Gains 0 cursor :=
  ⟨rfl, Nat.le_refl _⟩

theorem Gains.trans (h : cursor.Gains m after) (h' : after.Gains n last) :
    cursor.Gains (m + n) last where
  line_eq := h'.line_eq.trans h.line_eq
  le_position := by
    have := h.le_position
    have := h'.le_position
    omega

theorem Gains.mono (h : cursor.Gains n after) (hle : m ≤ n) : cursor.Gains m after where
  line_eq := h.line_eq
  le_position := Nat.le_trans (Nat.add_le_add_left hle _) h.le_position

theorem position_lt_of_not_isAtEnd (hmore : ¬cursor.isAtEnd) :
    cursor.position < Text.byteLength cursor.line :=
  Nat.lt_of_not_le fun hle => hmore (decide_eq_true hle)

theorem Gains.remaining_lt (h : cursor.Gains 1 after) (hmore : ¬cursor.isAtEnd) :
    after.remaining < cursor.remaining := by
  have hlt := position_lt_of_not_isAtEnd hmore
  have hle := h.le_position
  rw [remaining, remaining, h.line_eq]
  omega

theorem Gains.remaining_le (h : cursor.Gains n after) : after.remaining ≤ cursor.remaining := by
  have hle := h.le_position
  rw [remaining, remaining, h.line_eq]
  omega

theorem gains_of_advance? (h : cursor.advance? = some after) : cursor.Gains 0 after := by
  obtain ⟨rest, -, h⟩ := Option.bind_eq_some_iff.1 h
  cases rest with
  | nil =>
    obtain rfl := Option.some.inj h
    exact .refl cursor
  | cons c rest =>
    obtain rfl := Option.some.inj h
    exact ⟨rfl, Nat.le_add_right ..⟩

/-- Where bytes remain, a character that is passed takes some of them. -/
theorem gains_one_of_advance? (hmore : ¬cursor.isAtEnd) (h : cursor.advance? = some after) :
    cursor.Gains 1 after := by
  obtain ⟨rest, hrest, h⟩ := Option.bind_eq_some_iff.1 h
  cases rest with
  | nil =>
    have hlength := Text.byteLength_of_dropBytes? hrest
    exact absurd (position_lt_of_not_isAtEnd hmore) (Nat.not_lt_of_le (Nat.le_of_eq hlength))
  | cons c rest =>
    obtain rfl := Option.some.inj h
    exact ⟨rfl, Nat.add_le_add_left c.utf8Size_pos _⟩

end

/-- Passes a number of characters, or all that remain. -/
def advanceBy? (cursor : ByteCursor) : Nat → Option ByteCursor
  | 0 => some cursor
  | count + 1 =>
    if cursor.isAtEnd then some cursor
    else cursor.advance?.bind fun after => after.advanceBy? count

/-- Goes to the end of the line. -/
def skipToEnd (cursor : ByteCursor) : ByteCursor :=
  { cursor with position := Text.byteLength cursor.line }

/-- Passes characters as long as they are of a class, and says how many they are. -/
def takeWhile? (cursor : ByteCursor) (isIn : Char → Bool) : Option (Nat × ByteCursor) := do
  if _h : cursor.isAtEnd then return (0, cursor)
  else if isIn (← cursor.peek? 0) then
    match _hafter : cursor.advance? with
    | none => none
    | some after =>
      let (count, last) ← after.takeWhile? isIn
      return (count + 1, last)
  else return (0, cursor)
termination_by cursor.remaining
decreasing_by exact (gains_one_of_advance? ‹_› ‹_›).remaining_lt ‹_›

/-- Passes the blanks. -/
def skipBlanks? (cursor : ByteCursor) : Option ByteCursor :=
  (cursor.takeWhile? isBlank).map Prod.snd

/-- The bytes that remain begin with those of a text. -/
def startsWith? (cursor : ByteCursor) (expected : Text) : Option Bool :=
  cursor.rest?.map fun rest => (Text.bytes expected).isPrefixOf (Text.bytes rest)

/-- Passes the bytes of the expected text if they stand here, and says whether they do. -/
def matchText? (cursor : ByteCursor) (expected : Text) : Option (Bool × ByteCursor) := do
  if ← cursor.startsWith? expected then
    return (true, { cursor with position := cursor.position + (Text.bytes expected).length })
  else return (false, cursor)

/-- Passes the first of some texts that stands here, and says whether one does. -/
def matchAny? (cursor : ByteCursor) : List Text → Option (Bool × ByteCursor)
  | [] => some (false, cursor)
  | expected :: others => do
    match ← cursor.matchText? expected with
    | (true, after) => return (true, after)
    | (false, after) => after.matchAny? others

/-- Passes the expected character if it stands here, and says whether it does. -/
def matchChar? (cursor : ByteCursor) (expected : Char) : Option (Bool × ByteCursor) := do
  if cursor.isAtEnd then return (false, cursor)
  else if (← cursor.peek? 0) = expected then return (true, ← cursor.advance?)
  else return (false, cursor)

/-- The text from an earlier position up to the cursor. -/
def sliceFrom? (cursor : ByteCursor) (start : Nat) : Option Text :=
  Text.slice? start cursor.position cursor.line

/-! ### No movement goes back -/

section

variable {cursor after : ByteCursor} {expected : Text} {isIn : Char → Bool} {count : Nat}

theorem gains_of_advanceBy? (h : cursor.advanceBy? count = some after) : cursor.Gains 0 after := by
  induction count generalizing cursor with
  | zero =>
    obtain rfl := Option.some.inj h
    exact .refl cursor
  | succ count ih =>
    rw [advanceBy?] at h
    split at h
    next =>
      obtain rfl := Option.some.inj h
      exact .refl cursor
    next =>
      obtain ⟨between, hbetween, h⟩ := Option.bind_eq_some_iff.1 h
      exact (gains_of_advance? hbetween).trans (ih h)

theorem gains_one_of_advanceBy? (hmore : ¬cursor.isAtEnd) (hcount : 0 < count)
    (h : cursor.advanceBy? count = some after) : cursor.Gains 1 after := by
  obtain ⟨count, rfl⟩ := Nat.exists_eq_succ_of_ne_zero (Nat.ne_of_gt hcount)
  rw [advanceBy?, if_neg hmore] at h
  obtain ⟨between, hbetween, h⟩ := Option.bind_eq_some_iff.1 h
  exact (gains_one_of_advance? hmore hbetween).trans (gains_of_advanceBy? h)

/-- Where bytes remain, a character of the class is passed before all others. -/
theorem exists_of_takeWhile? (hmore : ¬cursor.isAtEnd)
    (h : cursor.takeWhile? isIn = some (count, after)) :
    ∃ c, cursor.peek? 0 = some c ∧
      if isIn c then ∃ between n, cursor.advance? = some between ∧
        between.takeWhile? isIn = some (n, after)
      else after = cursor := by
  rw [takeWhile?, dif_neg hmore] at h
  obtain ⟨c, hc, h⟩ := Option.bind_eq_some_iff.1 h
  refine ⟨c, hc, ?_⟩
  split at h
  next hin =>
    rw [if_pos hin]
    split at h
    · cases h
    next between hbetween =>
      obtain ⟨⟨n, last⟩, htake, h⟩ := Option.bind_eq_some_iff.1 h
      obtain ⟨-, rfl⟩ := Prod.mk.inj (Option.some.inj h)
      exact ⟨between, n, hbetween, htake⟩
  next hin =>
    rw [if_neg hin]
    exact (Prod.mk.inj (Option.some.inj h)).2.symm

theorem gains_of_takeWhile? (h : cursor.takeWhile? isIn = some (count, after)) :
    cursor.Gains 0 after := by
  induction cursor using takeWhile?.induct generalizing count with
  | case1 cursor hend =>
    rw [takeWhile?, dif_pos hend] at h
    obtain ⟨-, rfl⟩ := Prod.mk.inj (Option.some.inj h)
    exact .refl _
  | case2 cursor hmore ih =>
    obtain ⟨c, -, hcases⟩ := exists_of_takeWhile? hmore h
    split at hcases
    next =>
      obtain ⟨between, n, hbetween, htake⟩ := hcases
      exact (gains_of_advance? hbetween).trans (ih between hbetween htake)
    next =>
      rw [hcases]
      exact .refl cursor

theorem gains_one_of_takeWhile? {c : Char} (hmore : ¬cursor.isAtEnd)
    (hc : cursor.peek? 0 = some c) (hin : isIn c)
    (h : cursor.takeWhile? isIn = some (count, after)) : cursor.Gains 1 after := by
  obtain ⟨d, hd, hcases⟩ := exists_of_takeWhile? hmore h
  obtain rfl := Option.some.inj (hc.symm.trans hd)
  rw [if_pos hin] at hcases
  obtain ⟨between, n, hbetween, htake⟩ := hcases
  exact (gains_one_of_advance? hmore hbetween).trans (gains_of_takeWhile? htake)

theorem gains_of_skipBlanks? (h : cursor.skipBlanks? = some after) : cursor.Gains 0 after := by
  obtain ⟨⟨count, last⟩, htake, rfl⟩ := Option.map_eq_some_iff.1 h
  exact gains_of_takeWhile? htake

theorem gains_one_of_skipToEnd (hmore : ¬cursor.isAtEnd) : cursor.Gains 1 cursor.skipToEnd :=
  ⟨rfl, position_lt_of_not_isAtEnd hmore⟩

/-- A text that stands here is passed, and otherwise nothing. -/
theorem gains_of_matchText? {holds : Bool}
    (h : cursor.matchText? expected = some (holds, after)) :
    if holds then cursor.Gains (Text.bytes expected).length after else after = cursor := by
  obtain ⟨stands, -, h⟩ := Option.bind_eq_some_iff.1 h
  cases stands with
  | true =>
    obtain ⟨rfl, rfl⟩ := Prod.mk.inj (Option.some.inj h)
    exact ⟨rfl, Nat.le_refl _⟩
  | false =>
    obtain ⟨rfl, rfl⟩ := Prod.mk.inj (Option.some.inj h)
    rfl

theorem gains_of_matchAny? {texts : List Text} (hne : ∀ expected ∈ texts, expected ≠ [])
    {holds : Bool} (h : cursor.matchAny? texts = some (holds, after)) :
    if holds then cursor.Gains 1 after else after = cursor := by
  induction texts with
  | nil =>
    obtain ⟨rfl, rfl⟩ := Prod.mk.inj (Option.some.inj h)
    rfl
  | cons expected others ih =>
    obtain ⟨⟨stands, between⟩, hmatch, hothers⟩ := Option.bind_eq_some_iff.1 h
    have hgains := gains_of_matchText? hmatch
    cases stands with
    | true =>
      obtain ⟨rfl, rfl⟩ := Prod.mk.inj (Option.some.inj hothers)
      exact hgains.mono (List.length_pos_iff.2 (Text.bytes_ne_nil (hne _ List.mem_cons_self)))
    | false =>
      obtain rfl : cursor = between := Eq.symm hgains
      exact ih (fun text hmem => hne text (List.mem_cons_of_mem expected hmem)) hothers

end

/-! ### Calls -/

/-- Performs one call. -/
def call? (cursor : ByteCursor) : Cursor.Call → Option (Cursor.Answer × ByteCursor)
  | .peek offset => (cursor.peek? offset).map fun c => (.char c, cursor)
  | .advance => cursor.advance?.map fun after => (.nothing, after)
  | .advanceBy count => (cursor.advanceBy? count).map fun after => (.nothing, after)
  | .skipToEnd => some (.nothing, cursor.skipToEnd)
  | .skipBlanks => cursor.skipBlanks?.map fun after => (.nothing, after)
  | .matchChar expected =>
    (cursor.matchChar? expected).map fun (holds, after) => (.flag holds, after)
  | .matchText expected =>
    (cursor.matchText? expected).map fun (holds, after) => (.flag holds, after)
  | .startsWith expected => (cursor.startsWith? expected).map fun holds => (.flag holds, cursor)
  | .takeWhile isIn => (cursor.takeWhile? isIn).map fun (count, after) => (.count count, after)
  | .sliceFrom start => (cursor.sliceFrom? start).map fun text => (.text text, cursor)
  | .rest => cursor.rest?.map fun text => (.text text, cursor)
  | .line => some (.text cursor.line, cursor)

/-- Performs one call, which leaves the cursor where it is if it is refused. -/
def call (cursor : ByteCursor) (c : Cursor.Call) : Cursor.Answer × ByteCursor :=
  (cursor.call? c).getD (.refused, cursor)

/-- Performs calls one after the other, and gives each answer with the cursor after it. -/
def callAll (cursor : ByteCursor) : List Cursor.Call → List (Cursor.Answer × ByteCursor)
  | [] => []
  | c :: calls => cursor.call c :: (cursor.call c).2.callAll calls

end ByteCursor

end Highlighter
