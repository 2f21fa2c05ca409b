import Highlighter.Character

/-!
# Cursors

A *cursor* is a place in a line between two of its characters: the characters passed
(nearest first) and those that remain. Its position is the number of bytes passed.

Every movement takes whole characters, so a cursor never stands inside one:

* `Cursor.advanceBy` takes a number of characters, or all that remain;
* `Cursor.matchText` takes an expected text, or nothing;
* `Cursor.takeWhile` takes the longest run of characters of a class.

No movement goes back (`position_le_advanceBy`) or leaves the line (`line_advanceBy`).
-/

namespace Highlighter

/-- A place in a line. -/
structure Cursor where
  /-- The characters before it, nearest first. -/
  passed : Text
  /-- The characters after it. -/
  rest : Text
  /-- The number of bytes before it. -/
  position : Nat
  position_eq : position = Text.byteLength passed
deriving DecidableEq

namespace Cursor

/-- The beginning of a line. -/
def ofLine (line : Text) : Cursor :=
  ⟨[], line, 0, rfl⟩

/-- The line in which the cursor stands. -/
def line (cursor : Cursor) : Text :=
  cursor.passed.reverse ++ cursor.rest

/-- Nothing remains. -/
def isAtEnd (cursor : Cursor) : Bool :=
  cursor.rest.isEmpty

/-- Nothing has been passed. -/
def isAtStart (cursor : Cursor) : Bool :=
  cursor.position == 0

/-- The character some way ahead; past the end of the line there is only U+0000. -/
def peek (cursor : Cursor) (offset : Nat) : Char :=
  (cursor.rest[offset]?).getD '\x00'

/-! ### Movements -/

/-- Passes the characters given, which stand before `rest`. -/
def pass (cursor : Cursor) (rest : Text) : Text → Cursor
  | [] => { cursor with rest }
  | c :: taken =>
    pass ⟨c :: cursor.passed, rest, cursor.position + c.utf8Size, by
      simp [cursor.position_eq, Nat.add_comm]⟩ rest taken

/-- Passes a number of characters, or all that remain. -/
def advanceBy (cursor : Cursor) (count : Nat) : Cursor :=
  cursor.pass (cursor.rest.drop count) (cursor.rest.take count)

/-- Passes one character, if any remains. -/
def advance (cursor : Cursor) : Cursor :=
  cursor.advanceBy 1

/-- Goes to the end of the line. -/
def skipToEnd (cursor : Cursor) : Cursor :=
  cursor.advanceBy cursor.rest.length

/-- Passes the longest run of characters of a class, and says how many they are. -/
def takeWhile (cursor : Cursor) (isIn : Char → Bool) : Nat × Cursor :=
  let count := (cursor.rest.takeWhile isIn).length
  (count, cursor.advanceBy count)

/-- Passes the blanks. -/
def skipBlanks (cursor : Cursor) : Cursor :=
  (cursor.takeWhile isBlank).2

/-- What remains begins with a text. -/
def startsWith (cursor : Cursor) (expected : Text) : Bool :=
  expected.isPrefixOf cursor.rest

/-- Passes the expected text if it stands here, and says whether it does. -/
def matchText (cursor : Cursor) (expected : Text) : Bool × Cursor :=
  if cursor.startsWith expected then (true, cursor.advanceBy expected.length)
  else (false, cursor)

/-- Passes the expected character if it stands here, and says whether it does. -/
def matchChar (cursor : Cursor) (expected : Char) : Bool × Cursor :=
  cursor.matchText [expected]

/-- The text from an earlier position up to the cursor; refused from a later
    position or from inside a character. -/
def sliceFrom? (cursor : Cursor) (start : Nat) : Option Text :=
  if start ≤ cursor.position then Text.dropBytes? start cursor.passed.reverse else none

/-! ### What movements keep -/

@[simp] theorem rest_pass (cursor : Cursor) (rest taken : Text) :
    (cursor.pass rest taken).rest = rest := by
  induction taken generalizing cursor with
  | nil => rfl
  | cons c taken ih => rw [pass, ih]

theorem passed_pass (cursor : Cursor) (rest taken : Text) :
    (cursor.pass rest taken).passed = taken.reverse ++ cursor.passed := by
  induction taken generalizing cursor with
  | nil => rfl
  | cons c taken ih => rw [pass, ih]; simp

theorem position_pass (cursor : Cursor) (rest taken : Text) :
    (cursor.pass rest taken).position = cursor.position + Text.byteLength taken := by
  rw [position_eq, passed_pass, Text.byteLength_append, Text.byteLength_reverse,
    cursor.position_eq, Nat.add_comm]

@[simp] theorem rest_advanceBy (cursor : Cursor) (count : Nat) :
    (cursor.advanceBy count).rest = cursor.rest.drop count :=
  rest_pass ..

/-- A cursor stays in its line. -/
theorem line_advanceBy (cursor : Cursor) (count : Nat) :
    (cursor.advanceBy count).line = cursor.line := by
  simp [line, advanceBy, passed_pass]

/-- The position grows by the size of what is passed. -/
theorem position_advanceBy (cursor : Cursor) (count : Nat) :
    (cursor.advanceBy count).position =
      cursor.position + Text.byteLength (cursor.rest.take count) :=
  position_pass ..

theorem position_le_advanceBy (cursor : Cursor) (count : Nat) :
    cursor.position ≤ (cursor.advanceBy count).position := by
  rw [position_advanceBy]
  exact Nat.le_add_right ..

end Cursor

end Highlighter
