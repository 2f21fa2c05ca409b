import Highlighter.Cursor

/-!
# Calling a cursor by hand

The questions that may be asked of a cursor and the movements it may make, as data:
a *call* is one of them, and `Cursor.call` performs it.
-/

namespace Highlighter.Cursor

/-- A question to a cursor, or a movement of it. -/
inductive Call where
  | peek (offset : Nat)
  /-- Passes one character. -/
  | advance
  /-- Passes a number of characters. -/
  | advanceBy (count : Nat)
  | skipToEnd
  | skipBlanks
  | matchChar (expected : Char)
  | matchText (expected : Text)
  | startsWith (expected : Text)
  /-- Passes the longest run of characters of a class. -/
  | takeWhile (isIn : Char → Bool)
  | sliceFrom (start : Nat)
  /-- What remains of the line. -/
  | rest
  | line

/-- What a call answers. -/
inductive Answer where
  | nothing
  | char (c : Char)
  | flag (holds : Bool)
  | count (n : Nat)
  | text (text : Text)
  /-- The place asked for is not between two characters passed. -/
  | refused

/-- Performs one call. -/
def call (cursor : Cursor) : Call → Answer × Cursor
  | .peek offset => (.char (cursor.peek offset), cursor)
  | .advance => (.nothing, cursor.advance)
  | .advanceBy count => (.nothing, cursor.advanceBy count)
  | .skipToEnd => (.nothing, cursor.skipToEnd)
  | .skipBlanks => (.nothing, cursor.skipBlanks)
  | .matchChar expected => (.flag (cursor.matchChar expected).1, (cursor.matchChar expected).2)
  | .matchText expected => (.flag (cursor.matchText expected).1, (cursor.matchText expected).2)
  | .startsWith expected => (.flag (cursor.startsWith expected), cursor)
  | .takeWhile isIn => (.count (cursor.takeWhile isIn).1, (cursor.takeWhile isIn).2)
  | .sliceFrom start =>
    match cursor.sliceFrom? start with
    | some text => (.text text, cursor)
    | none => (.refused, cursor)
  | .rest => (.text cursor.rest, cursor)
  | .line => (.text cursor.line, cursor)

/-- Performs calls one after the other, and gives each answer with the cursor after it. -/
def callAll (cursor : Cursor) : List Call → List (Answer × Cursor)
  | [] => []
  | c :: calls => cursor.call c :: (cursor.call c).2.callAll calls

end Highlighter.Cursor
