import Highlighter.Category

/-!
# Tokens

A *span* is a stretch of a line, given by the bytes where it starts and stops; a
*token* is a span with its category. A token holds no text of its own: `Token.text?`
reads it off the line, which fails on a line that has no such span.
-/

namespace Highlighter

/-- A stretch of a line, in bytes; `stop` is the first byte after it. -/
structure Span where
  start : Nat
  stop : Nat
  start_le_stop : start ≤ stop
deriving DecidableEq

namespace Span

/-- The span from `start` to `stop`, if they are in order. -/
def ofBounds? (start stop : Nat) : Option Span :=
  if h : start ≤ stop then some ⟨start, stop, h⟩ else none

/-- The number of bytes in a span. -/
def length (span : Span) : Nat :=
  span.stop - span.start

/-- A span that holds nothing. -/
def isEmpty (span : Span) : Bool :=
  span.start == span.stop

end Span

/-- A coloured stretch of a line. -/
structure Token where
  category : Category
  span : Span
deriving DecidableEq

namespace Token

/-- The text of a token on a line, if the line has one at its span. -/
def text? (line : Text) (token : Token) : Option Text :=
  Text.slice? token.span.start token.span.stop line

end Token

end Highlighter
