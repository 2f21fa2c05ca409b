import Highlighter.Text

/-!
# Log records

What the program tells about its work, apart from its results: a *record* is a message
with a level. Records are made in full whoever listens; what is shown of them is
those up to a level (`Log.upTo`).
-/

namespace Highlighter

/-- How much a record matters. -/
inductive Level where
  | error
  | info
  | debug
  | trace
deriving DecidableEq

namespace Level

/-- The name under which a level is shown. -/
def label : Level → Text
  | error => "ERROR".toList
  | info => "INFO".toList
  | debug => "DEBUG".toList
  | trace => "TRACE".toList

/-- The place of a level, from what matters most to what matters least. -/
def detail : Level → Nat
  | error => 0
  | info => 1
  | debug => 2
  | trace => 3

/-- The number of the terminal colour of a level. -/
def color : Level → Nat
  | error => 31
  | info => 32
  | debug => 34
  | trace => 35

end Level

/-- A message with its level. -/
structure LogRecord where
  level : Level
  message : Text
deriving DecidableEq

namespace LogRecord

/-- A record as a line, with the level in five columns, and in its colour if asked for. -/
def line (colored : Bool) (record : LogRecord) : Text :=
  let label := List.replicate (5 - record.level.label.length) ' ' ++ record.level.label
  (if colored then
    "\x1b[".toList ++ Text.ofNat record.level.color ++ 'm' :: label ++ "\x1b[0m".toList
  else label) ++ ' ' :: record.message ++ ['\n']

end LogRecord

/-- Records in the order in which they were made. -/
abbrev Log := List LogRecord

namespace Log

/-- The records that are shown where `most` is the most detailed level listened to. -/
def upTo (most : Level) (log : Log) : Log :=
  log.filter fun record => record.level.detail ≤ most.detail

end Log

end Highlighter
