import Highlighter.Text

/-!
# JSON as written

The parts of JSON that listings are made of, without blanks. In a string the quote and
the escape mark are escaped, as are the characters below U+0020, some of which have
short forms; all others stand for themselves.
-/

namespace Highlighter.Json

/-- A digit of a number to the base sixteen. -/
def hexDigit (n : Nat) : Char :=
  Nat.digitChar n

/-- A character of a string. -/
def escape (c : Char) : Text :=
  if c = '"' then ['\\', '"']
  else if c = '\\' then ['\\', '\\']
  else if c = '\x08' then ['\\', 'b']
  else if c = '\x0c' then ['\\', 'f']
  else if c = '\n' then ['\\', 'n']
  else if c = '\r' then ['\\', 'r']
  else if c = '\t' then ['\\', 't']
  else if c.toNat < 0x20 then
    ['\\', 'u', '0', '0', hexDigit (c.toNat / 16), hexDigit (c.toNat % 16)]
  else [c]

/-- A string. -/
def string (text : Text) : Text :=
  '"' :: text.flatMap escape ++ ['"']

/-- An array of values that are written already. -/
def array (values : List Text) : Text :=
  '[' :: [','].intercalate values ++ [']']

/-- An object whose values are written already. -/
def object (fields : List (Text × Text)) : Text :=
  '\x7b' :: [','].intercalate (fields.map fun field => string field.1 ++ ':' :: field.2)
    ++ ['\x7d']

end Highlighter.Json
