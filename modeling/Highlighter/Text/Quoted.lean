import Highlighter.Text.Hidden

/-!
# Quoted text

How a text is shown to developers: in quotes, with escapes for what does not show and
for what would end the quotes.
-/

namespace Highlighter.Text

/-- A character between quotes. -/
def escape (c : Char) : Text :=
  if c = '\x00' then ['\\', '0']
  else if c = '\t' then ['\\', 't']
  else if c = '\r' then ['\\', 'r']
  else if c = '\n' then ['\\', 'n']
  else if c = '"' then ['\\', '"']
  else if c = '\\' then ['\\', '\\']
  else if isHidden c then ['\\', 'u', '\x7b'] ++ Nat.toDigits 16 c.toNat ++ ['\x7d']
  else [c]

/-- A text in quotes. -/
def quoted (text : Text) : Text :=
  '"' :: text.flatMap escape ++ ['"']

end Highlighter.Text
