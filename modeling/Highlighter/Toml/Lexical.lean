import Highlighter.Character

/-!
# The texture of TOML

What stands between the parts of a TOML file: blanks, comments and line ends. A reader
of some part is given a text and answers what it reads with the text that remains, or
nothing if the text does not begin with such a part.
-/

namespace Highlighter.Toml

/-- What is read at the beginning of a text, with what remains, if anything is read. -/
abbrev Reading (α : Type) := Option (α × Text)

/-- A character that may stand for itself in comments and strings: no control, but a
    tab. -/
def isPlain (c : Char) : Bool :=
  c == '\t' || (0x20 ≤ c.toNat && c.toNat != 0x7F)

/-- A blank within a line. -/
def isSpace (c : Char) : Bool :=
  c == ' ' || c == '\t'

/-- The text after the blanks at its beginning. -/
def skipSpaces (text : Text) : Text :=
  text.dropWhile isSpace

/-- The text after a line end. -/
def newline? : Text → Option Text
  | '\n' :: rest => some rest
  | '\r' :: '\n' :: rest => some rest
  | _ => none

/-- The text after a comment, if it begins with one. -/
def skipComment : Text → Text
  | '#' :: rest => rest.dropWhile isPlain
  | text => text

/-- The text after the end of a line, before which there may be blanks and a comment. -/
def endLine? (text : Text) : Option Text :=
  match skipComment (skipSpaces text) with
  | [] => some []
  | rest => newline? rest

/-- The text after blanks, comments and line ends. -/
def skipFiller (inComment : Bool) : Text → Text
  | [] => []
  | c :: rest =>
    if c == '\n' || (c == '\r' && rest.head? == some '\n') then skipFiller false rest
    else if inComment then if isPlain c then skipFiller true rest else c :: rest
    else if isSpace c then skipFiller false rest
    else if c == '#' then skipFiller true rest
    else c :: rest

/-- The value of a digit to a base of at most sixteen. -/
def digitValue (c : Char) : Nat :=
  if c.isDigit then c.toNat - '0'.toNat
  else if c.isLower then c.toNat - 'a'.toNat + 10
  else c.toNat - 'A'.toNat + 10

/-- The value of digits. -/
def ofDigits (base : Nat) (digits : Text) : Nat :=
  digits.foldl (fun n c => base * n + digitValue c) 0

end Highlighter.Toml
