import Highlighter.Toml.Lexical

/-!
# Writing strings of TOML

Of the ways in which a string may be written, the plainest is taken that needs no
escapes (`Toml.styleOf`): a basic string, then a literal one, then either over several
lines. Only a text that none of these can hold is written with escapes, over several
lines if it has line ends.

A tab never calls for escapes, but where escapes may stand it is written as one.
-/

namespace Highlighter.Toml

/-- The length of the longest run of a character in a text, which goes on from a run
    that is already so long. -/
def longestRunFrom (mark : Char) : Nat → Text → Nat
  | run, [] => run
  | run, c :: rest =>
    if c = mark then longestRunFrom mark (run + 1) rest
    else max run (longestRunFrom mark 0 rest)

/-- The length of the longest run of a character in a text. -/
def longestRun (mark : Char) (text : Text) : Nat :=
  longestRunFrom mark 0 text

/-- A character that no string holds as it is, whatever its quotes. -/
def needsEscape (c : Char) : Bool :=
  !isPlain c && c != '\n'

/-- The ways to write a string. -/
inductive Style where
  | basic
  | literal
  | basicLines
  | literalLines
deriving DecidableEq

/-- The way in which a text is written. -/
def styleOf (text : Text) : Style :=
  let controls := text.any needsEscape
  let marks := text.contains '\\'
  let newline := text.contains '\n'
  if !controls && !marks && !newline && longestRun '"' text = 0 then .basic
  else if !controls && !newline && longestRun '\'' text = 0 then .literal
  else if !controls && !marks && longestRun '"' text ≤ 2 then .basicLines
  else if !controls && longestRun '\'' text ≤ 2 then .literalLines
  else if newline then .basicLines
  else .basic

/-- A digit to the base sixteen, in capitals. -/
def upperHexDigit (n : Nat) : Char :=
  (Nat.digitChar n).toUpper

/-- A character of a basic string that is neither a quote nor a line end. -/
def writeChar (c : Char) : Text :=
  if c = '\x08' then ['\\', 'b']
  else if c = '\t' then ['\\', 't']
  else if c = '\x0c' then ['\\', 'f']
  else if c = '\r' then ['\\', 'r']
  else if c = '\\' then ['\\', '\\']
  else if isPlain c then [c]
  else ['\\', 'u', '0', '0', upperHexDigit (c.toNat / 16), upperHexDigit (c.toNat % 16)]

/-- The inside of a basic string. -/
def writeBasic (text : Text) : Text :=
  text.flatMap fun c =>
    if c = '"' then ['\\', '"'] else if c = '\n' then ['\\', 'n'] else writeChar c

/-- The inside of a basic string of several lines, where so many quotes stand before
    the text: only a third quote in a row is escaped. -/
def writeBasicLines : Nat → Text → Text
  | _, [] => []
  | quotes, c :: rest =>
    if c = '"' then
      if 2 ≤ quotes then '\\' :: '"' :: writeBasicLines 0 rest
      else '"' :: writeBasicLines (quotes + 1) rest
    else if c = '\n' then '\n' :: writeBasicLines 0 rest
    else writeChar c ++ writeBasicLines 0 rest

/-- A string. -/
def writeString (text : Text) : Text :=
  let opening := if text.contains '\n' then ['\n'] else []
  match styleOf text with
  | .basic => '"' :: writeBasic text ++ ['"']
  | .literal => '\'' :: text ++ ['\'']
  | .basicLines => ['"', '"', '"'] ++ opening ++ writeBasicLines 0 text ++ ['"', '"', '"']
  | .literalLines => ['\'', '\'', '\''] ++ opening ++ text ++ ['\'', '\'', '\'']

/-- A boolean. -/
def writeBool (b : Bool) : Text :=
  if b then "true".toList else "false".toList

/-- An entry of a table. -/
def writeEntry (key value : Text) : Text :=
  key ++ " = ".toList ++ value ++ ['\n']

/-- The header of a table. -/
def writeHeader (key : Text) : Text :=
  '[' :: key ++ "]\n".toList

end Highlighter.Toml
