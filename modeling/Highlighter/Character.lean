import Highlighter.Text

/-!
# Classes of characters

The characters that mean something to the lexer of Raven are all in ASCII; every
class below holds of ASCII characters only.

* a *word* starts with a letter or an underscore and goes on with letters, digits
  and `_`, `!`, `?`;
* a *blank* separates tokens within a line;
* an *operator mark* may begin an operator; some of them (`isSimpleOperator`) are
  operators with a reading of their own, the others are only coloured as such.
-/

namespace Highlighter

/-- The mark that begins a comment. -/
def commentMark : Char := '#'

/-- The mark that begins a decorator. -/
def decoratorMark : Char := '@'

/-- The mark that takes a reference to the word after it. -/
def referenceMark : Char := '&'

/-- The mark that escapes characters in a literal. -/
def escapeMark : Char := '\\'

/-- A character that may begin a word. -/
def isWordStart (c : Char) : Bool :=
  c.isAlpha || c == '_'

/-- A character that may stand in a word. -/
def isWordPart (c : Char) : Bool :=
  c.isAlphanum || c == '_' || c == '!' || c == '?'

/-- A digit of a hexadecimal number. -/
def isHexDigit (c : Char) : Bool :=
  c.isDigit || ('a' ≤ c && c ≤ 'f') || ('A' ≤ c && c ≤ 'F')

/-- A quote, which begins and ends literals. -/
def isQuote (c : Char) : Bool :=
  c == '"' || c == '`'

/-- A character that separates tokens within a line. -/
def isBlank (c : Char) : Bool :=
  c == ' ' || c == '\t' || c == '\r'

/-- An opening bracket. -/
def isOpenBracket (c : Char) : Bool :=
  c == '(' || c == '[' || c == '{'

/-- A closing bracket. -/
def isCloseBracket (c : Char) : Bool :=
  c == ')' || c == ']' || c == '}'

/-- An operator of one character that takes part in expressions. -/
def isSimpleOperator (c : Char) : Bool :=
  ['=', '+', '-', '*', '/', '^', '>', '<', ':', '|', '&'].contains c

/-- Any character that is coloured as an operator. -/
def isOperatorMark (c : Char) : Bool :=
  isSimpleOperator c || ['!', '%', '~', '?', '$', ';', '\\', '\''].contains c

end Highlighter
