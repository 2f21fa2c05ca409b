import Highlighter.Character

/-!
# Numerals

A numeral is a hexadecimal number (`0x1F`) or a decimal number, with or without
fraction (`7`, `2.5`). Where an expression starts it may also carry a sign (`-7`),
or have nothing before its point (`.5`). A point without digits after it is no part
of a numeral, nor is `0x` without digits.

`Numeral.width?` is the number of characters of the numeral at the beginning of a
text.
-/

namespace Highlighter.Numeral

/-- The number of decimal digits at the beginning of a text. -/
def digitCount (text : Text) : Nat :=
  (text.takeWhile Char.isDigit).length

/-- The width of a point with the digits after it, if there are any. -/
def pointWidth? : Text → Option Nat
  | '.' :: rest =>
    match digitCount rest with
    | 0 => none
    | n + 1 => some (n + 2)
  | _ => none

/-- The width of a hexadecimal number. -/
def hexWidth? : Text → Option Nat
  | '0' :: 'x' :: rest =>
    match (rest.takeWhile isHexDigit).length with
    | 0 => none
    | n + 1 => some (n + 3)
  | _ => none

/-- The width of a decimal number without sign. -/
def decimalWidth? (text : Text) : Option Nat :=
  match digitCount text with
  | 0 => none
  | n + 1 => some (n + 1 + (pointWidth? (text.drop (n + 1))).getD 0)

/-- The width of a decimal number with its sign. -/
def signedWidth? : Text → Option Nat
  | '-' :: rest => (decimalWidth? rest).map (· + 1)
  | _ => none

/-- The width of the numeral at the beginning of a text, where an expression starts
    or not. -/
def width? (expressionStart : Bool) (text : Text) : Option Nat :=
  (hexWidth? text).or <|
    (if expressionStart then signedWidth? text else none).or <|
      (decimalWidth? text).or <|
        if expressionStart then pointWidth? text else none

theorem pointWidth?_pos {text : Text} {width : Nat} (h : pointWidth? text = some width) :
    0 < width := by
  fun_cases pointWidth? text <;> grind [pointWidth?]

theorem hexWidth?_pos {text : Text} {width : Nat} (h : hexWidth? text = some width) :
    0 < width := by
  fun_cases hexWidth? text <;> grind [hexWidth?]

theorem decimalWidth?_pos {text : Text} {width : Nat} (h : decimalWidth? text = some width) :
    0 < width := by
  fun_cases decimalWidth? text <;> grind [decimalWidth?]

theorem signedWidth?_pos {text : Text} {width : Nat} (h : signedWidth? text = some width) :
    0 < width := by
  fun_cases signedWidth? text <;> grind [signedWidth?, Option.map_eq_some_iff]

/-- A numeral has characters. -/
theorem width?_pos {expressionStart : Bool} {text : Text} {width : Nat}
    (h : width? expressionStart text = some width) : 0 < width := by
  simp only [width?, Option.or_eq_some_iff] at h
  grind [→ pointWidth?_pos, → hexWidth?_pos, → decimalWidth?_pos, → signedWidth?_pos]

end Highlighter.Numeral
