import Highlighter.Toml.Lexical

/-!
# Numbers and dates of TOML

An integer is decimal, with or without sign, or has a prefix for another base; it has
to fit 64 bits. A float has a fraction or an exponent; one that is too large is
refused. Underscores may stand between digits.

Dates and times are read as such, so that a file is refused if one does not exist.
-/

namespace Highlighter.Toml

/-! ## Digits -/

/-- The digits that go on at the beginning of a text, without the underscores between
    them. -/
def moreDigits (isDigit : Char → Bool) : Text → Text × Text
  | [] => ([], [])
  | c :: rest =>
    if isDigit c then
      let more := moreDigits isDigit rest
      (c :: more.1, more.2)
    else if c = '_' ∧ rest.head?.any isDigit then moreDigits isDigit rest
    else ([], c :: rest)

/-- Digits. -/
def digits? (isDigit : Char → Bool) : Text → Reading Text
  | [] => none
  | c :: rest => if isDigit c then some (moreDigits isDigit (c :: rest)) else none

/-- The digits of a decimal integer: no zero stands before others. -/
def decimal? : Text → Reading Text
  | '0' :: rest => some (['0'], rest)
  | text => digits? Char.isDigit text

/-- A sign, if there is one: whether it is negative. -/
def sign : Text → Bool × Text
  | '+' :: rest => (false, rest)
  | '-' :: rest => (true, rest)
  | text => (false, text)

/-! ## Integers -/

/-- A number that an integer may be. -/
def inRange (n : Int) : Bool :=
  Int64.minValue.toInt ≤ n && n ≤ Int64.maxValue.toInt

/-- An integer to a base, after its prefix. -/
def basedInteger? (base : Nat) (isDigit : Char → Bool) (text : Text) : Reading Int :=
  (digits? isDigit text).bind fun (digits, rest) =>
    let n : Int := ofDigits base digits
    if inRange n then some (n, rest) else none

/-- An integer. -/
def integer? : Text → Reading Int
  | '0' :: 'x' :: rest => basedInteger? 16 isHexDigit rest
  | '0' :: 'o' :: rest => basedInteger? 8 (fun c => '0' ≤ c && c ≤ '7') rest
  | '0' :: 'b' :: rest => basedInteger? 2 (fun c => c == '0' || c == '1') rest
  | text =>
    (decimal? (sign text).2).bind fun (digits, rest) =>
      let n : Int := ofDigits 10 digits
      let n := if (sign text).1 then -n else n
      if inRange n then some (n, rest) else none

/-! ## Floats -/

/-- The least number that is too large for a float of 64 bits. -/
def floatLimit : Nat := Nat.pow 2 1024 - Nat.pow 2 970

/-- Digits times a power of ten are too large for a float. -/
def isTooLarge (digits : Text) (exponent : Int) : Bool :=
  let n := ofDigits 10 digits
  -- far from the limit, the power of ten need not be worked out
  if n = 0 then false
  else if 400 < exponent then true
  else if 0 ≤ exponent then floatLimit ≤ n * Nat.pow 10 exponent.toNat
  else if digits.length < -exponent then false
  else floatLimit * Nat.pow 10 (-exponent).toNat ≤ n

/-- The digits after a point, if there is one. -/
def fraction? : Text → Reading Text
  | '.' :: rest => digits? Char.isDigit rest
  | _ => none

/-- An exponent, if there is one. -/
def exponent? : Text → Reading Int
  | [] => none
  | c :: rest =>
    if c = 'e' ∨ c = 'E' then
      (digits? Char.isDigit (sign rest).2).map fun (digits, after) =>
        let n : Int := ofDigits 10 digits
        (if (sign rest).1 then -n else n, after)
    else none

/-- The text after a float written in digits. -/
def decimalFloat? (text : Text) : Option Text :=
  (decimal? (sign text).2).bind fun (whole, rest) =>
    let fraction := (fraction? rest).getD ([], rest)
    let exponent := (exponent? fraction.2).getD (0, fraction.2)
    let digits := whole ++ fraction.1
    if fraction.1 = [] ∧ exponent.2.length = rest.length then none
    else if !(sign text).1 && isTooLarge digits (exponent.1 - fraction.1.length) then none
    else some exponent.2

/-- The text after a float that is no number, or infinite. -/
def namedFloat? (text : Text) : Option Text :=
  match (sign text).2 with
  | 'i' :: 'n' :: 'f' :: rest => some rest
  | 'n' :: 'a' :: 'n' :: rest => some rest
  | _ => none

/-- The text after a float. -/
def float? (text : Text) : Option Text :=
  (decimalFloat? text).or (namedFloat? text)

/-! ## Dates and times -/

/-- A number of a fixed count of digits, within bounds. -/
def field? (count low high : Nat) (text : Text) : Reading Nat :=
  let digits := text.take count
  let n := ofDigits 10 digits
  if digits.length = count ∧ digits.all Char.isDigit ∧ low ≤ n ∧ n ≤ high then
    some (n, text.drop count)
  else none

/-- The text after a mark. -/
def mark? (mark : Char) : Text → Option Text
  | [] => none
  | c :: rest => if c = mark then some rest else none

/-- The number of days in a month. -/
def daysIn (year month : Nat) : Nat :=
  if month = 2 then
    if year % 4 = 0 ∧ (year % 100 ≠ 0 ∨ year % 400 = 0) then 29 else 28
  else if month = 4 ∨ month = 6 ∨ month = 9 ∨ month = 11 then 30
  else 31

/-- The text after a date. -/
def date? (text : Text) : Option Text := do
  let (year, text) ← field? 4 0 9999 text
  let text ← mark? '-' text
  let (month, text) ← field? 2 1 12 text
  let text ← mark? '-' text
  let (_, text) ← field? 2 1 (daysIn year month) text
  return text

/-- The text after an hour and a minute. -/
def hourMinute? (text : Text) : Option Text := do
  let (_, text) ← field? 2 0 23 text
  let text ← mark? ':' text
  let (_, text) ← field? 2 0 59 text
  return text

/-- The text after a time of day. -/
def time? (text : Text) : Option Text := do
  let text ← hourMinute? text
  let text ← mark? ':' text
  let (_, text) ← field? 2 0 60 text
  match text with
  | '.' :: rest =>
    match rest.takeWhile Char.isDigit with
    | [] => none
    | digits => some (rest.drop digits.length)
  | _ => some text

/-- The text after the offset of a time, if there is one. -/
def skipOffset : Text → Text
  | [] => []
  | c :: rest =>
    if c = 'Z' ∨ c = 'z' then rest
    else if c = '+' ∨ c = '-' then (hourMinute? rest).getD (c :: rest)
    else c :: rest

/-- The text after a date, a time of day, or both. -/
def dateTime? (text : Text) : Option Text :=
  match date? text with
  | none => time? text
  | some [] => some []
  | some (c :: rest) =>
    if c = 'T' ∨ c = 't' ∨ c = ' ' then ((time? rest).map skipOffset).or (some (c :: rest))
    else some (c :: rest)

end Highlighter.Toml
