import Highlighter.Listing.Json
import Highlighter.Toml.Lexical

/-!
# Reading JSON

What JSON says of a text, whoever wrote it: `Json.read?` gives the value that a text is, or nothing
if it is none.

* Blanks and line ends may stand around every value and between its parts.
* A string holds no control character, and its escapes are the short ones or `\u` with four digits
  to the base sixteen. A character outside the basic plane may be written by two of these, a high
  surrogate and a low one; neither of them stands alone.
* A number has no zeros in front and digits on both sides of a point. One that has a fraction or an
  exponent is kept as it is written.
* The members of an object are kept in order.
-/

namespace Highlighter.Json

/-- A value of JSON. -/
inductive Value where
  | null
  | boolean (b : Bool)
  | integer (n : Int)
  /-- A number with a fraction or an exponent. -/
  | decimal (text : Text)
  | string (text : Text)
  | array (items : List Value)
  | object (members : List (Text × Value))

/-- What is read at the beginning of a text, with what remains, if anything is read. -/
abbrev Reading (α : Type) := Option (α × Text)

/-- A character that may stand around values. -/
def isSpace (c : Char) : Bool :=
  c == ' ' || c == '\t' || c == '\n' || c == '\r'

/-- The text after the blanks at its beginning. -/
def skipSpaces (text : Text) : Text :=
  text.dropWhile isSpace

/-! ## Strings -/

/-- The characters with an escape of their own, each after what stands for it. -/
def shortEscapes : List (Char × Char) :=
  [('"', '"'), ('\\', '\\'), ('/', '/'), ('b', '\x08'), ('f', '\x0c'), ('n', '\n'), ('r', '\r'),
    ('t', '\t')]

/-- The number that four digits to the base sixteen write. -/
def codeUnit? (text : Text) : Reading Nat :=
  let digits := text.take 4
  if digits.length = 4 ∧ digits.all isHexDigit then
    some (Toml.ofDigits 16 digits, text.drop 4)
  else none

/-- The character of two surrogates. -/
def ofSurrogates (high low : Nat) : Char :=
  Char.ofNat (0x10000 + (high - 0xD800) * 0x400 + (low - 0xDC00))

/-- A character by its code units. -/
def codePoint? (text : Text) : Reading Char :=
  (codeUnit? text).bind fun (unit, rest) =>
    if unit.isValidChar then some (Char.ofNat unit, rest)
    else
      match rest with
      | '\\' :: 'u' :: after =>
        (codeUnit? after).bind fun (low, r) =>
          if unit < 0xDC00 ∧ 0xDC00 ≤ low ∧ low < 0xE000 then some (ofSurrogates unit low, r)
          else none
      | _ => none

/-- What follows an escape mark. -/
def escape? : Text → Reading Char
  | [] => none
  | c :: rest =>
    match shortEscapes.lookup c with
    | some escaped => some (escaped, rest)
    | none => if c = 'u' then codePoint? rest else none

theorem length_codeUnit?_le {text rest : Text} {unit : Nat}
    (h : codeUnit? text = some (unit, rest)) : rest.length ≤ text.length := by
  rw [codeUnit?] at h
  split at h
  · obtain ⟨-, rfl⟩ := Prod.mk.inj (Option.some.inj h)
    simp
  · cases h

theorem length_codePoint?_le {text rest : Text} {c : Char}
    (h : codePoint? text = some (c, rest)) : rest.length ≤ text.length := by
  obtain ⟨⟨unit, after⟩, hunit, h⟩ := Option.bind_eq_some_iff.1 h
  have hafter := length_codeUnit?_le hunit
  dsimp only at h
  split at h
  · obtain ⟨-, rfl⟩ := Prod.mk.inj (Option.some.inj h)
    exact hafter
  split at h
  next last =>
    obtain ⟨⟨low, r⟩, hlow, h⟩ := Option.bind_eq_some_iff.1 h
    have hlast := length_codeUnit?_le hlow
    dsimp only at h
    split at h
    · obtain ⟨-, rfl⟩ := Prod.mk.inj (Option.some.inj h)
      simp only [List.length_cons] at hafter
      omega
    · cases h
  · cases h

/-- An escape has characters. -/
theorem length_escape?_lt {text rest : Text} {c : Char} (h : escape? text = some (c, rest)) :
    rest.length < text.length := by
  cases text with
  | nil => cases h
  | cons a text =>
    refine Nat.lt_succ_of_le ?_
    rw [escape?] at h
    split at h
    · obtain ⟨-, rfl⟩ := Prod.mk.inj (Option.some.inj h)
      exact Nat.le_refl _
    split at h
    · exact length_codePoint?_le h
    · cases h

/-- The rest of a string after its opening quote. -/
def string? (text : Text) : Reading Text :=
  match text with
  | [] => none
  | c :: rest =>
    if c = '"' then some ([], rest)
    else if c = '\\' then
      match _h : escape? rest with
      | some (escaped, after) => (string? after).map fun (s, r) => (escaped :: s, r)
      | none => none
    else if 0x20 ≤ c.toNat then (string? rest).map fun (s, r) => (c :: s, r)
    else none
termination_by text.length
decreasing_by
  · have := length_escape?_lt ‹_›
    simp
    omega
  · simp

/-! ## Numbers -/

/-- Digits. -/
def digits? (text : Text) : Reading Text :=
  match text.takeWhile Char.isDigit with
  | [] => none
  | digits => some (digits, text.dropWhile Char.isDigit)

/-- The digits before the point of a number: no zero stands before others. -/
def whole? : Text → Reading Text
  | '0' :: rest => some (['0'], rest)
  | text => digits? text

/-- The text after a fraction, if there is one. -/
def skipFraction? : Text → Option Text
  | '.' :: rest => (digits? rest).map Prod.snd
  | text => some text

/-- A text without the sign at its beginning, if it has one. -/
def skipSign : Text → Text
  | '+' :: rest => rest
  | '-' :: rest => rest
  | text => text

/-- The text after an exponent, if there is one. -/
def skipExponent? : Text → Option Text
  | [] => some []
  | c :: rest =>
    if c = 'e' ∨ c = 'E' then (digits? (skipSign rest)).map Prod.snd else some (c :: rest)

/-- A number without sign: the value of its digits where it has no more than these. -/
def unsigned? (text : Text) : Reading (Option Nat) :=
  (whole? text).bind fun (digits, rest) =>
    ((skipFraction? rest).bind skipExponent?).map fun after =>
      (if after = rest then some (Nat.ofDigitChars 10 digits 0) else none, after)

/-- A number. -/
def number? (text : Text) : Reading Value :=
  let written (rest : Text) := text.take (text.length - rest.length)
  match text with
  | '-' :: digits =>
    (unsigned? digits).map fun (n?, rest) =>
      (n?.elim (.decimal (written rest)) fun n => .integer (-n), rest)
  | digits =>
    (unsigned? digits).map fun (n?, rest) =>
      (n?.elim (.decimal (written rest)) fun n => .integer n, rest)

/-! ## Values -/

mutual

/-- A value, read in at most so many steps. -/
def valueWithin? : Nat → Text → Reading Value
  | 0, _ => none
  | steps + 1, text =>
    match text with
    | 'n' :: 'u' :: 'l' :: 'l' :: rest => some (.null, rest)
    | 't' :: 'r' :: 'u' :: 'e' :: rest => some (.boolean true, rest)
    | 'f' :: 'a' :: 'l' :: 's' :: 'e' :: rest => some (.boolean false, rest)
    | '"' :: rest => (string? rest).map fun (s, r) => (.string s, r)
    | '[' :: rest =>
      match skipSpaces rest with
      | ']' :: after => some (.array [], after)
      | inside => (itemsWithin? steps inside).map fun (items, r) => (.array items, r)
    | '\x7b' :: rest =>
      match skipSpaces rest with
      | '\x7d' :: after => some (.object [], after)
      | inside => (membersWithin? steps inside).map fun (members, r) => (.object members, r)
    | _ => number? text

/-- The items of an array, from where one begins. -/
def itemsWithin? : Nat → Text → Reading (List Value)
  | 0, _ => none
  | steps + 1, text =>
    match valueWithin? steps text with
    | none => none
    | some (item, after) =>
      match skipSpaces after with
      | ']' :: rest => some ([item], rest)
      | ',' :: rest =>
        (itemsWithin? steps (skipSpaces rest)).map fun (items, r) => (item :: items, r)
      | _ => none

/-- The members of an object, from where one begins. -/
def membersWithin? : Nat → Text → Reading (List (Text × Value))
  | 0, _ => none
  | steps + 1, text =>
    match text with
    | '"' :: inside =>
      match string? inside with
      | none => none
      | some (key, afterKey) =>
        match skipSpaces afterKey with
        | ':' :: beforeValue =>
          match valueWithin? steps (skipSpaces beforeValue) with
          | none => none
          | some (value, after) =>
            match skipSpaces after with
            | '\x7d' :: rest => some ([(key, value)], rest)
            | ',' :: rest =>
              (membersWithin? steps (skipSpaces rest)).map fun (members, r) =>
                ((key, value) :: members, r)
            | _ => none
        | _ => none
    | _ => none

end

/-- The value that a text is, which may have blanks around it. -/
def read? (text : Text) : Option Value :=
  match valueWithin? (2 * text.length) (skipSpaces text) with
  | some (value, rest) => if skipSpaces rest = [] then some value else none
  | none => none

end Highlighter.Json
