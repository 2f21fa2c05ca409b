import Highlighter.Character

/-!
# String literals

A *literal* is opened by a run of escape marks followed by a quote, and closed by
the same quote followed by a run of the same length: the longer the run, the more
may stand inside. In a literal with double quotes a run of escape marks (of the
length of the opening one, but at least one mark) takes the character after it into
the literal, whatever it is; a literal in backticks has no escapes.

A literal may go on over several lines. What a line holds of it is found by walking
over the characters: first the closing sequence is tried, then the escape, and
otherwise one character goes by (`Literal.widthWithin?`).
-/

namespace Highlighter

/-- The characters that begin and end literals. -/
inductive Quote where
  | double
  | backtick
deriving DecidableEq

namespace Quote

/-- The quote itself. -/
def char : Quote → Char
  | double => '"'
  | backtick => '`'

/-- The quote that a character is, if it is one. -/
def ofChar? (c : Char) : Option Quote :=
  if c = '"' then some double else if c = '`' then some backtick else none

end Quote

/-- A kind of string literal: its quote and the number of escape marks around it. -/
structure Literal where
  quote : Quote
  escapeRun : Nat
deriving DecidableEq

namespace Literal

/-- A literal in which nothing is escaped. -/
def isRaw (l : Literal) : Bool :=
  l.quote == .backtick

/-- What closes the literal. -/
def closing (l : Literal) : Text :=
  l.quote.char :: List.replicate l.escapeRun escapeMark

/-- What takes the next character into the literal, if anything does. -/
def escape? (l : Literal) : Option Text :=
  match l.quote with
  | .double => some (List.replicate (max l.escapeRun 1) escapeMark)
  | .backtick => none

/-! ### Opening -/

/-- The length of the run of escape marks at the beginning of a text. -/
def runLength (text : Text) : Nat :=
  (text.takeWhile (· == escapeMark)).length

/-- The literal that a text opens, if it begins with one. -/
def open? (text : Text) : Option Literal :=
  (((text.drop (runLength text)).head?).bind Quote.ofChar?).map fun quote =>
    ⟨quote, runLength text⟩

/-- A text begins with a literal. -/
def opensIn (text : Text) : Bool :=
  (open? text).isSome

/-- The number of characters that open the literal. -/
def openingWidth (l : Literal) : Nat :=
  l.escapeRun + 1

/-! ### Closing -/

/-- How many characters the first character of a text takes along: those of the
    escape it begins and the one escaped, and none if it begins no escape. -/
def takenAlong (l : Literal) (text : Text) : Nat :=
  match l.escape? with
  | some mark => if mark.isPrefixOf text then mark.length else 0
  | none => 0

/-- The number of characters up to the end of the closing sequence, if the literal
    is closed in the text; the first `taken` characters are part of an escape. -/
def widthAfter? (l : Literal) : Nat → Text → Option Nat
  | _, [] => none
  -- a character taken along is passed whatever it is, so it closes nothing
  | taken + 1, _ :: rest => (l.widthAfter? taken rest).map (· + 1)
  | 0, c :: rest =>
    if l.closing.isPrefixOf (c :: rest) then some l.closing.length
    else (l.widthAfter? (l.takenAlong (c :: rest)) rest).map (· + 1)

/-- The number of characters of a text that belong to a literal which is open where
    the text begins, if the literal is closed in it. -/
def widthWithin? (l : Literal) (text : Text) : Option Nat :=
  l.widthAfter? 0 text

theorem closing_length (l : Literal) : l.closing.length = l.escapeRun + 1 := by
  simp [closing]

theorem ne_nil_of_escape? {l : Literal} {mark : Text} (h : l.escape? = some mark) : mark ≠ [] := by
  rw [escape?] at h
  split at h
  · obtain rfl := Option.some.inj h
    exact List.ne_nil_of_length_pos (by rw [List.length_replicate]; omega)
  · cases h

/-- A literal is closed by at least one character. -/
theorem widthAfter?_pos {l : Literal} {taken : Nat} {text : Text} {width : Nat}
    (h : l.widthAfter? taken text = some width) : 0 < width := by
  induction text generalizing taken width with
  | nil => cases taken <;> simp [widthAfter?] at h
  | cons c rest ih =>
    cases taken with
    | succ taken =>
      obtain ⟨n, -, rfl⟩ := Option.map_eq_some_iff.1 h
      omega
    | zero =>
      rw [widthAfter?] at h
      split at h
      · obtain rfl := Option.some.inj h
        simp [closing_length]
      · obtain ⟨n, -, rfl⟩ := Option.map_eq_some_iff.1 h
        omega

end Literal

end Highlighter
