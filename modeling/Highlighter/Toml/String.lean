import Highlighter.Toml.Lexical

/-!
# Strings of TOML

A string is written in one of four ways. In double quotes (a *basic* string) it may
hold escapes; in single quotes (a *literal* string) every character stands for itself.
With three quotes at both ends it may go on over several lines; a line end right after
the opening quotes is no part of it, and up to two quotes may stand before the closing
ones. In a basic string of several lines an escape mark at the end of a line takes away
the line end with the blanks and line ends after it.
-/

namespace Highlighter.Toml

/-! ## Escapes -/

/-- The character of a code point. -/
def charOfCode? (code : Nat) : Option Char :=
  if code.isValidChar then some (Char.ofNat code) else none

/-- A character by the digits of its code point. -/
def codePoint? (count : Nat) (text : Text) : Reading Char :=
  let digits := text.take count
  if digits.length = count ∧ digits.all isHexDigit then
    (charOfCode? (ofDigits 16 digits)).map fun c => (c, text.drop count)
  else none

/-- The characters with an escape of their own, each after what stands for it. -/
def shortEscapes : List (Char × Char) :=
  [('b', '\x08'), ('t', '\t'), ('n', '\n'), ('f', '\x0c'), ('r', '\r'), ('"', '"'), ('\\', '\\')]

/-- What follows an escape mark. -/
def escape? : Text → Reading Char
  | [] => none
  | c :: rest =>
    match shortEscapes.lookup c with
    | some escaped => some (escaped, rest)
    | none =>
      if c = 'u' then codePoint? 4 rest else if c = 'U' then codePoint? 8 rest else none

theorem length_codePoint?_le {count : Nat} {text rest : Text} {c : Char}
    (h : codePoint? count text = some (c, rest)) : rest.length ≤ text.length := by
  simp only [codePoint?] at h
  split at h
  · obtain ⟨a, -, ha⟩ := Option.map_eq_some_iff.1 h
    obtain ⟨-, rfl⟩ := Prod.mk.inj ha
    simp
  · simp at h

/-- An escape has characters. -/
theorem length_escape?_lt {text rest : Text} {c : Char} (h : escape? text = some (c, rest)) :
    rest.length < text.length := by
  cases text with
  | nil => simp [escape?] at h
  | cons a text =>
    refine Nat.lt_succ_of_le ?_
    rw [escape?] at h
    split at h
    · obtain ⟨-, rfl⟩ := Prod.mk.inj (Option.some.inj h)
      exact Nat.le_refl _
    split at h
    · exact length_codePoint?_le h
    split at h
    · exact length_codePoint?_le h
    · simp at h

/-! ## On one line -/

/-- The rest of a basic string after its opening quote. -/
def basic? (text : Text) : Reading Text :=
  match text with
  | [] => none
  | c :: rest =>
    if c = '"' then some ([], rest)
    else if c = '\\' then
      match _h : escape? rest with
      | some (escaped, after) => (basic? after).map fun (s, r) => (escaped :: s, r)
      | none => none
    else if isPlain c then (basic? rest).map fun (s, r) => (c :: s, r)
    else none
termination_by text.length
decreasing_by
  · have := length_escape?_lt ‹_›
    simp
    omega
  · simp

/-- The rest of a literal string after its opening quote. -/
def literal? : Text → Reading Text
  | [] => none
  | c :: rest =>
    if c = '\'' then some ([], rest)
    else if isPlain c then (literal? rest).map fun (s, r) => (c :: s, r)
    else none

/-! ## On several lines -/

/-- A text without the line end at its beginning, if it has one. -/
def skipNewline (text : Text) : Text :=
  (newline? text).getD text

/-- The closing quotes of a string of several lines, with up to two quotes before them
    that belong to it. -/
def closing? (quote : Char) (text : Text) : Reading Text :=
  let run := (text.takeWhile (· == quote)).length
  if 3 ≤ run then
    let kept := min (run - 3) 2
    some (List.replicate kept quote, text.drop (kept + 3))
  else none

/-- The text after the blanks and line ends that an escape mark takes away. -/
def skipFolded : Text → Text
  | [] => []
  | c :: rest =>
    if isSpace c || c == '\n' || (c == '\r' && rest.head? == some '\n') then skipFolded rest
    else c :: rest

theorem length_skipFolded_le (text : Text) : (skipFolded text).length ≤ text.length := by
  induction text with
  | nil => simp [skipFolded]
  | cons c rest ih =>
    unfold skipFolded
    split
    · exact Nat.le_succ_of_le ih
    · exact Nat.le_refl _

/-- The rest of a basic string of several lines after its opening quotes. -/
def basicLines? (text : Text) : Reading Text :=
  match text with
  | [] => none
  | c :: rest =>
    match closing? '"' (c :: rest) with
    | some closed => some closed
    | none =>
      if c = '\\' then
        -- an escape mark at the end of a line, where blanks do not count
        if (newline? (skipSpaces rest)).isSome then basicLines? (skipFolded rest)
        else
          match _h : escape? rest with
          | some (escaped, after) => (basicLines? after).map fun (s, r) => (escaped :: s, r)
          | none => none
      else if c = '\r' ∧ rest.head? = some '\n' then basicLines? rest
      else if isPlain c ∨ c = '\n' then (basicLines? rest).map fun (s, r) => (c :: s, r)
      else none
termination_by text.length
decreasing_by
  · exact Nat.lt_succ_of_le (length_skipFolded_le rest)
  · have := length_escape?_lt ‹_›
    simp
    omega
  · simp
  · simp

/-- The rest of a literal string of several lines after its opening quotes. -/
def literalLines? (text : Text) : Reading Text :=
  match text with
  | [] => none
  | c :: rest =>
    match closing? '\'' (c :: rest) with
    | some closed => some closed
    | none =>
      if c = '\r' ∧ rest.head? = some '\n' then literalLines? rest
      else if isPlain c ∨ c = '\n' then (literalLines? rest).map fun (s, r) => (c :: s, r)
      else none

/-! ## All of them -/

/-- A string on one line. -/
def lineString? : Text → Reading Text
  | '"' :: rest => basic? rest
  | '\'' :: rest => literal? rest
  | _ => none

/-- A string. -/
def string? : Text → Reading Text
  | '"' :: '"' :: '"' :: rest => basicLines? (skipNewline rest)
  | '\'' :: '\'' :: '\'' :: rest => literalLines? (skipNewline rest)
  | text => lineString? text

end Highlighter.Toml
