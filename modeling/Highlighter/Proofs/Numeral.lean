import Highlighter.Numeral
import Mathlib.Tactic.SplitIfs

/-!
# Where a numeral begins

Whether a text begins with a numeral is told by its first two characters: by a digit, or,
where an expression starts, by a sign or a point with a digit after it (`isSome_width?`).
-/

namespace Highlighter.Numeral

variable {text : Text} {expressionStart : Bool}

theorem digitCount_eq_zero_iff : digitCount text = 0 ↔ ¬text.head?.any Char.isDigit := by
  cases text with
  | nil => simp [digitCount]
  | cons c rest =>
    by_cases h : c.isDigit
    · simp [digitCount, h]
    · simp [digitCount, h]

theorem isSome_decimalWidth? : (decimalWidth? text).isSome ↔ text.head?.any Char.isDigit := by
  rw [decimalWidth?]
  split
  · simpa using digitCount_eq_zero_iff.1 ‹_›
  next h => simpa using mt digitCount_eq_zero_iff.2 (by simp [h])

theorem isSome_pointWidth? :
    (pointWidth? text).isSome ↔ ∃ rest, text = '.' :: rest ∧ rest.head?.any Char.isDigit := by
  rw [pointWidth?.eq_def]
  split
  next rest =>
    simp only [List.cons.injEq, true_and, exists_eq_left']
    split
    · simpa using digitCount_eq_zero_iff.1 ‹_›
    next h => simpa using mt digitCount_eq_zero_iff.2 (by simp [h])
  next h =>
    simp only [Option.isSome_none, Bool.false_eq_true, false_iff]
    rintro ⟨rest, rfl, -⟩
    exact h rest rfl

theorem isSome_signedWidth? :
    (signedWidth? text).isSome ↔ ∃ rest, text = '-' :: rest ∧ rest.head?.any Char.isDigit := by
  rw [signedWidth?.eq_def]
  split
  next rest =>
    simp only [Option.isSome_map, isSome_decimalWidth?, List.cons.injEq, true_and,
      exists_eq_left']
  next h =>
    simp only [Option.isSome_none, Bool.false_eq_true, false_iff]
    rintro ⟨rest, rfl, -⟩
    exact h rest rfl

/-- A hexadecimal number begins with a digit, too. -/
theorem head_of_isSome_hexWidth? (h : (hexWidth? text).isSome) : text.head?.any Char.isDigit := by
  rw [hexWidth?.eq_def] at h
  split at h
  · rfl
  · cases h

/-- A numeral begins with a digit, or, where an expression starts, with a sign or a point that
    has a digit after it. -/
theorem isSome_width? :
    (width? expressionStart text).isSome ↔ text.head?.any Char.isDigit ∨
      expressionStart ∧ ∃ c rest, text = c :: rest ∧ (c = '-' ∨ c = '.') ∧
        rest.head?.any Char.isDigit := by
  rw [width?, Option.isSome_or, Option.isSome_or, Option.isSome_or]
  constructor
  · intro h
    simp only [Bool.or_eq_true] at h
    rcases h with h | h | h | h
    · exact .inl (head_of_isSome_hexWidth? h)
    · split_ifs at h with hs
      · obtain ⟨rest, rfl, hd⟩ := isSome_signedWidth?.1 h
        exact .inr ⟨hs, _, _, rfl, .inl rfl, hd⟩
      · cases h
    · exact .inl (isSome_decimalWidth?.1 h)
    · split_ifs at h with hs
      · obtain ⟨rest, rfl, hd⟩ := isSome_pointWidth?.1 h
        exact .inr ⟨hs, _, _, rfl, .inr rfl, hd⟩
      · cases h
  · rintro (h | ⟨hs, c, rest, rfl, rfl | rfl, hd⟩)
    · simp [isSome_decimalWidth?.2 h]
    · simp [hs, isSome_signedWidth?.2 ⟨rest, rfl, hd⟩]
    · simp [hs, isSome_pointWidth?.2 ⟨rest, rfl, hd⟩]

end Highlighter.Numeral
