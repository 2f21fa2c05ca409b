import Highlighter.Cursor

/-!
# Cursors and positions

A cursor divides its line into what is passed and what remains, and its position is where
the line is divided, in bytes. So the position gives back what remains
(`dropBytes?_position`), and the positions before and after a movement give back what the
movement took (`slice?_advanceBy`).
-/

namespace Highlighter

/-! ## Cutting a text in two -/

namespace Text

theorem dropBytes?_append (s t : Text) : dropBytes? (byteLength s) (s ++ t) = some t := by
  induction s with
  | nil => exact dropBytes?.eq_1 t
  | cons c s ih =>
    obtain ⟨n, hn⟩ := Nat.exists_eq_succ_of_ne_zero (Nat.ne_of_gt c.utf8Size_pos)
    rw [byteLength_cons, List.cons_append, hn, Nat.succ_add, dropBytes?, if_pos (by omega), ← ih]
    congr 1
    omega

theorem takeBytes?_append (s t : Text) : takeBytes? (byteLength s) (s ++ t) = some s := by
  induction s with
  | nil => exact takeBytes?.eq_1 t
  | cons c s ih =>
    obtain ⟨n, hn⟩ := Nat.exists_eq_succ_of_ne_zero (Nat.ne_of_gt c.utf8Size_pos)
    rw [byteLength_cons, List.cons_append, hn, Nat.succ_add, takeBytes?, if_pos (by omega),
      show n + byteLength s + 1 - c.utf8Size = byteLength s by omega, ih, Option.map_some]

/-- The middle of a text is found between its positions. -/
theorem slice?_append (s t u : Text) :
    slice? (byteLength s) (byteLength s + byteLength t) (s ++ (t ++ u)) = some t := by
  rw [slice?, if_pos (Nat.le_add_right ..), dropBytes?_append, Option.bind_some,
    Nat.add_sub_cancel_left, takeBytes?_append]

theorem byteLength_pos {t : Text} (h : t ≠ []) : 0 < byteLength t := by
  obtain ⟨c, rest, rfl⟩ := List.exists_cons_of_ne_nil h
  exact Nat.add_pos_left c.utf8Size_pos _

/-- The characters of a class at the beginning of a text, and what comes after them. -/
theorem take_length_takeWhile (isIn : Char → Bool) (t : Text) :
    t.take (t.takeWhile isIn).length = t.takeWhile isIn ∧
      t.drop (t.takeWhile isIn).length = t.dropWhile isIn := by
  have htake := @List.take_left _ (t.takeWhile isIn) (t.dropWhile isIn)
  have hdrop := @List.drop_left _ (t.takeWhile isIn) (t.dropWhile isIn)
  rw [List.takeWhile_append_dropWhile] at htake hdrop
  exact ⟨htake, hdrop⟩

theorem byteLength_takeWhile {isIn : Char → Bool} (h : ∀ c, isIn c → c.utf8Size = 1) (t : Text) :
    byteLength (t.takeWhile isIn) = (t.takeWhile isIn).length := by
  induction t with
  | nil => rfl
  | cons c t ih =>
    by_cases hc : isIn c
    · rw [List.takeWhile_cons_of_pos hc, byteLength_cons, h c hc, ih, List.length_cons,
        Nat.add_comm]
    · rw [List.takeWhile_cons_of_neg hc]
      rfl

/-- Characters of single bytes may be cut off a text by their number. -/
theorem dropBytes?_length_takeWhile {isIn : Char → Bool} (h : ∀ c, isIn c → c.utf8Size = 1)
    (t : Text) :
    dropBytes? (t.takeWhile isIn).length t = some (t.drop (t.takeWhile isIn).length) := by
  have hcut := dropBytes?_append (t.takeWhile isIn) (t.dropWhile isIn)
  rwa [List.takeWhile_append_dropWhile, byteLength_takeWhile h,
    ← (take_length_takeWhile isIn t).2] at hcut

end Text

namespace Cursor

/-! ## Positions -/

theorem position_eq_byteLength (cursor : Cursor) :
    cursor.position = Text.byteLength cursor.passed.reverse := by
  rw [cursor.position_eq, Text.byteLength_reverse]

/-- What remains is found at the position of the cursor. -/
theorem dropBytes?_position (cursor : Cursor) :
    Text.dropBytes? cursor.position cursor.line = some cursor.rest := by
  rw [position_eq_byteLength, line, Text.dropBytes?_append]

theorem byteLength_line (cursor : Cursor) :
    Text.byteLength cursor.line = cursor.position + Text.byteLength cursor.rest := by
  rw [line, Text.byteLength_append, ← position_eq_byteLength]

/-- What a movement takes is found between the positions before and after it. -/
theorem slice?_advanceBy (cursor : Cursor) (count : Nat) :
    Text.slice? cursor.position (cursor.advanceBy count).position cursor.line =
      some (cursor.rest.take count) := by
  have h := Text.slice?_append cursor.passed.reverse (cursor.rest.take count)
    (cursor.rest.drop count)
  rwa [List.take_append_drop, ← position_eq_byteLength, ← position_advanceBy] at h

/-! ## Movements one after the other -/

@[simp] theorem advanceBy_zero (cursor : Cursor) : cursor.advanceBy 0 = cursor := rfl

/-- A cursor is the place between the characters before and after it. -/
theorem eq_of_passed_of_rest {cursor cursor' : Cursor} (hp : cursor.passed = cursor'.passed)
    (hr : cursor.rest = cursor'.rest) : cursor = cursor' := by
  have hposition : cursor.position = cursor'.position := by
    rw [cursor.position_eq, cursor'.position_eq, hp]
  cases cursor
  cases cursor'
  rw [Cursor.mk.injEq]
  exact ⟨hp, hr, hposition⟩

theorem advanceBy_advanceBy (cursor : Cursor) (m n : Nat) :
    (cursor.advanceBy m).advanceBy n = cursor.advanceBy (m + n) := by
  apply eq_of_passed_of_rest
  · simp only [advanceBy, passed_pass, rest_pass, ← List.append_assoc, ← List.reverse_append,
      ← List.take_add]
  · simp only [rest_advanceBy, List.drop_drop]

theorem skipToEnd_advanceBy (cursor : Cursor) (count : Nat) :
    (cursor.advanceBy count).skipToEnd = cursor.skipToEnd := by
  apply eq_of_passed_of_rest
  · simp only [skipToEnd, advanceBy, passed_pass, rest_pass, List.take_length,
      ← List.append_assoc, ← List.reverse_append, List.take_append_drop]
  · simp only [skipToEnd, rest_advanceBy, List.drop_length]

/-- At the end of the line, there is nothing to pass. -/
theorem advanceBy_of_rest_eq_nil {cursor : Cursor} (hr : cursor.rest = []) (count : Nat) :
    cursor.advanceBy count = cursor := by
  apply eq_of_passed_of_rest
  · simp only [advanceBy, passed_pass, hr, List.take_nil, List.reverse_nil, List.nil_append]
  · rw [rest_advanceBy, hr, List.drop_nil]

/-! ## Blanks -/

theorem line_skipBlanks (cursor : Cursor) : cursor.skipBlanks.line = cursor.line :=
  line_advanceBy ..

theorem rest_skipBlanks (cursor : Cursor) :
    cursor.skipBlanks.rest = cursor.rest.dropWhile isBlank :=
  (rest_advanceBy ..).trans (Text.take_length_takeWhile isBlank cursor.rest).2

theorem position_skipBlanks (cursor : Cursor) :
    cursor.skipBlanks.position =
      cursor.position + Text.byteLength (cursor.rest.takeWhile isBlank) := by
  rw [← (Text.take_length_takeWhile isBlank cursor.rest).1]
  exact position_advanceBy ..

/-- Where no blank comes next, none is passed. -/
theorem skipBlanks_of_not_isBlank {cursor : Cursor} {c : Char} {rest : Text}
    (hr : cursor.rest = c :: rest) (hc : ¬isBlank c) : cursor.skipBlanks = cursor := by
  simp [skipBlanks, takeWhile, hr, hc]

/-- Passing blanks takes nothing only where none comes next. -/
theorem position_skipBlanks_eq_iff {cursor : Cursor} {c : Char} {rest : Text}
    (hr : cursor.rest = c :: rest) :
    cursor.skipBlanks.position = cursor.position ↔ ¬isBlank c := by
  constructor
  · intro h hc
    have := c.utf8Size_pos
    rw [skipBlanks, takeWhile, position_advanceBy, hr, List.takeWhile_cons_of_pos hc,
      List.length_cons, List.take_succ_cons, Text.byteLength_cons] at h
    omega
  · intro hc
    rw [skipBlanks_of_not_isBlank hr hc]

end Cursor

end Highlighter
