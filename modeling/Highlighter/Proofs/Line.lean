import Highlighter.Line
import Highlighter.Proofs.Text

/-!
# Lines and their text

A text is taken apart into its lines, and lines are put together into a text. Neither undoes
the other for all there is, since a line loses a carriage return at its end:

* `joinLines_splitLines`: the lines of a text make up the text without the carriage returns
  that stand at the end of a line (`dropReturns`);
* `splitLines_joinLines_iff`: lines are those of the text that they make up if there are any,
  none of them holds a line feed, and none ends in a carriage return.
-/

namespace Highlighter

variable {c : Char} {line text : Text} {lines : List Text}

/-- A text without the carriage returns that stand right before a line feed or at its end. -/
def dropReturns : Text → Text
  | [] => []
  | c :: rest =>
    if c = '\r' ∧ (rest = [] ∨ rest.head? = some '\n') then dropReturns rest
    else c :: dropReturns rest

/-! ## From a text to its lines -/

theorem splitLines_ne_nil (text : Text) : splitLines text ≠ [] :=
  mt List.map_eq_nil_iff.1 (Text.splitOn_ne_nil '\n' text)

/-- There is one line more than line feeds. -/
theorem length_splitLines (text : Text) : (splitLines text).length = text.count '\n' + 1 := by
  rw [splitLines, List.length_map, Text.length_splitOn]

/-- No line of a text holds a line feed. -/
theorem newline_not_mem_of_mem_splitLines (h : line ∈ splitLines text) : '\n' ∉ line := by
  obtain ⟨piece, hpiece, rfl⟩ := List.mem_map.1 h
  have hnot := Text.not_mem_of_mem_splitOn hpiece
  rw [stripReturn]
  split
  · exact fun hmem => hnot (List.dropLast_subset _ hmem)
  · exact hnot

/-- Only the last character of a line may be taken away. -/
theorem stripReturn_cons (h : ¬(c = '\r' ∧ line = [])) :
    stripReturn (c :: line) = c :: stripReturn line := by
  cases line with
  | nil =>
    have hc : c ≠ '\r' := fun hc => h ⟨hc, rfl⟩
    simp [stripReturn, hc]
  | cons d line =>
    rw [stripReturn, stripReturn, List.getLast?_cons_cons, List.dropLast_cons_cons,
      apply_ite (c :: ·)]

theorem joinLines_cons (line : Text) (h : lines ≠ []) :
    joinLines (line :: lines) = line ++ '\n' :: joinLines lines := by
  obtain ⟨next, lines, rfl⟩ := List.exists_cons_of_ne_nil h
  rw [joinLines, List.intercalate_cons_cons, List.append_assoc]
  rfl

/-- A character goes on with the first of the lines that come after it. -/
theorem joinLines_cons_append (c : Char) (line : Text) (lines : List Text) :
    joinLines ((c :: line) :: lines) = c :: joinLines (line :: lines) := by
  cases lines with
  | nil => rfl
  | cons next lines =>
    rw [joinLines_cons _ (List.cons_ne_nil _ _), joinLines_cons _ (List.cons_ne_nil _ _)]
    rfl

/-- The lines of a text make it up again, but for the carriage returns at their ends. -/
theorem joinLines_splitLines (text : Text) : joinLines (splitLines text) = dropReturns text := by
  induction text with
  | nil => rfl
  | cons c text ih =>
    by_cases hc : c = '\n'
    · subst hc
      have hlines : splitLines ('\n' :: text) = [] :: splitLines text := by
        rw [splitLines, Text.splitOn, if_pos rfl]
        rfl
      rw [dropReturns, if_neg (by simp), ← ih, hlines, joinLines_cons _ (splitLines_ne_nil text),
        List.nil_append]
    · obtain ⟨piece, pieces, hpieces, hempty⟩ := Text.exists_splitOn_eq_cons '\n' text
      have hlines : splitLines text = stripReturn piece :: pieces.map stripReturn := by
        rw [splitLines, hpieces, List.map_cons]
      have hcons : splitLines (c :: text) =
          stripReturn (c :: piece) :: pieces.map stripReturn := by
        rw [splitLines, Text.splitOn, if_neg hc, hpieces, List.map_cons]
      rw [hlines] at ih
      rw [hcons, dropReturns, ← ih]
      by_cases hreturn : c = '\r' ∧ piece = []
      · rw [if_pos ⟨hreturn.1, hempty.1 hreturn.2⟩, hreturn.1, hreturn.2]
        rfl
      · rw [if_neg fun h => hreturn ⟨h.1, hempty.2 h.2⟩, stripReturn_cons hreturn,
          joinLines_cons_append]

example : joinLines (splitLines "a\r\r\nb\r".toList) = "a\r\nb".toList := by decide

/-! ## From lines to their text -/

theorem stripReturn_eq_self_iff : stripReturn line = line ↔ line.getLast? ≠ some '\r' := by
  rw [stripReturn]
  constructor
  · intro h hlast
    rw [if_pos hlast] at h
    have hlength := congrArg List.length h
    have hne : line ≠ [] := by
      rintro rfl
      cases hlast
    have := List.length_pos_iff.2 hne
    rw [List.length_dropLast] at hlength
    omega
  · exact fun h => if_neg h

/-- The lines of the text that some lines make up are these lines, each without a carriage return
    at its end, as long as none of them holds a line feed. -/
theorem splitLines_joinLines (hne : lines ≠ []) (h : ∀ line ∈ lines, '\n' ∉ line) :
    splitLines (joinLines lines) = lines.map stripReturn := by
  rw [splitLines, Text.splitOn_eq_splitOn, joinLines, List.splitOn_intercalate '\n' h hne]

/-- Lines are those of the text that they make up just if they are lines of a text and no carriage
    return is lost at their ends. -/
theorem splitLines_joinLines_iff :
    splitLines (joinLines lines) = lines ↔
      lines ≠ [] ∧ ∀ line ∈ lines, '\n' ∉ line ∧ line.getLast? ≠ some '\r' := by
  constructor
  · intro h
    have hne : lines ≠ [] := h ▸ splitLines_ne_nil _
    have hfeed : ∀ line ∈ lines, '\n' ∉ line := fun line hmem =>
      newline_not_mem_of_mem_splitLines (h.symm ▸ hmem)
    rw [splitLines_joinLines hne hfeed] at h
    have hstrip := List.map_inj_left.1 (h.trans (List.map_id lines).symm)
    exact ⟨hne, fun line hmem => ⟨hfeed line hmem, stripReturn_eq_self_iff.1 (hstrip line hmem)⟩⟩
  · rintro ⟨hne, h⟩
    rw [splitLines_joinLines hne fun line hmem => (h line hmem).1]
    refine Eq.trans (List.map_congr_left fun line hmem => ?_) (List.map_id lines)
    exact stripReturn_eq_self_iff.2 (h line hmem).2

end Highlighter
