import Highlighter.Text
import Mathlib.Data.List.Basic

/-!
# Pieces, lines and digits of a text

What is needed to read back what was put together: a text is taken apart at the occurrences of a
mark (`splitOn_eq_splitOn`), or at the first of them (`cut?_append`), if the pieces do not hold
the mark themselves, as lines do not hold the line feeds at their ends (`splitOn_ofLines`); and the
digits of a number give back the number (`toNat?_ofNat`).
-/

namespace Highlighter.Text

variable {mark c : Char} {s t : Text}

/-! ## Pieces -/

/-- The pieces of a text are those of a list. -/
theorem splitOn_eq_splitOn (mark : Char) (t : Text) : splitOn mark t = List.splitOn mark t := by
  induction t with
  | nil => rfl
  | cons c t ih =>
    rw [splitOn, List.splitOn_cons_eq_if_modifyHead, ih]
    by_cases h : c = mark
    · simp [h]
    · simp only [h, if_false, beq_iff_eq]
      cases hpieces : List.splitOn mark t with
      | nil => exact absurd hpieces (List.splitOn_ne_nil mark t)
      | cons piece pieces => rfl

/-- A mark at which a text is taken apart is in none of the pieces. -/
theorem not_mem_of_mem_splitOn (h : s ∈ splitOn mark t) : mark ∉ s := by
  induction t generalizing s with
  | nil => simp_all [splitOn]
  | cons c t ih =>
    rw [splitOn] at h
    split at h
    · rcases List.mem_cons.1 h with rfl | h
      · exact List.not_mem_nil
      · exact ih h
    next hc =>
      split at h
      next => simp_all [Ne.symm hc]
      next piece pieces hpieces =>
        rcases List.mem_cons.1 h with rfl | h
        · simp [Ne.symm hc, ih (s := piece) (by simp [hpieces])]
        · exact ih (by simp [hpieces, h])

theorem splitOn_ne_nil (mark : Char) (t : Text) : splitOn mark t ≠ [] := by
  rw [splitOn_eq_splitOn]
  exact List.splitOn_ne_nil mark t

/-- There is one piece more than marks. -/
theorem length_splitOn (mark : Char) (t : Text) :
    (splitOn mark t).length = t.count mark + 1 := by
  induction t with
  | nil => rfl
  | cons c t ih =>
    rw [splitOn]
    split
    next hc => rw [hc, List.length_cons, ih, List.count_cons_self]
    next hc =>
      obtain ⟨piece, pieces, hpieces⟩ := List.exists_cons_of_ne_nil (splitOn_ne_nil mark t)
      rw [hpieces] at ih ⊢
      rw [List.count_cons_of_ne hc, ← ih, List.length_cons, List.length_cons]

/-- The first piece of a text is empty if a mark comes first, or nothing at all. -/
theorem exists_splitOn_eq_cons (mark : Char) (t : Text) :
    ∃ piece pieces, splitOn mark t = piece :: pieces ∧
      (piece = [] ↔ t = [] ∨ t.head? = some mark) := by
  cases t with
  | nil => exact ⟨[], [], rfl, by simp⟩
  | cons c t =>
    rw [splitOn]
    split
    next hc => exact ⟨[], splitOn mark t, rfl, by simp [hc]⟩
    next hc =>
      obtain ⟨piece, pieces, hpieces⟩ := List.exists_cons_of_ne_nil (splitOn_ne_nil mark t)
      exact ⟨c :: piece, pieces, by rw [hpieces], by simp [hc]⟩

/-- The last piece of a text is empty only if it comes after a mark. -/
theorem getLast?_splitOn_ne (hne : t ≠ []) (h : t.getLast? ≠ some mark) :
    (splitOn mark t).getLast? ≠ some [] := by
  induction t with
  | nil => exact absurd rfl hne
  | cons c t ih =>
    cases t with
    | nil =>
      have hc : c ≠ mark := by simpa using h
      simp [splitOn, hc]
    | cons d t =>
      rw [List.getLast?_cons_cons] at h
      have hlast := ih (List.cons_ne_nil d t) h
      obtain ⟨piece, pieces, hpieces⟩ := List.exists_cons_of_ne_nil (splitOn_ne_nil mark (d :: t))
      rw [splitOn, hpieces]
      rw [hpieces] at hlast
      split
      · rwa [List.getLast?_cons_cons]
      · -- the character goes on with the first piece, which may be the last
        cases pieces with
        | nil => simp
        | cons next pieces => rwa [List.getLast?_cons_cons] at hlast ⊢

/-- What stands in a text before the first occurrence of a mark, and what stands after it. -/
def cut? (mark : Char) : Text → Option (Text × Text)
  | [] => none
  | c :: rest =>
    if c = mark then some ([], rest)
    else (cut? mark rest).map fun (before, after) => (c :: before, after)

theorem cut?_append (h : mark ∉ s) (t : Text) : cut? mark (s ++ mark :: t) = some (s, t) := by
  induction s with
  | nil => simp [cut?]
  | cons c s ih =>
    rw [List.mem_cons, not_or] at h
    simp [cut?, Ne.symm h.1, ih h.2]

/-! ## Lines -/

/-- Lines, each with a line feed at its end. -/
def ofLines (lines : List Text) : Text :=
  lines.flatMap (· ++ ['\n'])

theorem ofLines_append (lines others : List Text) :
    ofLines (lines ++ others) = ofLines lines ++ ofLines others :=
  List.flatMap_append

/-- Lines are the pieces of their text, before an empty one. -/
theorem splitOn_ofLines {lines : List Text} (h : ∀ line ∈ lines, '\n' ∉ line) :
    splitOn '\n' (ofLines lines) = lines ++ [[]] := by
  rw [splitOn_eq_splitOn, ofLines]
  induction lines with
  | nil => rfl
  | cons line lines ih =>
    rw [List.flatMap_cons, List.append_assoc, List.singleton_append,
      List.splitOn_append_cons_self_of_not_mem (h line List.mem_cons_self),
      ih fun other hmem => h other (List.mem_cons_of_mem _ hmem), List.cons_append]

/-! ## The UTF-8 form -/

theorem bytes_append (s t : Text) : bytes (s ++ t) = bytes s ++ bytes t :=
  List.flatMap_append

/-! ## Digits -/

/-- The number that decimal digits write. -/
def toNat? (t : Text) : Option Nat :=
  if t ≠ [] ∧ t.all Char.isDigit then some (Nat.ofDigitChars 10 t 0) else none

theorem ofNat_ne_nil (n : Nat) : ofNat n ≠ [] :=
  Nat.toDigits_ne_nil

theorem isDigit_of_mem_ofNat {n : Nat} (h : c ∈ ofNat n) : c.isDigit :=
  Nat.isDigit_of_mem_toDigits (by decide) (by decide) h

theorem exists_ofNat_eq_cons (n : Nat) : ∃ d ds, ofNat n = d :: ds ∧ d.isDigit := by
  obtain ⟨d, ds, hds⟩ := List.exists_cons_of_ne_nil (ofNat_ne_nil n)
  exact ⟨d, ds, hds, isDigit_of_mem_ofNat (n := n) (by simp [hds])⟩

theorem ne_of_isDigit {d : Char} (hc : c.isDigit) (hd : d.isDigit = false) : c ≠ d := by
  rintro rfl
  rw [hc] at hd
  cases hd

theorem ofDigitChars_ofNat (n : Nat) : Nat.ofDigitChars 10 (ofNat n) 0 = n :=
  Nat.ofDigitChars_toDigits (by decide) (by decide)

/-- The digits of a number give it back. -/
theorem toNat?_ofNat (n : Nat) : toNat? (ofNat n) = some n := by
  rw [toNat?, if_pos ⟨ofNat_ne_nil n, List.all_eq_true.2 fun _ => isDigit_of_mem_ofNat⟩,
    ofDigitChars_ofNat]

/-- No zero stands before the other digits of a number. -/
theorem ofNat_eq_or_head_ne (n : Nat) : ofNat n = ['0'] ∨ (ofNat n).head? ≠ some '0' := by
  rw [ofNat]
  induction n using Nat.base_induction 10 (by decide) with
  | single m hm =>
    rw [Nat.toDigits_of_lt_base hm]
    revert m
    decide
  | digit m k hk hm ih =>
    right
    have hne : Nat.toDigits 10 m ≠ ['0'] := fun h => by
      have hzero := ofDigitChars_ofNat m
      rw [ofNat, h] at hzero
      exact Nat.ne_of_gt hm hzero.symm
    rw [← Nat.toDigits_append_toDigits (by decide) hm hk,
      List.head?_append_of_ne_nil _ Nat.toDigits_ne_nil]
    exact ih.resolve_left hne

/-- Digits are read as far as they go. -/
theorem takeWhile_isDigit_ofNat {n : Nat} (h : ∀ d ∈ t.head?, d.isDigit = false) :
    (ofNat n ++ t).takeWhile Char.isDigit = ofNat n ∧
      (ofNat n ++ t).dropWhile Char.isDigit = t := by
  have hdigits : ∀ d ∈ ofNat n, d.isDigit := fun _ => isDigit_of_mem_ofNat
  rw [List.takeWhile_append_of_pos hdigits, List.dropWhile_append_of_pos hdigits]
  cases t with
  | nil => simp
  | cons d t => simp [h d rfl]

/-- A character that is no digit is in no number. -/
theorem not_mem_ofNat (h : c.isDigit = false) (n : Nat) : c ∉ ofNat n := fun hc => by
  rw [isDigit_of_mem_ofNat hc] at h
  cases h

end Highlighter.Text
