import Highlighter.Proofs.Lexeme.Recognized
import Mathlib.Tactic.SplitIfs

/-!
# How far a lexeme looks ahead

A lexeme may depend on more of the text than it takes: a mark on the character after it, a
word on the first characters of an argument. But a quote always begins or ends a literal, and a
blank is part of nothing else, so numbers, words and operators end before them (`Breaks`), and
none of those that are taken before a quote looks further than that (`next_append`).

The recognizers are taken one by one, each on a text with more after it: those of numbers,
operators and decorators see nothing of what breaks (`Numeral.width?_append`,
`operator?_append`); the look ahead of a word may see a quote, but nothing after it
(`beginsArgument_append`). A literal sees as far as its end (`Literal.widthWithin?_append`).
-/

namespace Highlighter

variable {ctx : Context} {c q : Char} {text tail rest rest' : Text} {isIn : Char → Bool}

/-! ## Runs of characters -/

/-- Quotes and blanks. -/
def breakMarks : Text := ['"', '`', ' ', '\t', '\r']

/-- A text with which nothing goes on that was read before it, but for comments and literals: it
    begins with a quote or a blank, or there is nothing of it. -/
def Breaks (tail : Text) : Prop :=
  ∀ q ∈ tail.head?, q ∈ breakMarks

namespace Breaks

theorem of_isQuote (hq : isQuote q) (rest : Text) : Breaks (q :: rest) := by
  rintro _ ⟨⟩
  rcases (Bool.or_eq_true_iff.1 hq).imp eq_of_beq eq_of_beq with rfl | rfl <;> decide

theorem of_isBlank (h : ∀ c ∈ tail, isBlank c) : Breaks tail := by
  intro q hq
  have hblank := h q (List.mem_of_mem_head? hq)
  simp only [isBlank, Bool.or_eq_true, beq_iff_eq] at hblank
  rcases hblank with (rfl | rfl) | rfl <;> decide

/-- What breaks is in no class without quotes and blanks. -/
theorem eq_false (h : Breaks tail) (hmarks : breakMarks.any isIn = false) :
    ∀ q ∈ tail.head?, isIn q = false :=
  fun q hq => Bool.eq_false_iff.2 (List.any_eq_false.1 hmarks q (h q hq))

/-- A text with what breaks after it begins with a character of such a class only by itself. -/
theorem any_head?_append (h : Breaks tail) (hmarks : breakMarks.any isIn = false) :
    (text ++ tail).head?.any isIn = text.head?.any isIn := by
  cases text with
  | nil =>
    cases tail with
    | nil => rfl
    | cons q rest => exact h.eq_false hmarks q rfl
  | cons c text => rfl

theorem head_ne {d : Char} (h : Breaks (q :: rest)) (hd : d ∉ breakMarks) : q ≠ d :=
  ne_of_mem_of_not_mem (h q rfl) hd

end Breaks

/-- A run ends before a character that is not of its class. -/
theorem takeWhile_append_of_head (h : ∀ q ∈ tail.head?, isIn q = false) :
    (text ++ tail).takeWhile isIn = text.takeWhile isIn := by
  induction text with
  | nil => cases tail <;> simp_all
  | cons c text ih => by_cases h : isIn c <;> simp [h, ih]

theorem takeWhile_append_cons (hq : isIn q = false) :
    (text ++ q :: rest).takeWhile isIn = text.takeWhile isIn :=
  takeWhile_append_of_head (by simpa using hq)

theorem dropWhile_append_cons (hq : isIn q = false) :
    (text ++ q :: rest).dropWhile isIn = text.dropWhile isIn ++ q :: rest := by
  induction text with
  | nil => simp [hq]
  | cons c text ih => by_cases h : isIn c <;> simp [h, ih]

theorem length_takeWhile_le : (text.takeWhile isIn).length ≤ text.length :=
  (List.takeWhile_prefix _).length_le

theorem isPrefixOf_append {op : Text} (h : ∀ q ∈ tail.head?, q ∉ op) :
    op.isPrefixOf (text ++ tail) = op.isPrefixOf text := by
  induction op generalizing text with
  | nil => simp
  | cons d op ih =>
    cases text with
    | nil =>
      cases tail with
      | nil => rfl
      | cons q rest =>
        have hd : d ≠ q := fun hd => h q rfl (hd ▸ List.mem_cons_self)
        simp [List.isPrefixOf, hd]
    | cons c text =>
      rw [List.cons_append, List.isPrefixOf, List.isPrefixOf,
        ih fun q hq hop => h q hq (List.mem_cons_of_mem d hop)]

/-- What holds of neither quote holds of no quote. -/
theorem eq_false_of_isQuote (hq : isQuote q) (h : isIn '"' = false ∧ isIn '`' = false) :
    isIn q = false := by
  rcases (Bool.or_eq_true_iff.1 hq).imp eq_of_beq eq_of_beq with rfl | rfl
  · exact h.1
  · exact h.2

theorem ne_of_isQuote {d : Char} (hq : isQuote q) (hd : d ≠ '"' ∧ d ≠ '`') : q ≠ d := by
  rcases (Bool.or_eq_true_iff.1 hq).imp eq_of_beq eq_of_beq with rfl | rfl
  · exact hd.1.symm
  · exact hd.2.symm

/-! ## Numerals -/

namespace Numeral

theorem digitCount_append (h : Breaks tail) : digitCount (text ++ tail) = digitCount text := by
  rw [digitCount, takeWhile_append_of_head (h.eq_false (by decide)), digitCount]

theorem pointWidth?_append (h : Breaks tail) : pointWidth? (text ++ tail) = pointWidth? text := by
  cases text with
  | nil =>
    cases tail with
    | nil => rfl
    | cons q rest => exact pointWidth?_eq_none (h.head_ne (by decide))
  | cons c text =>
    by_cases hc : c = '.'
    · subst hc
      rw [List.cons_append, pointWidth?, pointWidth?, digitCount_append h]
    · rw [List.cons_append, pointWidth?_eq_none hc, pointWidth?_eq_none hc]

theorem decimalWidth?_append (h : Breaks tail) :
    decimalWidth? (text ++ tail) = decimalWidth? text := by
  rw [decimalWidth?, decimalWidth?, digitCount_append h]
  rcases hn : digitCount text with _ | n
  · rfl
  · have hle : n + 1 ≤ text.length := hn ▸ length_takeWhile_le
    dsimp only
    rw [List.drop_append_of_le_length hle, pointWidth?_append h]

theorem signedWidth?_append (h : Breaks tail) :
    signedWidth? (text ++ tail) = signedWidth? text := by
  cases text with
  | nil =>
    cases tail with
    | nil => rfl
    | cons q rest => exact signedWidth?_eq_none (h.head_ne (by decide))
  | cons c text =>
    by_cases hc : c = '-'
    · subst hc
      rw [List.cons_append, signedWidth?, signedWidth?, decimalWidth?_append h]
    · rw [List.cons_append, signedWidth?_eq_none hc, signedWidth?_eq_none hc]

theorem hexWidth?_append (h : Breaks tail) : hexWidth? (text ++ tail) = hexWidth? text := by
  rcases text with _ | ⟨c, text⟩
  · cases tail with
    | nil => rfl
    | cons q rest => exact hexWidth?_eq_none (h.head_ne (by decide))
  by_cases hc : c = '0'
  · subst hc
    rcases text with _ | ⟨d, text⟩
    · cases tail with
      | nil => rfl
      | cons q rest => simp [hexWidth?, h.head_ne (show 'x' ∉ breakMarks by decide)]
    by_cases hd : d = 'x'
    · subst hd
      rw [List.cons_append, List.cons_append, hexWidth?, hexWidth?,
        takeWhile_append_of_head (h.eq_false (by decide))]
    · simp [hexWidth?, hd]
  · rw [List.cons_append, hexWidth?_eq_none hc, hexWidth?_eq_none hc]

/-- A numeral is the same if what comes after it breaks, or if nothing does. -/
theorem width?_append {expressionStart : Bool} (h : Breaks tail) :
    width? expressionStart (text ++ tail) = width? expressionStart text := by
  simp only [width?, hexWidth?_append h, signedWidth?_append h, decimalWidth?_append h,
    pointWidth?_append h]

end Numeral

/-! ## Literals -/

/-- Whether a literal is opened before a quote, or by it, does not depend on what comes after. -/
theorem Literal.open?_append (hq : isQuote q) :
    open? (text ++ q :: rest) = open? (text ++ q :: rest') := by
  have hrun : ∀ rest, runLength (text ++ q :: rest) = runLength text := fun rest => by
    rw [runLength, takeWhile_append_cons (eq_false_of_isQuote hq (by decide)), runLength]
  have hle : runLength text ≤ text.length := length_takeWhile_le
  rw [open?, open?, hrun, hrun, List.drop_append_of_le_length hle,
    List.drop_append_of_le_length hle, List.head?_append, List.head?_append]
  rfl

namespace Lexeme

/-! ## One recognizer after the other -/

theorem beginsArgument_append (hq : isQuote q) :
    beginsArgument (text ++ q :: rest) = beginsArgument (text ++ q :: rest') := by
  have hopens (s : Text) :
      Literal.opensIn (s ++ q :: rest) = Literal.opensIn (s ++ q :: rest') := by
    rw [Literal.opensIn, Literal.opensIn, Literal.open?_append hq]
  have hblank : isBlank q = false := eq_false_of_isQuote hq (by decide)
  simp only [beginsArgument, List.head?_append, List.head?_cons, hopens,
    dropWhile_append_cons hblank]
  rcases text.dropWhile isBlank with _ | ⟨first, ahead⟩
  · -- after blanks comes the quote: a literal, whatever comes next
    have hquote := hopens []
    rw [List.nil_append, List.nil_append] at hquote
    have hdot : (q == '.') = false := beq_false_of_ne (ne_of_isQuote hq (by decide))
    have hsign : (q == '-') = false := beq_false_of_ne (ne_of_isQuote hq (by decide))
    have hreference : (q == referenceMark) = false :=
      beq_false_of_ne (ne_of_isQuote hq (by decide))
    simp only [List.nil_append, hquote, hdot, hsign, hreference, Bool.false_and]
  · have hcons := hopens (first :: ahead)
    rw [List.cons_append, List.cons_append] at hcons
    simp only [List.cons_append, hcons, List.head?_append, List.head?_cons]

theorem word_append (text : Text) (hq : isQuote q) :
    word ctx (text ++ q :: rest) = word ctx (text ++ q :: rest') := by
  have hpart : isWordPart q = false := eq_false_of_isQuote hq (by decide)
  have hle : (text.takeWhile isWordPart).length ≤ text.length := length_takeWhile_le
  rw [word, word, takeWhile_append_cons hpart, takeWhile_append_cons hpart,
    List.drop_append_of_le_length hle, List.drop_append_of_le_length hle,
    beginsArgument_append hq]

theorem number?_append (text : Text) (h : Breaks tail) :
    number? ctx (text ++ tail) = number? ctx text := by
  rw [number?, number?, Numeral.width?_append h]

theorem decorator_append (h : Breaks tail) :
    decorator ctx (c :: (text ++ tail)) = decorator ctx (c :: text) := by
  have hpart : ∀ q ∈ tail.head?, isWordPart q = false := h.eq_false (by decide)
  simp only [decorator, List.drop_succ_cons, List.drop_zero, takeWhile_append_of_head hpart]

/-- An operator holds nothing that breaks, and a reference is taken to no such thing. -/
theorem operator?_append (h : Breaks tail) :
    operator? ctx (c :: (text ++ tail)) = operator? ctx (c :: text) := by
  have happend {op : Text} (hop : breakMarks.any op.contains = false) :
      op.isPrefixOf (c :: (text ++ tail)) = op.isPrefixOf (c :: text) := by
    have hhead : ∀ q ∈ tail.head?, q ∉ op := fun q hq => by simpa using h.eq_false hop q hq
    rw [← List.cons_append, isPrefixOf_append hhead]
  have hpairs : pairs.any (·.isPrefixOf (c :: (text ++ tail))) =
      pairs.any (·.isPrefixOf (c :: text)) := by
    have hmarks : ∀ op ∈ pairs, breakMarks.any op.contains = false := by decide
    rw [Bool.eq_iff_iff, List.any_eq_true, List.any_eq_true]
    exact exists_congr fun op => and_congr_right fun hmem => by rw [happend (hmarks op hmem)]
  have hellipsis : breakMarks.any ellipsis.contains = false := by decide
  have hword : breakMarks.any isWordStart = false := by decide
  simp only [operator?, happend hellipsis, hpairs, h.any_head?_append hword]

/-- What a text holds of a literal, if that ends before some rest, does not depend on the rest. -/
theorem insideLiteral_append (text : Text)
    (hw : (insideLiteral ctx (text ++ rest)).width ≤ text.length) (hne : rest ≠ []) :
    insideLiteral ctx (text ++ rest') = insideLiteral ctx (text ++ rest) := by
  rcases hl : ctx.literal with _ | l
  · simp only [insideLiteral, hl]
  simp only [insideLiteral, hl] at hw ⊢
  rcases hwithin : l.widthWithin? (text ++ rest) with _ | width
  · -- a literal that is not closed goes on over the rest
    have hpos : 0 < rest.length := List.length_pos_iff.2 hne
    simp only [hwithin, List.length_append] at hw
    omega
  · rw [hwithin] at hw
    rw [(Literal.widthWithin?_append hw).2 ((Literal.widthWithin?_append hw).1 hwithin)]

theorem literal?_append {lexeme : Lexeme} (text : Text) (hq : isQuote q)
    (h : literal? ctx (text ++ q :: rest) = some lexeme) (hw : lexeme.width ≤ text.length) :
    literal? ctx (text ++ q :: rest') = some lexeme := by
  obtain ⟨l, hl, rfl⟩ := Option.map_eq_some_iff.1 h
  have hle : l.openingWidth ≤ text.length := Nat.le_of_add_right_le hw
  rw [List.drop_append_of_le_length hle] at hw ⊢
  have hbody : (insideLiteral (ctx.enterLiteral l) (text.drop l.openingWidth ++ q :: rest)).width ≤
      (text.drop l.openingWidth).length := by
    rw [List.length_drop]
    exact Nat.le_sub_of_add_le' hw
  rw [literal?, Literal.open?_append hq, hl, Option.map_some, List.drop_append_of_le_length hle,
    insideLiteral_append _ hbody (by simp)]

theorem literal?_append_eq_none (text : Text) (hq : isQuote q)
    (h : literal? ctx (text ++ q :: rest) = none) :
    literal? ctx (text ++ q :: rest') = none := by
  rw [literal?, Option.map_eq_none_iff] at h ⊢
  rwa [Literal.open?_append hq]

/-! ## All of them -/

/-- A lexeme that ends before a quote does not depend on what comes after the quote. -/
theorem next_append (hq : isQuote q)
    (hw : (next ctx c (text ++ q :: rest)).width ≤ text.length + 1) :
    next ctx c (text ++ q :: rest') = next ctx c (text ++ q :: rest) := by
  have hbreaks := Breaks.of_isQuote hq
  have hnumber : number? ctx (c :: (text ++ q :: rest')) = number? ctx (c :: (text ++ q :: rest)) :=
    (number?_append (c :: text) (hbreaks rest')).trans
      (number?_append (c :: text) (hbreaks rest)).symm
  have hword : word ctx (c :: (text ++ q :: rest')) = word ctx (c :: (text ++ q :: rest)) :=
    word_append (c :: text) hq
  rcases hn : number? ctx (c :: (text ++ q :: rest)) with _ | lexeme
  · rcases hl : literal? ctx (c :: (text ++ q :: rest)) with _ | lexeme
    · have hl' : literal? ctx (c :: (text ++ q :: rest')) = none :=
        literal?_append_eq_none (c :: text) hq hl
      by_cases hc : c = commentMark
      · -- a comment goes on over the quote
        simp only [next, hn, hl, if_pos hc, comment, List.length_cons, List.length_append] at hw
        omega
      · rw [next, next, hnumber, hn, hl, hl', if_neg hc, if_neg hc, hword,
          decorator_append (hbreaks rest'), decorator_append (hbreaks rest),
          operator?_append (hbreaks rest'), operator?_append (hbreaks rest)]
    · have hl' : literal? ctx (c :: (text ++ q :: rest')) = some lexeme := by
        rw [next, hn, hl] at hw
        exact literal?_append (c :: text) hq hl hw
      rw [next, next, hnumber, hn, hl, hl']
  · rw [next, next, hnumber, hn]

end Lexeme

end Highlighter
