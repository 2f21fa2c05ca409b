import Highlighter.Proofs.Lexeme.Lookahead
import Highlighter.Proofs.Numeral.Longest

/-!
# Lexemes before blanks

Blanks after a text are seen by none of its lexemes but a comment and a literal that is not closed,
which go on over them (`next_append_blanks`):

* numbers, operators, decorators and words end before a blank (`Breaks.of_isBlank`);
* a word finds an argument after it, or none, as it does without the blanks
  (`beginsArgument_append_blanks`), since it passes them itself, and then there is nothing;
* a literal that is closed ends where it does, whatever comes after (`literal?_append_of_closed`).

No lexeme takes more than there is (`Recognized.width_le`), so what is left of the text after it
is left with the blanks, too.
-/

namespace Highlighter

variable {ctx : Context} {c : Char} {text tail blanks : Text} {lexeme : Lexeme}

/-! ## Literals -/

namespace Literal

/-- A blank is no quote, so it opens nothing. -/
theorem open?_append_blanks (h : ∀ c ∈ blanks, isBlank c) :
    open? (text ++ blanks) = open? text := by
  have hrun : runLength (text ++ blanks) = runLength text := by
    have hmark : ∀ q ∈ blanks.head?, (q == escapeMark) = false :=
      (Breaks.of_isBlank h).eq_false (by decide)
    rw [runLength, takeWhile_append_of_head hmark, runLength]
  have hle : runLength text ≤ text.length := length_takeWhile_le
  have hquote : blanks.head?.bind Quote.ofChar? = none := by
    cases blanks with
    | nil => rfl
    | cons q rest =>
      have hq := h q List.mem_cons_self
      have hd : q ≠ '"' := by
        rintro rfl
        cases hq
      have hb : q ≠ '`' := by
        rintro rfl
        cases hq
      simp [Quote.ofChar?, hd, hb]
  rw [open?, open?, hrun, List.drop_append_of_le_length hle, List.head?_append]
  cases hhead : (text.drop (runLength text)).head? with
  | none => rw [Option.none_or, hquote, Option.bind_none]
  | some c => rfl

theorem opensIn_append_blanks (text : Text) (h : ∀ c ∈ blanks, isBlank c) :
    opensIn (text ++ blanks) = opensIn text := by
  rw [opensIn, opensIn, open?_append_blanks h]

/-- A literal is closed within the text. -/
theorem widthWithin?_le {l : Literal} {width : Nat} (h : l.widthWithin? text = some width) :
    width ≤ text.length := by
  obtain ⟨p, hp, rfl⟩ := widthWithin?_eq_some_iff.1 h
  have hle := hp.1.1.length_le
  rw [List.length_drop] at hle
  have hpos : 0 < l.closing.length := by rw [closing_length]; exact Nat.succ_pos _
  omega

end Literal

namespace Lexeme

theorem width_insideLiteral_le (ctx : Context) (text : Text) :
    (insideLiteral ctx text).width ≤ text.length := by
  rw [insideLiteral]
  split
  · exact Nat.zero_le _
  split
  · exact Literal.widthWithin?_le ‹_›
  · exact Nat.le_refl _

/-- What a text holds of a literal that is closed in it does not depend on what comes after. -/
theorem insideLiteral_append_of_closed (h : ¬(insideLiteral ctx text).context.inLiteral)
    (tail : Text) : insideLiteral ctx (text ++ tail) = insideLiteral ctx text := by
  rcases hl : ctx.literal with _ | l
  · simp only [insideLiteral, hl]
  rcases hwithin : l.widthWithin? text with _ | width
  · -- it is still open at the end of the text
    simp [insideLiteral, hl, hwithin, Context.inLiteral] at h
  · have hwithin' : l.widthWithin? (text ++ tail) = some width :=
      (Literal.widthWithin?_append (Literal.widthWithin?_le hwithin)).2 hwithin
    simp only [insideLiteral, hl, hwithin, hwithin']

theorem literal?_append_of_closed (h : literal? ctx text = some lexeme)
    (hl : ¬lexeme.context.inLiteral) (tail : Text) :
    literal? ctx (text ++ tail) = some lexeme := by
  obtain ⟨l, hopen, rfl⟩ := Option.map_eq_some_iff.1 h
  obtain ⟨body, rfl⟩ := Literal.open?_eq_some_iff.1 hopen
  rw [List.drop_left' l.length_opening] at hl ⊢
  rw [literal?, List.append_assoc, Literal.open?_opening, Option.map_some,
    List.drop_left' l.length_opening, insideLiteral_append_of_closed hl]

/-! ## Words -/

/-- What follows a word begins an argument or not, whether or not blanks come after it. -/
theorem beginsArgument_append_blanks (h : ∀ c ∈ blanks, isBlank c) :
    beginsArgument (text ++ blanks) = beginsArgument text := by
  have hbreaks := Breaks.of_isBlank h
  have hadjoined : breakMarks.any (fun q => q == '(' || q == '[' || q == '.') = false := by decide
  have hdigit : breakMarks.any Char.isDigit = false := by decide
  have hword : breakMarks.any isWordStart = false := by decide
  have hblanks : blanks.dropWhile isBlank = [] := List.dropWhile_eq_nil_iff.2 h
  simp only [beginsArgument, hbreaks.any_head?_append hadjoined, Literal.opensIn_append_blanks _ h,
    List.dropWhile_append, hblanks]
  rcases text.dropWhile isBlank with _ | ⟨first, ahead⟩
  · rfl
  · have hopens := Literal.opensIn_append_blanks (first :: ahead) h
    rw [List.cons_append] at hopens
    simp only [List.isEmpty_cons, Bool.false_eq_true, if_false, List.cons_append, hopens,
      hbreaks.any_head?_append hdigit,
      hbreaks.any_head?_append hword]

theorem word_append_blanks (text : Text) (h : ∀ c ∈ blanks, isBlank c) :
    word ctx (text ++ blanks) = word ctx text := by
  have hpart : ∀ q ∈ blanks.head?, isWordPart q = false :=
    (Breaks.of_isBlank h).eq_false (by decide)
  have hle : (text.takeWhile isWordPart).length ≤ text.length := length_takeWhile_le
  rw [word, word, takeWhile_append_of_head hpart, List.drop_append_of_le_length hle,
    beginsArgument_append_blanks h]

/-! ## All of them -/

/-- Blanks after a text make no difference to the lexeme at its beginning, unless that is a comment
    or a literal that goes on over them. -/
theorem next_append_blanks (h : ∀ c ∈ blanks, isBlank c)
    (hc : (next ctx c text).category ≠ .comment) (hl : ¬(next ctx c text).context.inLiteral) :
    next ctx c (text ++ blanks) = next ctx c text := by
  have hbreaks := Breaks.of_isBlank h
  have hnumber : number? ctx (c :: (text ++ blanks)) = number? ctx (c :: text) :=
    number?_append (c :: text) hbreaks
  have hword : word ctx (c :: (text ++ blanks)) = word ctx (c :: text) :=
    word_append_blanks (c :: text) h
  rcases hn : number? ctx (c :: text) with _ | lexeme
  · rcases hliteral : literal? ctx (c :: text) with _ | lexeme
    · have hliteral' : literal? ctx (c :: (text ++ blanks)) = none := by
        rw [literal?, Option.map_eq_none_iff] at hliteral ⊢
        rwa [← List.cons_append, Literal.open?_append_blanks h]
      have hmark : c ≠ commentMark := by
        rintro rfl
        simp [next, hn, hliteral, comment] at hc
      rw [next, next, hnumber, hn, hliteral, hliteral', if_neg hmark, if_neg hmark, hword,
        decorator_append hbreaks, operator?_append hbreaks]
    · have hliteral' : literal? ctx (c :: (text ++ blanks)) = some lexeme := by
        rw [next, hn, hliteral] at hl
        exact literal?_append_of_closed hliteral hl blanks
      rw [next, next, hnumber, hn, hliteral, hliteral']
  · rw [next, next, hnumber, hn]

/-- A lexeme takes no more than there is. -/
theorem Recognized.width_le (h : Recognized ctx text lexeme) : lexeme.width ≤ text.length := by
  cases h with
  | number hw =>
    obtain ⟨part, -, hp, rfl⟩ := (Numeral.isLongest_width? _ _).accepted _ hw
    exact hp.length_le
  | @literal l body =>
    rw [List.length_append, l.length_opening]
    exact Nat.add_le_add_left (width_insideLiteral_le _ body) _
  | comment => exact Nat.le_refl _
  | @decorator rest =>
    have hle : (rest.takeWhile isWordPart).length ≤ rest.length := length_takeWhile_le
    simp only [Lexeme.decorator, List.drop_succ_cons, List.drop_zero, List.length_cons]
    omega
  | ellipsis hp => exact hp.length_le
  | pair hmem hp =>
    have htwo : ∀ op ∈ pairs, op.length = 2 := by decide
    exact htwo _ hmem ▸ hp.length_le
  | word =>
    rw [width_word]
    exact length_takeWhile_le
  | _ => exact Nat.succ_le_succ (Nat.zero_le _)

end Lexeme

end Highlighter
