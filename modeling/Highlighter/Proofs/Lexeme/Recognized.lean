import Highlighter.Lexeme
import Highlighter.Proofs.Literal.Extent

/-!
# What a lexeme can be

`Lexeme.next` tries one recognizer after the other. `Recognized` says all that may come
of it, with one case for each recognizer: what the text begins with, the lexeme, and the
context after it. Whatever is to be shown of every lexeme is shown by these cases
(`recognized_next`).

In the other direction, some lexemes can be told from the first characters alone: a
literal (`next_opening`) and a word (`next_of_isWordStart`).
-/

namespace Highlighter

variable {ctx : Context} {c : Char} {text rest : Text}

/-! ## First characters -/

theorem not_isDigit_of_isWordStart (h : isWordStart c) : ¬c.isDigit := by
  intro hd
  -- letters and the underscore all come after the digits
  have hnine : c.val ≤ '9'.val := of_decide_eq_true (Bool.and_eq_true_iff.1 hd).2
  rcases Bool.or_eq_true_iff.1 h with h | h
  · rcases Bool.or_eq_true_iff.1 h with hupper | hlower
    · have hA : 'A'.val ≤ c.val := (of_decide_eq_true hupper).1
      exact absurd (UInt32.le_trans hA hnine) (by decide)
    · have ha : 'a'.val ≤ c.val := of_decide_eq_true (Bool.and_eq_true_iff.1 hlower).1
      exact absurd (UInt32.le_trans ha hnine) (by decide)
  · obtain rfl : c = '_' := eq_of_beq h
    exact absurd hnine (by decide)

/-- A word begins with none of the characters that mean something else. -/
theorem ne_of_isWordStart {d : Char} (h : isWordStart c) (hd : isWordStart d = false) : c ≠ d := by
  rintro rfl
  exact Bool.noConfusion (h.symm.trans hd)

theorem not_isBlank_of_isWordStart (h : isWordStart c) : ¬isBlank c := by
  simp (disch := decide) [isBlank, ne_of_isWordStart h]

/-- A word begins with no text of marks. -/
theorem not_prefix_of_isWordStart {op : Text} (h : isWordStart c)
    (hop : op ≠ [] ∧ op.any isWordStart = false) : ¬op <+: c :: rest := by
  intro hp
  obtain ⟨d, op, rfl⟩ := List.exists_cons_of_ne_nil hop.1
  obtain ⟨rfl, -⟩ := List.cons_prefix_cons.1 hp
  simp [h] at hop

/-- Where a word follows it, the mark of a reference begins no pair. -/
theorem not_prefix_referenceMark (h : rest.head?.any isWordStart) :
    ∀ op ∈ Lexeme.pairs, ¬op <+: referenceMark :: rest := by
  obtain ⟨d, tail, rfl⟩ : ∃ d tail, rest = d :: tail :=
    List.exists_cons_of_ne_nil (by rintro rfl; cases h)
  have hd : isWordStart d := by simpa using h
  simp [Lexeme.pairs, referenceMark, (ne_of_isWordStart hd rfl : d ≠ '&').symm]

namespace Numeral

theorem hexWidth?_eq_none (h : c ≠ '0') : hexWidth? (c :: rest) = none := by
  simp [hexWidth?, h]

theorem signedWidth?_eq_none (h : c ≠ '-') : signedWidth? (c :: rest) = none := by
  simp [signedWidth?, h]

theorem pointWidth?_eq_none (h : c ≠ '.') : pointWidth? (c :: rest) = none := by
  simp [pointWidth?, h]

theorem decimalWidth?_eq_none (h : ¬c.isDigit) : decimalWidth? (c :: rest) = none := by
  have hcount : digitCount (c :: rest) = 0 := by simp [digitCount, h]
  rw [decimalWidth?, hcount]

/-- A numeral begins with a digit, a sign or a point. -/
theorem width?_eq_none {expressionStart : Bool} (hd : ¬c.isDigit) (hs : c ≠ '-') (hp : c ≠ '.') :
    width? expressionStart (c :: rest) = none := by
  have hz : c ≠ '0' := by
    rintro rfl
    exact hd rfl
  simp [width?, hexWidth?_eq_none hz, signedWidth?_eq_none hs, decimalWidth?_eq_none hd,
    pointWidth?_eq_none hp]

end Numeral

namespace Lexeme

/-- What is recognized at the beginning of a text, by one recognizer after the other. -/
inductive Recognized (ctx : Context) : Text → Lexeme → Prop
  | number {text : Text} {width : Nat} :
    Numeral.width? ctx.expressionStart text = some width →
      Recognized ctx text ⟨.number, width, ctx.endExpression⟩
  | literal {l : Literal} {body : Text} :
    Recognized ctx (l.opening ++ body)
      { insideLiteral (ctx.enterLiteral l) body with
        width := l.openingWidth + (insideLiteral (ctx.enterLiteral l) body).width }
  | comment {rest : Text} : Recognized ctx (commentMark :: rest) (comment ctx (commentMark :: rest))
  | comma {rest : Text} : Recognized ctx (',' :: rest) (comma ctx)
  | openBracket {c : Char} {rest : Text} :
    isOpenBracket c → Recognized ctx (c :: rest) (openBracket ctx)
  | closeBracket {c : Char} {rest : Text} :
    isCloseBracket c → Recognized ctx (c :: rest) (closeBracket ctx)
  | decorator {rest : Text} :
    Recognized ctx (decoratorMark :: rest) (decorator ctx (decoratorMark :: rest))
  | ellipsis {text : Text} :
    ellipsis <+: text → Recognized ctx text ⟨.operator, 3, ctx.endExpression⟩
  | pair {text op : Text} :
    op ∈ pairs → op <+: text → Recognized ctx text ⟨.operator, 2, ctx.openExpression⟩
  /-- The mark of a reference, to the word right after it. -/
  | reference {rest : Text} :
    rest.head?.any isWordStart →
      Recognized ctx (referenceMark :: rest) ⟨.operator, 1, ctx.enterReference⟩
  | dot {rest : Text} :
    ¬Lexeme.ellipsis <+: '.' :: rest →
      Recognized ctx ('.' :: rest) ⟨.punctuation, 1, ctx.enterProperty⟩
  /-- Any other mark of an operator, where no pair begins. -/
  | mark {c : Char} {rest : Text} :
    isOperatorMark c → (∀ op ∈ pairs, ¬op <+: c :: rest) →
      (c = referenceMark → ¬rest.head?.any isWordStart) →
      Recognized ctx (c :: rest) ⟨.operator, 1, ctx.openExpression⟩
  | word {c : Char} {rest : Text} :
    isWordStart c → Recognized ctx (c :: rest) (word ctx (c :: rest))
  | other {c : Char} {rest : Text} :
    ¬isWordStart c → ¬isOperatorMark c →
      Recognized ctx (c :: rest) ⟨.unclassified, 1, ctx.endExpression⟩

/-! ## What is recognized -/

theorem category_insideLiteral (ctx : Context) (text : Text) :
    (insideLiteral ctx text).category = .string := by
  rw [insideLiteral]
  split
  · rfl
  split <;> rfl

theorem recognized_number? {lexeme : Lexeme} (h : number? ctx text = some lexeme) :
    Recognized ctx text lexeme := by
  obtain ⟨width, hw, rfl⟩ := Option.map_eq_some_iff.1 h
  exact .number hw

theorem recognized_literal? {lexeme : Lexeme} (h : literal? ctx text = some lexeme) :
    Recognized ctx text lexeme := by
  obtain ⟨l, hl, rfl⟩ := Option.map_eq_some_iff.1 h
  obtain ⟨body, rfl⟩ := Literal.open?_eq_some_iff.1 hl
  rw [List.drop_left' l.length_opening]
  exact .literal

theorem not_prefix_of_any_eq_false (h : ¬pairs.any (·.isPrefixOf text)) :
    ∀ op ∈ pairs, ¬op <+: text := by
  simpa using h

theorem recognized_operator? {lexeme : Lexeme} (h : operator? ctx (c :: rest) = some lexeme) :
    Recognized ctx (c :: rest) lexeme := by
  rw [operator?] at h
  split_ifs at h with hellipsis hpair hreference hword hdot hsimple
  · cases h
    exact .ellipsis (List.isPrefixOf_iff_prefix.1 hellipsis)
  · cases h
    obtain ⟨op, hmem, hop⟩ := List.any_eq_true.1 hpair
    exact .pair hmem (List.isPrefixOf_iff_prefix.1 hop)
  · cases h
    rw [hreference]
    exact .reference hword
  · -- detached from a word, the mark of a reference is an operator like others
    cases h
    exact .mark (by rw [hreference]; decide) (not_prefix_of_any_eq_false hpair) fun _ => hword
  · cases h
    rw [hdot] at hellipsis ⊢
    exact .dot (mt List.isPrefixOf_iff_prefix.2 hellipsis)
  · cases h
    exact .mark (by simp [isOperatorMark, hsimple]) (not_prefix_of_any_eq_false hpair)
      fun he => absurd he hreference

/-- A character that begins nothing else. -/
theorem recognized_single (hoperator : operator? ctx (c :: rest) = none) (hword : ¬isWordStart c) :
    Recognized ctx (c :: rest) (single ctx c) := by
  rw [operator?] at hoperator
  rw [single]
  by_cases hmark : isOperatorMark c
  · -- one of the marks that are no operators of their own
    rw [if_pos hmark]
    split_ifs at hoperator with hellipsis hpair hreference
    exact .mark hmark (not_prefix_of_any_eq_false hpair) fun he => absurd he hreference
  · rw [if_neg hmark]
    exact .other hword hmark

/-- Whatever is recognized is one of these. -/
theorem recognized_next (ctx : Context) (c : Char) (rest : Text) :
    Recognized ctx (c :: rest) (next ctx c rest) := by
  rw [next]
  split
  · exact recognized_number? ‹_›
  split
  · exact recognized_literal? ‹_›
  split
  · rw [‹c = commentMark›]
    exact .comment
  split
  · rw [‹c = ','›]
    exact .comma
  split
  · exact .openBracket ‹_›
  split
  · exact .closeBracket ‹_›
  split
  · rw [‹c = decoratorMark›]
    exact .decorator
  split
  · exact recognized_operator? ‹_›
  next hoperator =>
    split
    · exact .word ‹_›
    · exact recognized_single hoperator ‹_›

/-! ## Lexemes told by their first characters -/

/-- A text that begins with the opening of a literal is read as the literal. -/
theorem next_opening {l : Literal} {body : Text} (h : c :: rest = l.opening ++ body) :
    next ctx c rest =
      { insideLiteral (ctx.enterLiteral l) body with
        width := l.openingWidth + (insideLiteral (ctx.enterLiteral l) body).width } := by
  -- no numeral begins with an escape mark or a quote, so the literal has its turn
  have hnumber : number? ctx (c :: rest) = none := by
    rcases Literal.head_of_opening h with rfl | rfl
    · rw [number?, Numeral.width?_eq_none (by decide) (by decide) (by decide), Option.map_none]
    · cases l.quote <;>
        rw [number?, Numeral.width?_eq_none (by decide) (by decide) (by decide), Option.map_none]
  have hliteral : literal? ctx (c :: rest) =
      some { insideLiteral (ctx.enterLiteral l) body with
        width := l.openingWidth + (insideLiteral (ctx.enterLiteral l) body).width } := by
    rw [h, literal?, Literal.open?_opening, Option.map_some, List.drop_left' l.length_opening]
  rw [next, hnumber, hliteral]

/-- A literal begins with an escape mark or a quote. -/
theorem literal?_eq_none (hm : c ≠ escapeMark) (hd : c ≠ '"') (hb : c ≠ '`') :
    literal? ctx (c :: rest) = none := by
  have hquote : Quote.ofChar? c = none := by rw [Quote.ofChar?, if_neg hd, if_neg hb]
  simp [literal?, Literal.open?, Literal.runLength_cons_of_ne hm, hquote]

theorem operator?_of_isWordStart (h : isWordStart c) : operator? ctx (c :: rest) = none := by
  have hellipsis : ¬ellipsis.isPrefixOf (c :: rest) :=
    mt List.isPrefixOf_iff_prefix.1 (not_prefix_of_isWordStart h (by decide))
  have hpairs : ¬pairs.any (·.isPrefixOf (c :: rest)) := by
    have hmarks : ∀ op ∈ pairs, op ≠ [] ∧ op.any isWordStart = false := by decide
    rw [List.any_eq_true]
    rintro ⟨op, hmem, hop⟩
    exact not_prefix_of_isWordStart h (hmarks op hmem) (List.isPrefixOf_iff_prefix.1 hop)
  have hsimple : ¬isSimpleOperator c := by
    simp (disch := decide) [isSimpleOperator, ne_of_isWordStart h]
  rw [operator?, if_neg hellipsis, if_neg hpairs, if_neg (ne_of_isWordStart h rfl),
    if_neg (ne_of_isWordStart h rfl), if_neg hsimple]

/-- A text that begins with a word is read as the word. -/
theorem next_of_isWordStart (h : isWordStart c) : next ctx c rest = word ctx (c :: rest) := by
  have hnumber : number? ctx (c :: rest) = none := by
    rw [number?, Numeral.width?_eq_none (not_isDigit_of_isWordStart h)
      (ne_of_isWordStart h rfl) (ne_of_isWordStart h rfl), Option.map_none]
  have hopen : ¬isOpenBracket c := by
    simp (disch := decide) [isOpenBracket, ne_of_isWordStart h]
  have hclose : ¬isCloseBracket c := by
    simp (disch := decide) [isCloseBracket, ne_of_isWordStart h]
  rw [next, hnumber, literal?_eq_none (ne_of_isWordStart h rfl) (ne_of_isWordStart h rfl)
    (ne_of_isWordStart h rfl), if_neg (ne_of_isWordStart h rfl), if_neg (ne_of_isWordStart h rfl),
    if_neg hopen, if_neg hclose, if_neg (ne_of_isWordStart h rfl), operator?_of_isWordStart h,
    if_pos h]

end Lexeme

end Highlighter
