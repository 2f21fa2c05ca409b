import Highlighter.Proofs.Lexer.Word
import Highlighter.Proofs.Numeral

/-!
# Arguments of a word

Whether a word leads a statement is decided by a look at the text after it
(`Lexeme.beginsArgument`), before any of that text has been read. The look agrees with what is
read there afterwards:

* what it looks for is the beginning of an argument after blanks (`StartsArgument`), but no
  bracket, dot or literal right at the word (`AdjoinsWord`): `beginsArgument_iff`;
* where an argument starts, a lexeme is recognized that is one, or begins one
  (`isArgument_next`); for a sign or a point this takes a context that leaves the expression
  open, as it is after a keyword;
* a lexeme that is an argument or begins one is recognized only where one starts
  (`Recognized.startsArgument`).
-/

namespace Highlighter.Lexeme

variable {ctx : Context} {c : Char} {text rest : Text} {lexeme : Lexeme}

/-! ## The look ahead -/

/-- An argument starts at a character, with some text after it, where an expression is still
    open or not. -/
inductive StartsArgument (expressionStart : Bool) : Char → Text → Prop
  | word {c : Char} {rest : Text} : isWordStart c → StartsArgument expressionStart c rest
  | digit {c : Char} {rest : Text} : c.isDigit → StartsArgument expressionStart c rest
  | point {rest : Text} : expressionStart → rest.head?.any Char.isDigit →
    StartsArgument expressionStart '.' rest
  | sign {rest : Text} : expressionStart → rest.head?.any Char.isDigit →
    StartsArgument expressionStart '-' rest
  | bracket {c : Char} {rest : Text} : isOpenBracket c → StartsArgument expressionStart c rest
  | decorator {rest : Text} : StartsArgument expressionStart decoratorMark rest
  | reference {rest : Text} : rest.head?.any isWordStart →
    StartsArgument expressionStart referenceMark rest
  | literal {c : Char} {rest : Text} : Literal.opensIn (c :: rest) →
    StartsArgument expressionStart c rest

/-- What follows a word directly makes it a call, an index, a property or the tag of a
    literal. -/
def AdjoinsWord (text : Text) : Prop :=
  (∃ c ∈ text.head?, c = '(' ∨ c = '[' ∨ c = '.') ∨ Literal.opensIn text

/-- A literal begins with an escape mark or a quote. -/
theorem eq_of_opensIn (h : Literal.opensIn (c :: rest)) : c = escapeMark ∨ c = '"' ∨ c = '`' := by
  obtain ⟨l, hl⟩ := Option.isSome_iff_exists.1 h
  obtain ⟨body, hbody⟩ := Literal.open?_eq_some_iff.1 hl
  refine (Literal.head_of_opening hbody).imp_right ?_
  rintro rfl
  cases l.quote
  · exact .inl rfl
  · exact .inr rfl

/-- No argument starts where a statement ends. -/
theorem StartsArgument.not_ends {expressionStart : Bool}
    (h : StartsArgument expressionStart c rest) :
    c ≠ ',' ∧ c ≠ commentMark ∧ ¬isCloseBracket c := by
  cases h with
  | word h => simp (disch := decide) [isCloseBracket, commentMark, ne_of_isWordStart h]
  | digit h =>
    refine ⟨?_, ?_, fun hc => ?_⟩
    · rintro rfl
      exact absurd h (by decide)
    · rintro rfl
      exact absurd h (by decide)
    · simp only [isCloseBracket, Bool.or_eq_true, beq_iff_eq] at hc
      rcases hc with (rfl | rfl) | rfl <;> exact absurd h (by decide)
  | bracket h =>
    simp only [isOpenBracket, Bool.or_eq_true, beq_iff_eq] at h
    rcases h with (rfl | rfl) | rfl <;> decide
  | literal h => rcases eq_of_opensIn h with rfl | rfl | rfl <;> decide
  | point | sign | decorator | reference => decide

theorem startsArgument_iff :
    StartsArgument true c rest ↔ isWordStart c ∨ c.isDigit ∨ c = '.' ∧ rest.head?.any Char.isDigit ∨
      c = '-' ∧ rest.head?.any Char.isDigit ∨ isOpenBracket c ∨ c = decoratorMark ∨
      c = referenceMark ∧ rest.head?.any isWordStart ∨ Literal.opensIn (c :: rest) := by
  constructor
  · intro h
    cases h <;> simp [*]
  · rintro (h | h | ⟨rfl, h⟩ | ⟨rfl, h⟩ | h | rfl | ⟨rfl, h⟩ | h)
    exacts [.word h, .digit h, .point rfl h, .sign rfl h, .bracket h, .decorator, .reference h,
      .literal h]

/-- Where the expression is open, more arguments start. -/
theorem StartsArgument.of_open {expressionStart : Bool}
    (h : StartsArgument expressionStart c rest) : StartsArgument true c rest := by
  cases h with
  | word h => exact .word h
  | digit h => exact .digit h
  | point _ h => exact .point rfl h
  | sign _ h => exact .sign rfl h
  | bracket h => exact .bracket h
  | decorator => exact .decorator
  | reference h => exact .reference h
  | literal h => exact .literal h

/-- The look ahead finds an argument that starts after blanks, but does not adjoin the word. -/
theorem beginsArgument_iff :
    beginsArgument text ↔ ¬AdjoinsWord text ∧
      ∃ c rest, text.dropWhile isBlank = c :: rest ∧ StartsArgument true c rest := by
  have hadjoins : ((text.head?.any fun c => c == '(' || c == '[' || c == '.') ||
      Literal.opensIn text) = true ↔ AdjoinsWord text := by
    cases text <;> simp [AdjoinsWord, or_assoc]
  rw [beginsArgument]
  by_cases h : AdjoinsWord text
  · simp [hadjoins.2 h, h]
  · rw [if_neg (mt hadjoins.1 h)]
    cases text.dropWhile isBlank with
    | nil => simp
    | cons first rest =>
      have hexists : (∃ c tail, first :: rest = c :: tail ∧ StartsArgument true c tail) ↔
          StartsArgument true first rest := by
        refine ⟨?_, fun hs => ⟨first, rest, rfl, hs⟩⟩
        rintro ⟨c, tail, heq, hs⟩
        cases heq
        exact hs
      rw [hexists, and_iff_right h]
      dsimp only
      constructor
      · intro hb
        split at hb
        · cases hb
        · exact startsArgument_iff.2 (by simpa [or_assoc] using hb)
      · intro hs
        obtain ⟨hcomma, hcomment, hclose⟩ := hs.not_ends
        rw [if_neg (by simp [hcomma, hcomment, hclose])]
        simpa [or_assoc] using startsArgument_iff.1 hs

/-! ## Lexemes told by their first characters -/

theorem next_of_width? {width : Nat}
    (h : Numeral.width? ctx.expressionStart (c :: rest) = some width) :
    next ctx c rest = ⟨.number, width, ctx.endExpression⟩ := by
  rw [next, number?, h]
  rfl

/-- Where no number and no literal begins, the first character decides. -/
theorem next_of_isOpenBracket (h : isOpenBracket c) : next ctx c rest = openBracket ctx := by
  simp only [isOpenBracket, Bool.or_eq_true, beq_iff_eq] at h
  have hnumber : number? ctx (c :: rest) = none := by
    rw [number?, Option.map_eq_none_iff]
    rcases h with (rfl | rfl) | rfl <;>
      exact Numeral.width?_eq_none (by decide) (by decide) (by decide)
  have hliteral : literal? ctx (c :: rest) = none := by
    rcases h with (rfl | rfl) | rfl <;> exact literal?_eq_none (by decide) (by decide) (by decide)
  rw [next, hnumber, hliteral]
  rcases h with (rfl | rfl) | rfl <;> rfl

theorem next_decoratorMark :
    next ctx decoratorMark rest = decorator ctx (decoratorMark :: rest) := by
  rw [next, number?, Numeral.width?_eq_none (by decide) (by decide) (by decide),
    literal?_eq_none (by decide) (by decide) (by decide)]
  rfl

theorem next_referenceMark (h : rest.head?.any isWordStart) :
    next ctx referenceMark rest = ⟨.operator, 1, ctx.enterReference⟩ := by
  have hpairs : ¬pairs.any (·.isPrefixOf (referenceMark :: rest)) := by
    simpa using not_prefix_referenceMark h
  have hoperator : operator? ctx (referenceMark :: rest) =
      some ⟨.operator, 1, ctx.enterReference⟩ := by
    rw [operator?, if_neg (by simp [ellipsis, referenceMark]), if_neg hpairs]
    simp [h]
  rw [next, number?, Numeral.width?_eq_none (by decide) (by decide) (by decide),
    literal?_eq_none (by decide) (by decide) (by decide), hoperator]
  rfl

/-! ## What is recognized -/

/-- A lexeme is an argument or begins one, where a text begins with it. -/
def IsArgument (text : Text) (lexeme : Lexeme) : Prop :=
  lexeme.category ∈ [.name, .number, .string, .decorator] ∨
  lexeme.category = .bracket ∧ text.head?.any isOpenBracket ∨
  lexeme.category = .operator ∧ lexeme.context.afterReference

/-- Where an argument starts, and no word has a part to play, one is recognized. -/
theorem isArgument_next (hpromote : ¬ctx.mayPromote) (hdot : ¬ctx.afterDot)
    (hreference : ¬ctx.afterReference) (h : StartsArgument ctx.expressionStart c rest) :
    (next ctx c rest).IsArgument (c :: rest) := by
  have hnumber : (Numeral.width? ctx.expressionStart (c :: rest)).isSome →
      (next ctx c rest).IsArgument (c :: rest) := by
    intro hw
    obtain ⟨width, hw⟩ := Option.isSome_iff_exists.1 hw
    rw [next_of_width? hw]
    exact .inl (by simp)
  cases h with
  | word h =>
    rw [next_of_isWordStart h]
    have hname := (category_word ctx (c :: rest)).2.2.2.2 ⟨hdot, hreference, by simp [hpromote]⟩
    exact .inl (by simp [hname])
  | digit h => exact hnumber (Numeral.isSome_width?.2 (.inl (by simpa using h)))
  | point he h => exact hnumber (Numeral.isSome_width?.2 (.inr ⟨he, _, _, rfl, .inr rfl, h⟩))
  | sign he h => exact hnumber (Numeral.isSome_width?.2 (.inr ⟨he, _, _, rfl, .inl rfl, h⟩))
  | bracket h =>
    rw [next_of_isOpenBracket h]
    exact .inr (.inl ⟨rfl, by simpa using h⟩)
  | decorator =>
    rw [next_decoratorMark]
    exact .inl (by simp [Lexeme.decorator])
  | reference h =>
    rw [next_referenceMark h]
    exact .inr (.inr ⟨rfl, rfl⟩)
  | literal h =>
    obtain ⟨l, hl⟩ := Option.isSome_iff_exists.1 h
    obtain ⟨body, hbody⟩ := Literal.open?_eq_some_iff.1 hl
    rw [next_opening hbody]
    exact .inl (by simp [category_insideLiteral])

/-- Where an argument is recognized, one starts. -/
theorem Recognized.startsArgument (h : Recognized ctx (c :: rest) lexeme)
    (ha : lexeme.IsArgument (c :: rest)) : StartsArgument ctx.expressionStart c rest := by
  generalize htext : c :: rest = text at h ha
  cases h with
  | number h =>
    rw [← htext] at h
    rcases Numeral.isSome_width?.1 (Option.isSome_iff_exists.2 ⟨_, h⟩) with
      hd | ⟨he, _, _, heq, rfl | rfl, hd⟩
    · exact .digit (by simpa using hd)
    · cases heq
      exact .sign he hd
    · cases heq
      exact .point he hd
  | literal =>
    refine .literal ?_
    rw [htext, Literal.opensIn, Literal.open?_opening]
    rfl
  | openBracket h =>
    cases htext
    exact .bracket h
  | decorator =>
    cases htext
    exact .decorator
  | reference h =>
    cases htext
    exact .reference h
  | word h =>
    cases htext
    exact .word h
  | closeBracket h =>
    have hopen := not_isOpenBracket_of_isCloseBracket h
    simp [IsArgument, Lexeme.closeBracket, hopen] at ha
  | comment => simp [IsArgument, Lexeme.comment] at ha
  | comma => simp [IsArgument, Lexeme.comma] at ha
  | dot => simp [IsArgument] at ha
  | other => simp [IsArgument] at ha
  -- operators other than the mark of a reference take none
  | ellipsis => simp [IsArgument, Context.endExpression] at ha
  | pair => simp [IsArgument, Context.openExpression] at ha
  | mark => simp [IsArgument, Context.openExpression] at ha

/-- An argument that adjoins a word is a call, an index or a literal, as the dot after a word
    belongs to no number. -/
theorem category_of_adjoinsWord (hstart : ¬ctx.expressionStart)
    (ha : (next ctx c rest).IsArgument (c :: rest)) (h : AdjoinsWord (c :: rest)) :
    (next ctx c rest).category = .string ∨
      next ctx c rest = openBracket ctx ∧ (c = '(' ∨ c = '[') := by
  rcases h with ⟨d, hd, hadj⟩ | hopens
  · obtain rfl : c = d := Option.some.inj hd
    rcases hadj with rfl | rfl | rfl
    · exact .inr ⟨next_of_isOpenBracket rfl, .inl rfl⟩
    · exact .inr ⟨next_of_isOpenBracket rfl, .inr rfl⟩
    · -- no argument starts with this dot
      generalize hdot : '.' = c at ha
      cases (recognized_next ..).startsArgument ha with
      | point he => exact absurd he hstart
      | literal h => rcases eq_of_opensIn h with rfl | rfl | rfl <;> cases hdot
      | word h | digit h | bracket h =>
        subst hdot
        exact absurd h (by decide)
      | sign | decorator | reference => cases hdot
  · obtain ⟨l, hl⟩ := Option.isSome_iff_exists.1 hopens
    obtain ⟨body, hbody⟩ := Literal.open?_eq_some_iff.1 hl
    rw [next_opening hbody]
    exact .inl (category_insideLiteral ..)

/-- What adjoins a word is not blank. -/
theorem AdjoinsWord.exists_cons (h : AdjoinsWord text) :
    ∃ c rest, text = c :: rest ∧ ¬isBlank c := by
  rcases h with ⟨c, hc, hadj⟩ | hopens
  · obtain ⟨rest, rfl⟩ := List.head?_eq_some_iff.1 hc
    refine ⟨c, rest, rfl, ?_⟩
    rcases hadj with rfl | rfl | rfl <;> decide
  · obtain ⟨c, rest, rfl⟩ : ∃ c rest, text = c :: rest :=
      List.exists_cons_of_ne_nil (by rintro rfl; cases hopens)
    refine ⟨c, rest, rfl, ?_⟩
    rcases eq_of_opensIn hopens with rfl | rfl | rfl <;> decide

/-- Only words are classified as words. -/
theorem Recognized.exists_word (h : Recognized ctx text lexeme)
    (hc : lexeme.category ∈ [.keyword, .name, .reference, .property]) :
    ∃ c rest, text = c :: rest ∧ isWordStart c ∧ lexeme = Lexeme.word ctx (c :: rest) := by
  cases h with
  | word h => exact ⟨_, _, rfl, h, rfl⟩
  | literal => simp [category_insideLiteral] at hc
  | _ => simp [Lexeme.comment, Lexeme.comma, Lexeme.openBracket, Lexeme.closeBracket,
      Lexeme.decorator] at hc

/-- A keyword leaves the expression open, any other word ends it. -/
theorem context_of_category_word :
    ((word ctx text).category = .keyword → (word ctx text).context = ctx.afterKeyword) ∧
    ((word ctx text).category ≠ .keyword → (word ctx text).context = ctx.endExpression) := by
  rw [word]
  split_ifs <;> simp

/-- An operator takes a reference only if it is the mark of one, with a word after it. -/
theorem Recognized.exists_reference (h : Recognized ctx text lexeme)
    (hc : lexeme.category = .operator) (href : lexeme.context.afterReference) :
    ∃ rest, text = referenceMark :: rest ∧ rest.head?.any isWordStart ∧
      lexeme = ⟨.operator, 1, ctx.enterReference⟩ := by
  cases h with
  | reference h => exact ⟨_, rfl, h, rfl⟩
  | ellipsis | pair | mark => simp [Context.endExpression, Context.openExpression] at href
  | literal => simp [category_insideLiteral] at hc
  | word => exact absurd (hc ▸ category_word_not_mem ctx _) (by simp)
  | _ => simp [Lexeme.comment, Lexeme.comma, Lexeme.openBracket, Lexeme.closeBracket,
      Lexeme.decorator] at hc

end Highlighter.Lexeme
