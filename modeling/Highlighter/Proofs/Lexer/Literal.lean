import Highlighter.Proofs.Lexer.Run

/-!
# The token of a literal

Where a literal begins, and on every line on which it goes on, its token covers all that
the line holds of it: up to the first closing sequence that counts, or else the rest of the
line, and then the literal stays open (`next_literal`).
-/

namespace Highlighter

variable {ctx : Context} {l : Literal} {body : Text}

/-! ## The opening in bytes -/

namespace Literal

theorem byteLength_replicate_escapeMark (n : Nat) :
    Text.byteLength (List.replicate n escapeMark) = n := by
  induction n with
  | zero => rfl
  | succ n ih => rw [List.replicate_succ, Text.byteLength_cons, ih, Nat.add_comm]; rfl

/-- Escape marks and quotes are single bytes. -/
theorem byteLength_opening (l : Literal) : Text.byteLength l.opening = l.openingWidth := by
  rw [opening, Text.byteLength_append, byteLength_replicate_escapeMark, openingWidth]
  cases l.quote <;> rfl

end Literal

/-! ## What a text holds of a literal -/

namespace Lexeme

theorem insideLiteral_of_isLeast {p : Nat} (hl : ctx.literal = some l)
    (hp : IsLeast {p | l.ClosesAt body p} p) :
    insideLiteral ctx body = ⟨.string, p + l.closing.length, ctx.leaveLiteral⟩ := by
  have hw : l.widthWithin? body = some (p + l.closing.length) :=
    Literal.widthWithin?_eq_some_iff.2 ⟨p, hp, rfl⟩
  simp [insideLiteral, hl, hw]

theorem insideLiteral_of_forall_not (hl : ctx.literal = some l) (hp : ∀ p, ¬l.ClosesAt body p) :
    insideLiteral ctx body = ⟨.string, body.length, ctx⟩ := by
  have hw : l.widthWithin? body = none := Literal.widthWithin?_eq_none_iff.2 hp
  simp [insideLiteral, hl, hw]

end Lexeme

/-! ## The token -/

namespace Lexer

/-- How far the token of a literal goes, with the lexer after it, where the text of the
    literal begins at the byte `start`. -/
structure LiteralExtent (l : Literal) (body : Text) (start : Nat) (token : Token)
    (after : Lexer) : Prop where
  category : token.category = .string
  /-- It ends after the first closing sequence that counts, which closes the literal. -/
  closed : ∀ p, IsLeast {p | l.ClosesAt body p} p →
    token.span.stop = start + Text.byteLength (body.take (p + l.closing.length)) ∧
    after.cursor.rest = body.drop (p + l.closing.length) ∧
    after.context.literal = none
  /-- If there is none, it takes the rest of the line and leaves the literal open. -/
  unclosed : (∀ p, ¬l.ClosesAt body p) →
    token.span.stop = start + Text.byteLength body ∧
    after.cursor.rest = [] ∧
    after.context.literal = some l

variable {lexer after : Lexer} {token : Token}

theorem approach_of_literal (h : lexer.context.literal = some l) :
    lexer.approach = { lexer with tokenStart := lexer.cursor.position } := by
  rw [approach, if_pos (by simp [Context.inLiteral, h])]

/-- A line that begins within a literal begins with what it holds of the literal. -/
theorem next_ofLine_of_literal {line : Text} (hl : ctx.literal = some l)
    (hne : line ≠ []) :
    (ofLine line ctx).next =
      let emitted := (ofLine line ctx).emit (Lexeme.insideLiteral ctx line)
      (some emitted.1, emitted.2) := by
  obtain ⟨c, rest, rfl⟩ := List.exists_cons_of_ne_nil hne
  have hin : ctx.inLiteral := by simp [Context.inLiteral, hl]
  have hlexeme : (ofLine (c :: rest) ctx).lexeme? =
      some (Lexeme.insideLiteral ctx (c :: rest)) := by
    simp [lexeme?, ofLine, Cursor.ofLine, hin]
  have happroach : (ofLine (c :: rest) ctx).approach = ofLine (c :: rest) ctx :=
    approach_of_literal hl
  rw [next, happroach, Lexer.read, hlexeme]

/-- Where no blank comes next, the next token begins right here. -/
theorem cursor_approach_of_not_isBlank {c : Char} {rest : Text} (hr : lexer.cursor.rest = c :: rest)
    (hc : ¬isBlank c) : lexer.approach.cursor = lexer.cursor := by
  rw [approach]
  split
  · rfl
  · exact Cursor.skipBlanks_of_not_isBlank hr hc

/-- The token of a lexeme that takes some text with what follows it of a literal. -/
theorem Emits.literalExtent {opening : Text} {lexeme : Lexeme} (he : lexer.Emits lexeme token after)
    (hl : ctx.literal = some l) (hr : lexer.cursor.rest = opening ++ body)
    (hwidth : lexeme.width = opening.length + (Lexeme.insideLiteral ctx body).width)
    (hcategory : lexeme.category = .string)
    (hcontext : lexeme.context = (Lexeme.insideLiteral ctx body).context) :
    LiteralExtent l body (lexer.cursor.position + Text.byteLength opening) token after := by
  have hstop : token.span.stop = lexer.cursor.position + Text.byteLength opening +
      Text.byteLength (body.take (Lexeme.insideLiteral ctx body).width) := by
    rw [he.stop, hr, hwidth, List.take_length_add_append, Text.byteLength_append, Nat.add_assoc]
  have hrest : after.cursor.rest = body.drop (Lexeme.insideLiteral ctx body).width := by
    rw [he.rest, hr, hwidth, List.drop_length_add_append]
  refine ⟨he.category.trans hcategory, fun p hp => ?_, fun hp => ?_⟩
  · rw [hstop, hrest, he.context, hcontext, Lexeme.insideLiteral_of_isLeast hl hp]
    exact ⟨rfl, rfl, rfl⟩
  · rw [hstop, hrest, he.context, hcontext, Lexeme.insideLiteral_of_forall_not hl hp,
      List.take_length, List.drop_length]
    exact ⟨rfl, rfl, hl⟩

/-- Where a literal opens, its token takes what the line holds of it. -/
theorem exists_next_opening (hl : ¬lexer.context.inLiteral)
    (hr : lexer.approach.cursor.rest = l.opening ++ body) :
    ∃ token after, lexer.next = (some token, after) ∧
      after.cursor.rest = body.drop
        (Lexeme.insideLiteral (lexer.approach.context.enterLiteral l) body).width ∧
      after.context =
        (Lexeme.insideLiteral (lexer.approach.context.enterLiteral l) body).context := by
  obtain ⟨c, tail, hcons⟩ : ∃ c tail, l.opening ++ body = c :: tail :=
    List.exists_cons_of_ne_nil (by simp [Literal.opening])
  have hlexeme := lexeme?_approach hl (hr.trans hcons)
  rw [Lexeme.next_opening hcons.symm, ← l.length_opening] at hlexeme
  obtain ⟨token, after, hnext, he⟩ := exists_next_of_lexeme? hlexeme
  refine ⟨token, after, hnext, ?_, he.context⟩
  rw [he.rest, hr, List.drop_length_add_append]

/-- A literal is read as one token, from its opening or, where it goes on from the line
    before, from the beginning of the line. -/
theorem next_literal (lexer : Lexer) (l : Literal) (body : Text) :
    (lexer.context.literal = none → lexer.cursor.rest = l.opening ++ body →
      ∃ token after, lexer.next = (some token, after) ∧
        token.span.start = lexer.cursor.position ∧
        LiteralExtent l body (lexer.cursor.position + l.openingWidth) token after) ∧
    (lexer.context.literal = some l → lexer.cursor.rest = body → body ≠ [] →
      ∃ token after, lexer.next = (some token, after) ∧
        token.span.start = lexer.cursor.position ∧
        LiteralExtent l body lexer.cursor.position token after) := by
  constructor
  · -- from the opening: no blank is passed before it, and no numeral begins with it
    intro hnone hr
    obtain ⟨c, rest, hcons⟩ : ∃ c rest, l.opening ++ body = c :: rest :=
      List.exists_cons_of_ne_nil (by simp [Literal.opening])
    have hblank : ¬isBlank c := by
      rcases Literal.head_of_opening hcons.symm with rfl | rfl
      · decide
      · cases l.quote <;> decide
    have hcursor : lexer.approach.cursor = lexer.cursor :=
      cursor_approach_of_not_isBlank (hr.trans hcons) hblank
    have hlexeme : lexer.approach.lexeme? = some (Lexeme.next lexer.approach.context c rest) := by
      rw [lexeme?, hcursor, hr, hcons]
      simp [Context.inLiteral, literal_approach, hnone]
    rw [Lexeme.next_opening hcons.symm, ← l.length_opening] at hlexeme
    obtain ⟨token, after, hnext, he⟩ := exists_next_of_lexeme? hlexeme
    rw [← hcursor] at hr
    rw [← l.byteLength_opening, ← hcursor]
    exact ⟨token, after, hnext, he.start,
      he.literalExtent rfl hr rfl (Lexeme.category_insideLiteral ..) rfl⟩
  · -- from the line before: the text of the literal begins right here
    intro hl hr hne
    obtain ⟨c, rest, rfl⟩ := List.exists_cons_of_ne_nil hne
    have hcursor : lexer.approach.cursor = lexer.cursor := by rw [approach_of_literal hl]
    have hctx : lexer.approach.context.literal = some l := (literal_approach lexer).trans hl
    have hlexeme : lexer.approach.lexeme? =
        some (Lexeme.insideLiteral lexer.approach.context (c :: rest)) := by
      rw [lexeme?, hcursor, hr]
      simp [Context.inLiteral, hctx]
    obtain ⟨token, after, hnext, he⟩ := exists_next_of_lexeme? hlexeme
    rw [← hcursor] at hr ⊢
    have hr : lexer.approach.cursor.rest = [] ++ (c :: rest) := hr
    exact ⟨token, after, hnext, he.start,
      he.literalExtent hctx hr (Nat.zero_add _).symm (Lexeme.category_insideLiteral ..) rfl⟩

/-- An escaped quote does not close a literal, but a quote after an escaped escape mark
    does, also on the next line. -/
theorem next_literal_two_lines :
    (∃ token after, (ofLine "\"a\\\"b".toList {}).next = (some token, after) ∧
      token.span.stop = 5 ∧ after.context.literal = some ⟨.double, 0⟩) ∧
    ∃ token after, (ofLine "c\\\\\" d".toList { literal := some ⟨.double, 0⟩ }).next =
        (some token, after) ∧
      token.span.stop = 4 ∧ after.context.literal = none := by
  constructor
  · obtain ⟨token, after, hnext, -, h⟩ := (next_literal (ofLine "\"a\\\"b".toList {})
      ⟨.double, 0⟩ "a\\\"b".toList).1 rfl rfl
    obtain ⟨hstop, -, hliteral⟩ := h.unclosed (Literal.widthWithin?_eq_none_iff.1 (by decide))
    exact ⟨token, after, hnext, hstop, hliteral⟩
  · obtain ⟨token, after, hnext, -, h⟩ := (next_literal
      (ofLine "c\\\\\" d".toList { literal := some ⟨.double, 0⟩ })
      ⟨.double, 0⟩ "c\\\\\" d".toList).2 rfl rfl (by decide)
    obtain ⟨p, hp, hwidth⟩ := Literal.widthWithin?_eq_some_iff.1
      (show Literal.widthWithin? ⟨.double, 0⟩ "c\\\\\" d".toList = some 4 by decide)
    obtain ⟨hstop, -, hliteral⟩ := h.closed p hp
    rw [hwidth] at hstop
    exact ⟨token, after, hnext, hstop, hliteral⟩

end Lexer

end Highlighter
