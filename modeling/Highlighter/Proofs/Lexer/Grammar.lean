import Highlighter.Proofs.Lexeme.Grammar
import Highlighter.Proofs.Lexer.Keyword

/-!
# The texts of tokens

Every token of a line has a text of its category, and as much of the line as that allows
(`exists_admits_of_mem`). This is so of every lexeme (`Lexeme.admits_next`), and a token is one,
unless it goes on with a literal. A literal goes on only at the beginning of a line: after a
token that leaves something of the line, none is open (`not_inLiteral_next`).
-/

namespace Highlighter

variable {ctx : Context} {line text : Text} {token : Token} {lexeme : Lexeme}

/-- A lexeme that leaves something of its text leaves no literal open. -/
theorem Lexeme.Recognized.not_inLiteral (h : Recognized ctx text lexeme) (hl : ¬ctx.inLiteral)
    (hr : text.drop lexeme.width ≠ []) : ¬lexeme.context.inLiteral := by
  cases h with
  | @literal l body =>
    rw [← l.length_opening, List.drop_length_add_append] at hr
    rw [context_insideLiteral_of_drop rfl hr]
    exact Bool.false_ne_true
  | word =>
    rw [Lexeme.word]
    split <;> exact hl
  | _ => exact hl

namespace Lexer

variable {lexer after : Lexer} {read : List Token}

/-- After a token that leaves something of the line, no literal is open. -/
theorem not_inLiteral_next (h : lexer.next = (some token, after)) (hr : after.cursor.rest ≠ []) :
    ¬after.context.inLiteral := by
  obtain ⟨lexeme, he⟩ := exists_emits_of_next h
  obtain ⟨c, rest, hrest, ⟨hl, rfl⟩ | ⟨hl, rfl⟩⟩ := exists_of_lexeme? he.lexeme?
  · rw [he.rest, hrest] at hr
    rw [he.context, Lexeme.context_insideLiteral_of_drop hl hr]
    exact Bool.false_ne_true
  · rw [he.rest, hrest] at hr
    rw [he.context]
    exact (Lexeme.recognized_next ..).not_inLiteral hl hr

/-- Within a line, a literal goes on only where nothing was read. -/
theorem Reads.eq_nil_of_inLiteral {start : Lexer} (h : Reads start read lexer)
    (hl : lexer.context.inLiteral) (hr : lexer.cursor.rest ≠ []) : read = [] := by
  cases h with
  | start => rfl
  | next _ hn => exact absurd hl (not_inLiteral_next hn hr)

/-- Outside literals, no token begins with a blank. -/
theorem not_isBlank_of_rest_approach {c : Char} {rest : Text} (hl : ¬lexer.context.inLiteral)
    (hr : lexer.approach.cursor.rest = c :: rest) : ¬isBlank c := by
  rw [rest_approach hl] at hr
  have hhead := List.head?_dropWhile_not isBlank lexer.cursor.rest
  rw [hr] at hhead
  simpa using hhead

/-- A token that goes on with a literal is the first of its line. -/
theorem Reads.passed_approach_of_inLiteral (h : Reads (.ofLine line ctx) read lexer)
    (hl : lexer.approach.context.inLiteral) (hr : lexer.approach.cursor.rest ≠ []) :
    ctx.inLiteral ∧ lexer.approach.cursor.passed = [] := by
  replace hl : lexer.context.inLiteral := by rwa [Context.inLiteral, literal_approach] at hl
  have hcursor : lexer.approach.cursor = lexer.cursor := by rw [approach, if_pos hl]
  rw [hcursor] at hr ⊢
  obtain rfl := h.eq_nil_of_inLiteral hl hr
  obtain rfl := h.eq_start
  exact ⟨hl, rfl⟩

/-- Every token of a line is a text of its category, and the longest that stands there. None
    begins with a foreign character but those that are unclassified, and what the line holds of
    a literal from the line before. -/
theorem exists_admits_of_mem (h : token ∈ (tokenizeLine ctx line).1) :
    ∃ before text rest, line = before ++ (text ++ rest) ∧
      token.span.start = Text.byteLength before ∧
      token.span.stop = Text.byteLength before + Text.byteLength text ∧
      token.category.Admits text rest ∧
      ∀ c ∈ text.head?, isForeign c → token.category = .unclassified ∨
        token.category = .string ∧ ctx.inLiteral ∧ before = [] := by
  obtain ⟨read, following, htokens⟩ := List.append_of_mem h
  obtain ⟨lexer, after, hreads, hnext⟩ := exists_reads_of_tokenizeLine htokens
  obtain ⟨lexeme, he⟩ := exists_emits_of_next hnext
  obtain ⟨c, rest, hrest, hlexeme⟩ := exists_of_lexeme? he.lexeme?
  have hline : lexer.approach.cursor.line = line := (line_approach lexer).trans hreads.line_eq
  refine ⟨lexer.approach.cursor.passed.reverse, (c :: rest).take lexeme.width,
    (c :: rest).drop lexeme.width, ?_, ?_, ?_, ?_⟩
  · rw [List.take_append_drop, ← hrest, ← hline, Cursor.line]
  · rw [he.start, Cursor.position_eq_byteLength]
  · rw [he.stop, Cursor.position_eq_byteLength, hrest]
  rw [he.category]
  rcases hlexeme with ⟨hl, rfl⟩ | ⟨hl, rfl⟩
  · obtain ⟨hctx, hpassed⟩ := hreads.passed_approach_of_inLiteral hl (by simp [hrest])
    rw [Lexeme.category_insideLiteral, hpassed]
    exact ⟨trivial, fun _ _ _ => .inr ⟨rfl, hctx, rfl⟩⟩
  · rw [Context.inLiteral, literal_approach] at hl
    refine ⟨Lexeme.admits_next (not_isBlank_of_rest_approach hl hrest), fun d hd hforeign => ?_⟩
    -- the text of the token begins where the lexeme does
    obtain rfl : c = d := by
      rw [List.head?_take, if_neg (Lexeme.width_next_pos ..).ne'] at hd
      exact Option.some.inj hd
    exact .inl (Lexeme.category_next_of_isForeign hforeign)

/-- Of three equals signs, the first two are an operator. -/
theorem exists_admits_of_mem_equals :
    let token : Token := ⟨.operator, 2, 4, by decide⟩
    token ∈ (tokenizeLine {} "a === b".toList).1 ∧
      ∃ before text rest, "a === b".toList = before ++ (text ++ rest) ∧
        Text.byteLength before = 2 ∧ Text.byteLength text = 2 ∧ IsOperator text rest := by
  intro token
  have h : token ∈ (tokenizeLine {} "a === b".toList).1 := by decide +kernel
  obtain ⟨before, text, rest, hline, hstart, hstop, hadmits, -⟩ := exists_admits_of_mem h
  have hstart : 2 = Text.byteLength before := hstart
  have hstop : 4 = Text.byteLength before + Text.byteLength text := hstop
  exact ⟨h, before, text, rest, hline, hstart.symm, by omega, hadmits⟩

end Lexer

end Highlighter
