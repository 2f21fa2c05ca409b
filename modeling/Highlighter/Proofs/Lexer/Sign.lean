import Highlighter.Proofs.Lexer.Grammar
import Highlighter.Proofs.Numeral.Longest
import Highlighter.Proofs.Text

/-!
# Signs and points before digits

A sign or a point with a digit right after it may belong to a number or stand for itself, as a
subtraction or before the name of a property. Which of the two it is follows from the token before
it (`Lexer.category_of_sign`), for that token tells whether an expression may start:

* it may at the beginning of a line, and after a token that opens a statement or an expression
  (`Token.Opens`), where a word might be promoted as well;
* it may, too, after a keyword and after a decorator, where no word is promoted
  (`Lexeme.Recognized.not_promotable_iff`).

Only after the mark of a reference does it depend on more, but then a word comes next.
-/

namespace Highlighter

variable {ctx : Context} {line text rest : Text} {token : Token} {lexeme : Lexeme} {c d : Char}

/-- A token leaves the expression open, so that a number after it may have a sign or begin with a
    point: a keyword, a decorator, or a token that opens a statement or an expression. -/
def Token.LeavesOpen (line : Text) (token : Token) : Prop :=
  token.category = .keyword ∨ token.category = .decorator ∨ token.Opens line

/-! ## After a lexeme -/

namespace Lexeme

theorem expressionStart_insideLiteral (ctx : Context) (l : Literal) (text : Text) :
    (insideLiteral (ctx.enterLiteral l) text).context.expressionStart = false := by
  rw [insideLiteral]
  dsimp only [Context.enterLiteral]
  split <;> rfl

/-- An expression may start where no word is promoted after keywords and decorators only, unless a
    word comes next. -/
theorem Recognized.not_promotable_iff (h : Recognized ctx text lexeme)
    (hw : ¬(text.drop lexeme.width).head?.any isWordStart) :
    lexeme.context.expressionStart ∧ ¬lexeme.context.promotable ↔
      lexeme.category = .keyword ∨ lexeme.category = .decorator := by
  cases h with
  -- after these the expression is over
  | number | closeBracket | ellipsis | dot | other =>
    exact iff_of_false (fun h => Bool.false_ne_true h.1) (by rintro (h | h) <;> cases h)
  | literal => simp [expressionStart_insideLiteral, category_insideLiteral]
  -- after these a word may be promoted, too
  | comment | comma | openBracket | pair | mark =>
    exact iff_of_false (fun h => h.2 rfl) (by rintro (h | h) <;> cases h)
  | decorator => exact iff_of_true ⟨rfl, Bool.false_ne_true⟩ (.inr rfl)
  | reference h => exact absurd h hw
  | @word c rest =>
    obtain ⟨hkeyword, hother⟩ := @context_of_category_word ctx (c :: rest)
    by_cases hc : (Lexeme.word ctx (c :: rest)).category = .keyword
    · rw [hkeyword hc]
      exact iff_of_true ⟨rfl, Bool.false_ne_true⟩ (.inl hc)
    · rw [hother hc]
      have hmem := category_word_mem ctx (c :: rest)
      refine iff_of_false (fun h => Bool.false_ne_true h.1) ?_
      rintro (h | h)
      · exact hc h
      · simp [h] at hmem

/-! ## Signs and points -/

/-- Where no expression may start, no number begins with a sign or a point. -/
theorem number?_eq_none (hs : ctx.expressionStart = false) (hc : c = '-' ∨ c = '.') :
    number? ctx (c :: rest) = none := by
  have hdigit : ¬c.isDigit := by rcases hc with rfl | rfl <;> decide
  have hnone : ¬(Numeral.width? ctx.expressionStart (c :: rest)).isSome := by
    rw [Numeral.isSome_width?, hs]
    simpa using hdigit
  rw [number?, Option.not_isSome_iff_eq_none.1 hnone, Option.map_none]

theorem next_sign (hs : ctx.expressionStart = false) :
    next ctx '-' rest = ⟨.operator, 1, ctx.openExpression⟩ := by
  rw [next, number?_eq_none hs (.inl rfl), literal?_eq_none (by decide) (by decide) (by decide)]
  rfl

theorem next_point (hs : ctx.expressionStart = false) (hd : d.isDigit) :
    next ctx '.' (d :: rest) = ⟨.punctuation, 1, ctx.enterProperty⟩ := by
  have hdot : '.' ≠ d := (Text.ne_of_isDigit hd (by decide)).symm
  have hellipsis : ¬ellipsis.isPrefixOf ('.' :: d :: rest) := by simp [ellipsis, hdot]
  rw [next, number?_eq_none hs (.inr rfl), literal?_eq_none (by decide) (by decide) (by decide),
    operator?, if_neg hellipsis]
  rfl

/-- Where an expression may start, a sign or a point with a digit right after it begins a
    number. -/
theorem exists_next_of_expressionStart (hs : ctx.expressionStart) (hc : c = '-' ∨ c = '.')
    (hd : d.isDigit) : ∃ n, next ctx c (d :: rest) = ⟨.number, n + 2, ctx.endExpression⟩ := by
  obtain ⟨width, hwidth⟩ := Option.isSome_iff_exists.1 (Numeral.isSome_width?.2
    (.inr ⟨hs, c, d :: rest, rfl, hc, by simpa using hd⟩))
  -- the first two characters are a numeral, so the longest one takes more than the first
  have hdigits : IsDigits Char.isDigit [d] := ⟨List.cons_ne_nil d [], by simpa using hd⟩
  have hnumeral : Numeral.IsNumeral ctx.expressionStart [c, d] := by
    rcases hc with rfl | rfl
    · exact .signed hs (.whole hdigits)
    · exact .point hs hdigits
  obtain ⟨_, hw, hle⟩ := (Numeral.isLongest_width? ctx.expressionStart (c :: d :: rest)).longest
    [c, d] hnumeral (List.prefix_append [c, d] rest)
  obtain rfl := Option.some.inj (hwidth.symm.trans hw)
  obtain ⟨n, rfl⟩ := Nat.exists_eq_add_of_le' hle
  exact ⟨n, next_of_width? hwidth⟩

/-- A digit begins a number everywhere. -/
theorem exists_next_of_isDigit (hd : d.isDigit) :
    ∃ n, next ctx d rest = ⟨.number, n + 1, ctx.endExpression⟩ := by
  have hsome : (Numeral.width? ctx.expressionStart (d :: rest)).isSome :=
    Numeral.isSome_width?.2 (.inl (by simpa using hd))
  obtain ⟨width, hwidth⟩ := Option.isSome_iff_exists.1 hsome
  obtain ⟨n, rfl⟩ := Nat.exists_eq_add_of_le' (Numeral.width?_pos hwidth)
  exact ⟨n, next_of_width? hwidth⟩

end Lexeme

/-! ## After the token before -/

namespace Lexer

variable {lexer after : Lexer} {read following : List Token}

/-- After a token that leaves something of its line, an expression may start if the token leaves it
    open, unless a word comes next. -/
theorem expressionStart_next (h : lexer.next = (some token, after)) (hr : after.cursor.rest ≠ [])
    (hw : ¬after.cursor.rest.head?.any isWordStart) :
    after.context.expressionStart ↔ token.LeavesOpen lexer.cursor.line := by
  have hf := follows_next h hr
  have hopens := hf.opens fun ha => hw (hf.afterReference.1 ha).2
  have hothers : after.context.expressionStart ∧ ¬after.context.promotable ↔
      token.category = .keyword ∨ token.category = .decorator := by
    obtain ⟨lexeme, he⟩ := exists_emits_of_next h
    obtain ⟨c, rest, hrest, ⟨hl, rfl⟩ | ⟨-, rfl⟩⟩ := exists_of_lexeme? he.lexeme?
    · -- a literal that goes on here is closed, and ends an expression
      rw [he.rest, hrest] at hr
      rw [he.context, Lexeme.context_insideLiteral_of_drop hl hr, he.category,
        Lexeme.category_insideLiteral]
      exact iff_of_false (fun h => Bool.false_ne_true h.1) (by rintro (h | h) <;> cases h)
    · rw [he.rest, hrest] at hw
      rw [he.context, he.category]
      exact (Lexeme.recognized_next ..).not_promotable_iff hw
  rw [Token.LeavesOpen, ← or_assoc, ← hothers, ← hopens]
  by_cases hp : after.context.promotable <;> simp [hp]

/-- Where a token begins that is no word, an expression may start if the token before leaves it
    open, if there is one. -/
theorem expressionStart_approach (h : Reads (.ofLine line ctx) read lexer)
    (hl : ¬lexer.context.inLiteral) (hr : lexer.approach.cursor.rest = c :: rest)
    (hc : ¬isWordStart c) :
    lexer.approach.context.expressionStart ↔ ∀ p ∈ read.getLast?, p.LeavesOpen line := by
  rcases hlast : read.getLast? with _ | p
  · -- an expression starts with the line
    obtain rfl : read = [] := List.getLast?_eq_none_iff.1 hlast
    obtain rfl := h.eq_start
    have hctx : (ofLine line ctx).approach.context = ctx.startStatement := by
      rw [approach, if_neg hl]
      exact if_neg hl
    rw [hctx]
    exact iff_of_true rfl (by simp)
  · obtain ⟨before, hbefore, hnext⟩ := h.exists_of_getLast? hlast
    have hrest : lexer.cursor.rest.dropWhile isBlank = c :: rest := by
      rw [← rest_approach hl, hr]
    have hne : lexer.cursor.rest ≠ [] := rest_ne_nil_of_rest_approach hr
    have hw : ¬lexer.cursor.rest.head?.any isWordStart := by
      obtain ⟨d, tail, htail⟩ := List.exists_cons_of_ne_nil hne
      rw [htail] at hrest ⊢
      intro hd
      rw [List.dropWhile_cons_of_neg (not_isBlank_of_isWordStart hd)] at hrest
      cases hrest
      exact hc hd
    rw [context_approach_of_next hnext, expressionStart_next hnext hne hw, hbefore.line_eq]
    simp [ofLine, Cursor.ofLine, Cursor.line]

/-! ## The token -/

/-- A token begins outside literals, unless it is the first of a line that begins within one. -/
theorem Reads.not_inLiteral (h : Reads (.ofLine line ctx) read lexer)
    (hr : lexer.approach.cursor.rest = c :: rest) (hs : read = [] → ¬ctx.inLiteral) :
    ¬lexer.context.inLiteral := by
  intro hin
  obtain rfl := h.eq_nil_of_inLiteral hin (rest_ne_nil_of_rest_approach hr)
  rw [h.eq_start] at hin
  exact hs rfl hin

/-- Where an expression may start, a sign or a point with a digit after it begins a number. -/
theorem number_of_expressionStart (hl : ¬lexer.context.inLiteral)
    (hr : lexer.approach.cursor.rest = c :: d :: rest) (hc : c = '-' ∨ c = '.') (hd : d.isDigit)
    (hs : lexer.approach.context.expressionStart) (h : lexer.next = (some token, after)) :
    token.category = .number ∧ ∃ t, token.text? lexer.cursor.line = some (c :: d :: t) := by
  obtain ⟨n, hnumber⟩ := @Lexeme.exists_next_of_expressionStart _ rest _ _ hs hc hd
  obtain ⟨_, _, hr', he⟩ := exists_emits_next hl h
  cases hr.symm.trans hr'
  have htext := he.text?
  rw [line_approach, hr, hnumber] at htext
  exact ⟨by rw [he.category, hnumber], rest.take n, htext⟩

/-- Where no expression may start, a sign or a point is a token of its own, and the digits after
    it begin an unsigned number. -/
theorem exists_number_of_not_expressionStart (hl : ¬lexer.context.inLiteral)
    (hr : lexer.approach.cursor.rest = c :: d :: rest) (hc : c = '-' ∨ c = '.') (hd : d.isDigit)
    (hs : lexer.approach.context.expressionStart = false) (h : lexer.next = (some token, after)) :
    token.text? lexer.cursor.line = some [c] ∧
      token.category = (if c = '-' then .operator else .punctuation) ∧
      ∃ next ∈ after.rest.1.head?, next.category = .number ∧
        next.span.start = token.span.stop ∧
        ∃ t, next.text? lexer.cursor.line = some (d :: t) := by
  obtain ⟨_, _, hr', he⟩ := exists_emits_next hl h
  cases hr.symm.trans hr'
  have hlexeme : let lexeme := Lexeme.next lexer.approach.context c (d :: rest)
      lexeme.width = 1 ∧ lexeme.category = (if c = '-' then .operator else .punctuation) := by
    rcases hc with rfl | rfl
    · simp [Lexeme.next_sign hs]
    · simp [Lexeme.next_point hs hd]
  obtain ⟨hwidth, hcategory⟩ := hlexeme
  -- the number begins right after it
  have hrest : after.cursor.rest = d :: rest := by
    rw [he.rest, hr, hwidth]
    rfl
  have hblank : ¬isBlank d := by
    simp (disch := decide) [isBlank, Text.ne_of_isDigit hd]
  have hcursor : after.approach.cursor = after.cursor := cursor_approach_of_not_isBlank hrest hblank
  have hl' : ¬after.context.inLiteral := not_inLiteral_next h (hrest ▸ List.cons_ne_nil d rest)
  have hr' : after.approach.cursor.rest = d :: rest := hcursor ▸ hrest
  obtain ⟨next, _, hnext, he'⟩ := exists_next_of_lexeme? (lexeme?_approach hl' hr')
  obtain ⟨n, hnumber⟩ := @Lexeme.exists_next_of_isDigit after.approach.context rest d hd
  have ht := he.text?
  have ht' := he'.text?
  rw [line_approach] at ht ht'
  refine ⟨?_, he.category.trans hcategory, next, ?_, ?_, ?_, rest.take n, ?_⟩
  · rw [ht, hr, hwidth]
    rfl
  · rw [rest_of_next_some hnext]
    rfl
  · rw [he'.category, hnumber]
  · rw [he'.start, hcursor, he.position]
  · rw [← line_next h, ht', hr', hnumber]
    rfl

/-- A sign or a point with a digit right after it begins a number if the token before leaves the
    expression open, or there is none on the line. Otherwise it is an operator, or punctuation,
    and the number after it has no sign. -/
theorem category_of_sign (h : (tokenizeLine ctx line).1 = read ++ token :: following)
    (hs : read = [] → ¬ctx.inLiteral)
    (ht : Text.dropBytes? token.span.start line = some (c :: d :: rest))
    (hc : c = '-' ∨ c = '.') (hd : d.isDigit) :
    let isOpen := ∀ p ∈ read.getLast?, p.LeavesOpen line
    (token.category = .number ↔ isOpen) ∧
    (isOpen → ∃ t, token.text? line = some (c :: d :: t)) ∧
    (¬isOpen → token.text? line = some [c] ∧
      token.category = (if c = '-' then .operator else .punctuation) ∧
      ∃ next ∈ following.head?, next.category = .number ∧ next.span.start = token.span.stop ∧
        ∃ t, next.text? line = some (d :: t)) := by
  intro isOpen
  obtain ⟨lexer, after, hreads, hnext⟩ := exists_reads_of_tokenizeLine h
  obtain rfl : lexer.cursor.line = line := hreads.line_eq
  obtain ⟨lexeme, he⟩ := exists_emits_of_next hnext
  -- what remains of the line where the token begins
  have hr : lexer.approach.cursor.rest = c :: d :: rest := by
    rw [he.start, ← line_approach, Cursor.dropBytes?_position] at ht
    exact Option.some.inj ht
  have hl : ¬lexer.context.inLiteral := hreads.not_inLiteral hr hs
  have hword : ¬isWordStart c := by rcases hc with rfl | rfl <;> decide
  have hopen : lexer.approach.context.expressionStart ↔ isOpen :=
    expressionStart_approach hreads hl hr hword
  have hfollowing : following = after.rest.1 := by
    have hrest := hreads.rest_of_tokenizeLine h
    rw [rest_of_next_some hnext] at hrest
    exact (List.cons.inj hrest).2.symm
  rw [hfollowing, ← hopen]
  by_cases hstart : lexer.approach.context.expressionStart
  · obtain ⟨hcategory, htext⟩ := number_of_expressionStart hl hr hc hd hstart hnext
    exact ⟨iff_of_true hcategory hstart, fun _ => htext, fun hnot => absurd hstart hnot⟩
  · obtain ⟨htext, hcategory, hnumber⟩ :=
      exists_number_of_not_expressionStart hl hr hc hd (by simpa using hstart) hnext
    refine ⟨iff_of_false ?_ hstart, fun h => absurd h hstart, fun _ => ⟨htext, hcategory, hnumber⟩⟩
    rw [hcategory]
    split <;> decide

/-- After a call, a sign stands for a subtraction; after an operator, it belongs to the number. -/
theorem category_of_sign_after :
    let call : Text := "f(y) -1".toList
    let assigned : Text := "x = -1".toList
    let read : List Token := [⟨.name, 0, 1, by decide⟩, ⟨.bracket, 1, 2, by decide⟩,
      ⟨.name, 2, 3, by decide⟩, ⟨.bracket, 3, 4, by decide⟩]
    let sign : Token := ⟨.operator, 5, 6, by decide⟩
    let number : Token := ⟨.number, 6, 7, by decide⟩
    let equals : Token := ⟨.operator, 2, 3, by decide⟩
    let signed : Token := ⟨.number, 4, 6, by decide⟩
    ((tokenizeLine {} call).1 = read ++ sign :: [number] ∧
      ¬∀ p ∈ read.getLast?, p.LeavesOpen call) ∧
    (tokenizeLine {} assigned).1 = [⟨.name, 0, 1, by decide⟩, equals] ++ signed :: [] ∧
      equals.LeavesOpen assigned := by
  intro call assigned read sign number equals signed
  constructor
  · have h : (tokenizeLine {} call).1 = read ++ sign :: [number] := by decide +kernel
    obtain ⟨hiff, -⟩ := category_of_sign h (by simp)
      (show Text.dropBytes? sign.span.start call = some ('-' :: '1' :: []) by decide +kernel)
      (.inl rfl) (by decide)
    exact ⟨h, fun hopen => by cases hiff.2 hopen⟩
  · have h : (tokenizeLine {} assigned).1 = [⟨.name, 0, 1, by decide⟩, equals] ++ signed :: [] := by
      decide +kernel
    obtain ⟨hiff, -⟩ := category_of_sign h (by simp)
      (show Text.dropBytes? signed.span.start assigned = some ('-' :: '1' :: []) by decide +kernel)
      (.inl rfl) (by decide)
    exact ⟨h, hiff.1 rfl equals rfl⟩

end Lexer

end Highlighter
