import Highlighter.Proofs.Lexeme.Argument
import Highlighter.Proofs.Lexer.Literal

/-!
# Keywords and the tokens after them

A keyword leads a statement because an argument follows it. That is decided by a look at the
text ahead, but it comes true of the tokens: right after a keyword, the tokens begin an
argument (`Token.BeginArgument`). And where a word might have been promoted and was not, the
tokens after it begin no argument, or else they adjoin the word, as in a call
(`keyword_leads_argument`).

The tokens after a place begin an argument exactly if the lexeme that is recognized there is
one or begins one (`beginArgument_iff`); the rest is known of lexemes.
-/

namespace Highlighter

namespace Token

/-- Some tokens begin an argument: a word, a number, a literal, a decorator, an opening
    bracket, or the mark of a reference with the word right after it. -/
inductive BeginArgument (line : Text) : List Token → Prop
  | single {token : Token} {following : List Token} :
    token.category ∈ [.name, .number, .string, .decorator] →
      BeginArgument line (token :: following)
  | bracket {token : Token} {following : List Token} {c : Char} :
    token.category = .bracket → isOpenBracket c → token.text? line = some [c] →
      BeginArgument line (token :: following)
  | reference {token word : Token} {following : List Token} :
    token.IsReferenceMark line → word.category = .reference →
      word.span.start = token.span.stop → BeginArgument line (token :: word :: following)

/-- The token after a word begins right at its end and makes it a call, an index or the tag of
    a literal. -/
def Adjoined (line : Text) (token : Token) (following : List Token) : Prop :=
  ∃ next ∈ following.head?, next.span.start = token.span.stop ∧
    (next.category = .string ∨ next.category = .bracket ∧
      (next.text? line = some ['('] ∨ next.text? line = some ['[']))

end Token

namespace Lexer

variable {ctx : Context} {line rest text : Text} {lexer after : Lexer} {token : Token}
  {read following : List Token} {c : Char}

/-- The next token, where no literal is open, is the lexeme after the blanks. -/
theorem exists_emits_next (hl : ¬lexer.context.inLiteral)
    (h : lexer.next = (some token, after)) :
    ∃ c rest, lexer.approach.cursor.rest = c :: rest ∧
      lexer.approach.Emits (Lexeme.next lexer.approach.context c rest) token after := by
  obtain ⟨lexeme, he⟩ := exists_emits_of_next h
  obtain ⟨c, rest, hr, -⟩ := exists_of_lexeme? he.lexeme?
  obtain rfl := Option.some.inj ((lexeme?_approach hl hr).symm.trans he.lexeme?)
  exact ⟨c, rest, hr, he⟩

/-- The first token that is read is the next one. -/
theorem exists_next_of_rest_eq_cons (h : lexer.rest.1 = token :: following) :
    ∃ after, lexer.next = (some token, after) ∧ after.rest.1 = following := by
  rcases hn : lexer.next with ⟨_ | first, after⟩
  · rw [rest_of_next_none hn] at h
    cases h
  · rw [rest_of_next_some hn] at h
    cases h
    exact ⟨after, rfl, rfl⟩

/-- A token that is classified as a word is the lexeme of a word. -/
theorem exists_word_of_category (h : lexer.next = (some token, after))
    (hc : token.category ∈ [.keyword, .name, .reference, .property]) :
    ¬lexer.context.inLiteral ∧ ∃ c rest, isWordStart c ∧ lexer.approach.cursor.rest = c :: rest ∧
      lexer.approach.Emits (Lexeme.word lexer.approach.context (c :: rest)) token after := by
  obtain ⟨lexeme, he⟩ := exists_emits_of_next h
  rw [he.category] at hc
  obtain ⟨c, rest, hr, ⟨-, rfl⟩ | ⟨hl, rfl⟩⟩ := exists_of_lexeme? he.lexeme?
  · simp [Lexeme.category_insideLiteral] at hc
  · obtain ⟨d, tail, heq, hword, hlexeme⟩ := (Lexeme.recognized_next ..).exists_word hc
    cases heq
    rw [hlexeme] at he
    rw [Context.inLiteral, literal_approach] at hl
    exact ⟨hl, c, rest, hword, hr, he⟩

/-- If the tokens read from a place on begin an argument, one is recognized there. -/
theorem isArgument_of_beginArgument (hl : ¬lexer.context.inLiteral)
    (h : Token.BeginArgument lexer.cursor.line lexer.rest.1) :
    ∃ c rest, lexer.approach.cursor.rest = c :: rest ∧
      (Lexeme.next lexer.approach.context c rest).IsArgument (c :: rest) := by
  generalize htokens : lexer.rest.1 = tokens at h
  cases h with
  | single hc =>
    obtain ⟨after, hnext, -⟩ := exists_next_of_rest_eq_cons htokens
    obtain ⟨c, rest, hr, he⟩ := exists_emits_next hl hnext
    exact ⟨c, rest, hr, .inl (he.category ▸ hc)⟩
  | @bracket _ _ d hc ho ht =>
    obtain ⟨after, hnext, -⟩ := exists_next_of_rest_eq_cons htokens
    obtain ⟨c, rest, hr, he⟩ := exists_emits_next hl hnext
    obtain ⟨_, htext⟩ := he.exists_text_cons hr
    rw [line_approach, ht] at htext
    obtain rfl : d = c := (List.cons.inj (Option.some.inj htext)).1
    exact ⟨d, rest, hr, .inr (.inl ⟨he.category ▸ hc, by simpa using ho⟩)⟩
  | reference hm hw =>
    obtain ⟨after, hnext, hfollowing⟩ := exists_next_of_rest_eq_cons htokens
    obtain ⟨c, rest, hr, he⟩ := exists_emits_next hl hnext
    -- the word was read in the context that the mark left
    obtain ⟨_, hnext', -⟩ := exists_next_of_rest_eq_cons hfollowing
    obtain ⟨-, _, _, -, -, hword⟩ := exists_word_of_category hnext' (by simp [hw])
    have href := ((Lexeme.category_word ..).2.1.1 (hword.category ▸ hw)).2
    rw [context_approach_of_next hnext, he.context] at href
    exact ⟨c, rest, hr, .inr (.inr ⟨he.category ▸ hm.1, href⟩)⟩

/-- If an argument is recognized at a place, the tokens read from there begin one. -/
theorem beginArgument_of_isArgument (hl : ¬lexer.context.inLiteral)
    (hr : lexer.approach.cursor.rest = c :: rest)
    (ha : (Lexeme.next lexer.approach.context c rest).IsArgument (c :: rest)) :
    Token.BeginArgument lexer.cursor.line lexer.rest.1 := by
  obtain ⟨token, after, hnext, he⟩ := exists_next_of_lexeme? (lexeme?_approach hl hr)
  have ht := he.text?
  rw [line_approach, hr] at ht
  rw [rest_of_next_some hnext]
  rcases ha with hc | ⟨hc, ho⟩ | ⟨hc, href⟩
  · exact .single (he.category ▸ hc)
  · have ho : isOpenBracket c := by simpa using ho
    rw [Lexeme.next_of_isOpenBracket ho] at he ht
    exact .bracket he.category ho ht
  · -- the word begins right after the mark
    obtain ⟨tail, heq, hword, hlexeme⟩ := (Lexeme.recognized_next ..).exists_reference hc href
    cases heq
    rw [hlexeme] at he ht
    obtain ⟨d, tail, rfl⟩ : ∃ d tail, rest = d :: tail :=
      List.exists_cons_of_ne_nil (by rintro rfl; cases hword)
    have hd : isWordStart d := by simpa using hword
    have hrest : after.cursor.rest = d :: tail := by
      rw [he.rest, hr]
      rfl
    have hcursor : after.approach.cursor = after.cursor :=
      cursor_approach_of_not_isBlank hrest (not_isBlank_of_isWordStart hd)
    have hl' : ¬after.context.inLiteral := by
      rw [he.context]
      simpa [Context.inLiteral, Context.enterReference, literal_approach] using hl
    obtain ⟨word, after', hnext', he'⟩ :=
      exists_next_of_lexeme? (lexeme?_approach hl' (hcursor.symm ▸ hrest))
    rw [Lexeme.next_of_isWordStart hd] at he'
    rw [rest_of_next_some hnext']
    refine .reference ⟨he.category, ht⟩ ?_ ?_
    · rw [he'.category, context_approach_of_next hnext, he.context]
      exact (Lexeme.category_word ..).2.1.2
        ⟨by simp [Context.enterReference], by simp [Context.enterReference]⟩
    · rw [he'.start, hcursor, he.position]

/-! ## After a word -/

/-- Outside literals, blanks are passed before a token. -/
theorem rest_approach (hl : ¬lexer.context.inLiteral) :
    lexer.approach.cursor.rest = lexer.cursor.rest.dropWhile isBlank := by
  rw [approach_of_not_inLiteral hl, Cursor.rest_skipBlanks]

/-- A word, with what it leaves: no literal is open, and the context is that of a keyword, or
    else that after an expression. -/
theorem exists_leaves_of_category (h : lexer.next = (some token, after))
    (hc : token.category ∈ [.keyword, .name, .reference, .property]) :
    ¬after.context.inLiteral ∧ after.approach.context = after.context ∧
      (token.category = .keyword →
        after.context = lexer.approach.context.afterKeyword ∧
        Lexeme.beginsArgument after.cursor.rest) ∧
      (token.category = .name → after.context = lexer.approach.context.endExpression ∧
        (lexer.approach.context.mayPromote → ¬Lexeme.beginsArgument after.cursor.rest)) := by
  obtain ⟨hl, c, rest, -, hr, he⟩ := exists_word_of_category h hc
  have hbegins : (c :: rest).drop (Lexeme.word lexer.approach.context (c :: rest)).width =
      after.cursor.rest := by rw [he.rest, hr]
  obtain ⟨-, -, hkeyword, hname⟩ := Lexeme.category_word lexer.approach.context (c :: rest)
  obtain ⟨hopen, hend⟩ := @Lexeme.context_of_category_word lexer.approach.context (c :: rest)
  rw [he.category, he.context]
  rw [hbegins] at hkeyword hname
  refine ⟨?_, by rw [context_approach_of_next h, he.context], fun hc => ?_, fun hc => ?_⟩
  · by_cases hc : (Lexeme.word lexer.approach.context (c :: rest)).category = .keyword
    · rwa [hopen hc, Context.inLiteral, Context.afterKeyword, Context.openExpression,
        literal_approach]
    · rwa [hend hc, Context.inLiteral, Context.endExpression, literal_approach]
  · exact ⟨hopen hc, (hkeyword.1 hc).2⟩
  · exact ⟨hend (by simp [hc]), fun hp hb => (hname.1 hc).2.2 ⟨hp, hb⟩⟩

/-- Where an argument is recognized right at a word, its token adjoins the word. -/
theorem adjoined_of_isArgument (h : lexer.next = (some token, after))
    (hl : ¬after.context.inLiteral) (hstart : ¬after.approach.context.expressionStart)
    (hr : after.approach.cursor.rest = c :: rest)
    (ha : (Lexeme.next after.approach.context c rest).IsArgument (c :: rest))
    (hadjoins : Lexeme.AdjoinsWord after.cursor.rest) :
    token.Adjoined after.cursor.line after.rest.1 := by
  obtain ⟨_, _, hcons, hblank⟩ := hadjoins.exists_cons
  have hcursor : after.approach.cursor = after.cursor :=
    cursor_approach_of_not_isBlank hcons hblank
  have hrest : after.cursor.rest = c :: rest := hcursor ▸ hr
  obtain ⟨next, following, hnext, he⟩ := exists_next_of_lexeme? (lexeme?_approach hl hr)
  have ht := he.text?
  rw [line_approach, hr] at ht
  obtain ⟨lexeme, hword⟩ := exists_emits_of_next h
  rw [rest_of_next_some hnext]
  refine ⟨next, rfl, ?_, ?_⟩
  · rw [he.start, hcursor, hword.position]
  · rw [he.category]
    refine (Lexeme.category_of_adjoinsWord hstart ha (hrest ▸ hadjoins)).imp_right ?_
    rintro ⟨hbracket, hc⟩
    rw [hbracket] at ht ⊢
    refine ⟨rfl, hc.imp ?_ ?_⟩
    · rintro rfl
      exact ht
    · rintro rfl
      exact ht

/-- After a keyword, an argument of it follows. Where a word might have been promoted and was
    not, none follows, or it adjoins the word. -/
theorem keyword_leads_argument (h : (tokenizeLine ctx line).1 = read ++ token :: following) :
    ∃ lexer after, Reads (.ofLine line ctx) read lexer ∧ lexer.next = (some token, after) ∧
      (token.category = .keyword → Token.BeginArgument line following) ∧
      (token.category = .name → lexer.approach.context.mayPromote →
        Token.BeginArgument line following → token.Adjoined line following) := by
  obtain ⟨lexer, after, hreads, hnext⟩ := exists_reads_of_tokenizeLine h
  have hrest := hreads.rest_of_tokenizeLine h
  rw [rest_of_next_some hnext] at hrest
  obtain rfl : after.rest.1 = following := (List.cons.inj hrest).2
  obtain rfl : after.cursor.line = line := (line_next hnext).trans hreads.line_eq
  refine ⟨lexer, after, hreads, hnext, fun hc => ?_, fun hc hp hb => ?_⟩
  · obtain ⟨hl, hctx, hkeyword, -⟩ := exists_leaves_of_category hnext (by simp [hc])
    obtain ⟨hafter, hbegins⟩ := hkeyword hc
    obtain ⟨-, c, rest, hdrop, hstarts⟩ := Lexeme.beginsArgument_iff.1 hbegins
    refine beginArgument_of_isArgument hl ((rest_approach hl).trans hdrop) ?_
    rw [hctx, hafter]
    exact Lexeme.isArgument_next (by simp [Context.mayPromote, Context.afterKeyword])
      (by simp [Context.afterKeyword, Context.openExpression])
      (by simp [Context.afterKeyword, Context.openExpression]) hstarts
  · obtain ⟨hl, hctx, -, hname⟩ := exists_leaves_of_category hnext (by simp [hc])
    obtain ⟨hafter, hbegins⟩ := hname hc
    obtain ⟨c, rest, hr, ha⟩ := isArgument_of_beginArgument hl hb
    have hstart : ¬after.approach.context.expressionStart := by
      rw [hctx, hafter]
      simp [Context.endExpression]
    refine adjoined_of_isArgument hnext hl hstart hr ha ?_
    -- otherwise the look ahead would have found the argument
    by_contra hadjoins
    exact hbegins hp (Lexeme.beginsArgument_iff.2 ⟨hadjoins, c, rest,
      (rest_approach hl).symm.trans hr, ((Lexeme.recognized_next ..).startsArgument ha).of_open⟩)

/-- The sign after a keyword begins its argument; a bracket right after a word makes a call. -/
theorem keyword_leads_argument_call :
    let statement : Text := "print -1".toList
    let argument : List Token := [⟨.number, 6, 8, by decide⟩]
    let call : Text := "f(x)".toList
    let word : Token := ⟨.name, 0, 1, by decide⟩
    let following : List Token := [⟨.bracket, 1, 2, by decide⟩, ⟨.name, 2, 3, by decide⟩,
      ⟨.bracket, 3, 4, by decide⟩]
    ((tokenizeLine {} statement).1 = [] ++ ⟨.keyword, 0, 5, by decide⟩ :: argument ∧
      Token.BeginArgument statement argument) ∧
    (tokenizeLine {} call).1 = [] ++ word :: following ∧ word.Adjoined call following := by
  intro statement argument call word following
  constructor
  · have h : (tokenizeLine {} statement).1 = [] ++ ⟨.keyword, 0, 5, by decide⟩ :: argument := by
      decide +kernel
    obtain ⟨_, _, -, -, hkeyword, -⟩ := keyword_leads_argument h
    exact ⟨h, hkeyword rfl⟩
  · have h : (tokenizeLine {} call).1 = [] ++ word :: following := by decide +kernel
    obtain ⟨lexer, _, hreads, -, -, hname⟩ := keyword_leads_argument h
    obtain rfl := hreads.eq_start
    have hbegins : Token.BeginArgument call following :=
      .bracket rfl (show isOpenBracket '(' by decide) (by decide)
    exact ⟨h, hname rfl rfl hbegins⟩

end Lexer

end Highlighter
