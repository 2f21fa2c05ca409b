import Highlighter.Proofs.Lexer.Run

/-!
# How a word is classified

A word is classified by the context, and the context by the token before the word: the flags
of a context say no more than what that token was (`Context.Follows`). This is shown lexeme by
lexeme (`Lexeme.Recognized.follows`), so it holds after every token that leaves something of
its line (`Lexer.follows_next`), and at the beginning of a line the flags are put back.

So the classification can be read off the tokens (`category_of_word`): a word after a dot is
a property, one right after the mark of a reference is the word referred to, and one where a
statement may begin is its keyword, if it has none yet and an argument follows.
-/

namespace Highlighter

/-! ## The token before -/

namespace Token

variable (line : Text) (token : Token)

/-- The dot before a property. -/
def IsDot : Prop :=
  token.category = .punctuation ∧ token.text? line = some ['.']

/-- The operator before a reference. -/
def IsReferenceMark : Prop :=
  token.category = .operator ∧ token.text? line = some [referenceMark]

/-- A token that opens a statement or an expression: a comma, an opening bracket, or an
    operator, but not the ellipsis. -/
def Opens : Prop :=
  token.category = .punctuation ∧ token.text? line = some [','] ∨
  token.category = .bracket ∧ (∃ c, isOpenBracket c ∧ token.text? line = some [c]) ∨
  token.category = .operator ∧ token.text? line ≠ some Lexeme.ellipsis

/-- The token before is a dot, next to the token or not. -/
def FollowsDot (previous : Option Token) : Prop :=
  ∃ p ∈ previous, p.IsDot line

/-- The token before is the mark of a reference, right next to the token. -/
def FollowsReference (previous : Option Token) : Prop :=
  ∃ p ∈ previous, p.IsReferenceMark line ∧ p.span.stop = token.span.start

/-- The token before, if any, allows the token to be the keyword of a statement. -/
def MayLead (previous : Option Token) : Prop :=
  ∀ p ∈ previous, p.Opens line ∧ ¬(p.IsReferenceMark line ∧ p.span.stop = token.span.start)

variable {line token}

theorem IsReferenceMark.opens (h : token.IsReferenceMark line) : token.Opens line :=
  .inr (.inr ⟨h.1, by rw [h.2]; decide⟩)

theorem Opens.not_isDot (h : token.Opens line) : ¬token.IsDot line := by
  rintro ⟨hc, ht⟩
  rcases h with ⟨-, h⟩ | ⟨h, -⟩ | ⟨h, -⟩
  · rw [ht] at h
    exact absurd h (by decide)
  · rw [hc] at h
    cases h
  · rw [hc] at h
    cases h

theorem FollowsReference.not_followsDot {previous : Option Token}
    (h : token.FollowsReference line previous) : ¬FollowsDot line previous := by
  obtain ⟨p, hp, hmark, -⟩ := h
  rintro ⟨q, hq, hdot⟩
  obtain rfl : p = q := Option.mem_unique hp hq
  exact hmark.opens.not_isDot hdot

/-- Only punctuation, brackets and operators have a bearing on what follows. -/
theorem not_isDot_and_not_opens {category : Category} (hc : token.category = category)
    (h : category ∉ [.punctuation, .bracket, .operator]) :
    ¬token.IsDot line ∧ ¬token.Opens line := by
  subst hc
  simp only [List.mem_cons, List.not_mem_nil, or_false, not_or] at h
  obtain ⟨hp, hb, ho⟩ := h
  refine ⟨fun hd => hp hd.1, ?_⟩
  rintro (⟨h, -⟩ | ⟨h, -⟩ | ⟨h, -⟩)
  · exact hp h
  · exact hb h
  · exact ho h

end Token

variable {ctx : Context} {line text rest : Text} {token : Token} {lexeme : Lexeme} {c : Char}

/-! ## After a lexeme -/

namespace Context

/-- The flags of a context say what the token before was, where `rest` remains of the line. -/
structure Follows (ctx : Context) (line : Text) (token : Token) (rest : Text) : Prop where
  afterDot : ctx.afterDot ↔ token.IsDot line
  afterReference : ctx.afterReference ↔ token.IsReferenceMark line ∧ rest.head?.any isWordStart
  /-- The mark of a reference leaves the other flags as they were. -/
  opens : ¬ctx.afterReference → (ctx.expressionStart ∧ ctx.promotable ↔ token.Opens line)

/-- Where no word may be promoted, the token before has no bearing on it. -/
theorem Follows.of_not_opens (h : ¬token.IsDot line ∧ ¬token.Opens line)
    (hctx : ctx.afterDot = false ∧ ctx.afterReference = false ∧ ctx.promotable = false) :
    ctx.Follows line token rest := by
  obtain ⟨hdot, hreference, hpromotable⟩ := hctx
  refine ⟨?_, ?_, fun _ => ?_⟩
  · simp [hdot, h.1]
  · simp [hreference, mt Token.IsReferenceMark.opens h.2]
  · simp [hpromotable, h.2]

/-- Most tokens end an expression, and then only that. -/
theorem Follows.of_category {category : Category} (hc : token.category = category)
    (h : category ∉ [.punctuation, .bracket, .operator])
    (hctx : ctx.afterDot = false ∧ ctx.afterReference = false ∧ ctx.promotable = false) :
    ctx.Follows line token rest :=
  .of_not_opens (Token.not_isDot_and_not_opens hc h) hctx

/-- Where a word may be promoted, the token before opens an expression. -/
theorem Follows.of_opens (h : token.Opens line)
    (hm : token.IsReferenceMark line → ¬rest.head?.any isWordStart)
    (hctx : ctx.expressionStart = true ∧ ctx.promotable = true ∧ ctx.afterDot = false ∧
      ctx.afterReference = false) :
    ctx.Follows line token rest := by
  obtain ⟨hstart, hpromotable, hdot, hreference⟩ := hctx
  refine ⟨?_, ?_, fun _ => ?_⟩
  · simp [hdot, h.not_isDot]
  · simpa [hreference] using hm
  · simp [hstart, hpromotable, h]

/-- A word may be promoted only after a token that opens an expression. -/
theorem Follows.mayPromote_iff (hf : ctx.Follows line token rest) :
    ctx.mayPromote ↔ (token.Opens line ∧ ¬ctx.afterReference) ∧ ctx.locked = false := by
  simp only [mayPromote, Bool.and_eq_true, Bool.not_eq_true']
  constructor
  · rintro ⟨⟨⟨⟨hstart, hpromotable⟩, -⟩, href⟩, hlocked⟩
    have href' : ¬ctx.afterReference := by simp [href]
    exact ⟨⟨(hf.opens href').1 ⟨hstart, hpromotable⟩, href'⟩, hlocked⟩
  · rintro ⟨⟨hopens, href⟩, hlocked⟩
    obtain ⟨hstart, hpromotable⟩ := (hf.opens href).2 hopens
    have hdot : ctx.afterDot = false := by simpa using mt hf.afterDot.1 hopens.not_isDot
    exact ⟨⟨⟨⟨hstart, hpromotable⟩, hdot⟩, by simpa using href⟩, hlocked⟩

end Context

theorem not_isOpenBracket_of_isCloseBracket (h : isCloseBracket c) : ¬isOpenBracket c := by
  simp only [isCloseBracket, Bool.or_eq_true, beq_iff_eq] at h
  rcases h with (rfl | rfl) | rfl <;> decide

namespace Lexeme

theorem context_word (ctx : Context) (text : Text) :
    (word ctx text).context.afterDot = false ∧ (word ctx text).context.afterReference = false ∧
      (word ctx text).context.promotable = false := by
  rw [word]
  split <;> exact ⟨rfl, rfl, rfl⟩

theorem context_insideLiteral (ctx : Context) (l : Literal) (text : Text) :
    let after := (insideLiteral (ctx.enterLiteral l) text).context
    after.afterDot = false ∧ after.afterReference = false ∧ after.promotable = false := by
  rw [insideLiteral]
  dsimp only [Context.enterLiteral]
  split <;> exact ⟨rfl, rfl, rfl⟩

/-- A literal that leaves something of the text is closed. -/
theorem context_insideLiteral_of_drop (hl : ctx.inLiteral)
    (hr : text.drop (insideLiteral ctx text).width ≠ []) :
    (insideLiteral ctx text).context = ctx.leaveLiteral := by
  obtain ⟨l, hl⟩ := Option.isSome_iff_exists.1 hl
  rw [insideLiteral, hl] at hr ⊢
  dsimp only at hr ⊢
  split
  · rfl
  · simp_all

/-- The classes of words. -/
theorem category_word (ctx : Context) (text : Text) :
    ((word ctx text).category = .property ↔ ctx.afterDot) ∧
    ((word ctx text).category = .reference ↔ ¬ctx.afterDot ∧ ctx.afterReference) ∧
    ((word ctx text).category = .keyword ↔
      ctx.mayPromote ∧ beginsArgument (text.drop (word ctx text).width)) ∧
    ((word ctx text).category = .name ↔ ¬ctx.afterDot ∧ ¬ctx.afterReference ∧
      ¬(ctx.mayPromote ∧ beginsArgument (text.drop (word ctx text).width))) := by
  rw [width_word]
  rw [word]
  split_ifs <;> simp_all [Context.mayPromote]

theorem category_word_not_mem (ctx : Context) (text : Text) :
    (word ctx text).category ∉ [.punctuation, .bracket, .operator] := by
  rw [word]
  split_ifs <;> simp

/-- A word is classified as one. -/
theorem category_word_mem (ctx : Context) (text : Text) :
    (word ctx text).category ∈ [.keyword, .name, .reference, .property] := by
  rw [word]
  split_ifs <;> simp

/-- After every lexeme that leaves something of the line, the flags say what it was. -/
theorem Recognized.follows (h : Recognized ctx text lexeme) (hc : token.category = lexeme.category)
    (ht : token.text? line = some (text.take lexeme.width))
    (hr : text.drop lexeme.width ≠ []) :
    lexeme.context.Follows line token (text.drop lexeme.width) := by
  cases h with
  | number h =>
    have hc : token.category = .number := hc
    exact .of_category hc (by decide) ⟨rfl, rfl, rfl⟩
  | literal =>
    exact .of_category (hc.trans (category_insideLiteral ..)) (by decide)
      (context_insideLiteral ..)
  | comment =>
    -- a comment leaves nothing of its line
    exact absurd (List.drop_length ..) hr
  | comma =>
    have hc : token.category = .punctuation := hc
    exact .of_opens (.inl ⟨hc, ht⟩) (by simp [Token.IsReferenceMark, hc]) ⟨rfl, rfl, rfl, rfl⟩
  | openBracket h =>
    have hc : token.category = .bracket := hc
    exact .of_opens (.inr (.inl ⟨hc, _, h, ht⟩)) (by simp [Token.IsReferenceMark, hc])
      ⟨rfl, rfl, rfl, rfl⟩
  | @closeBracket c _ h =>
    have hc : token.category = .bracket := hc
    have ht : token.text? line = some [c] := ht
    refine .of_not_opens ?_ ⟨rfl, rfl, rfl⟩
    simpa [Token.IsDot, Token.Opens, hc, ht] using not_isOpenBracket_of_isCloseBracket h
  | decorator =>
    have hc : token.category = .decorator := hc
    exact .of_category hc (by decide) ⟨rfl, rfl, rfl⟩
  | ellipsis h =>
    have hc : token.category = .operator := hc
    have ht : token.text? line = some Lexeme.ellipsis :=
      ht.trans (congrArg some (List.prefix_iff_eq_take.1 h).symm)
    refine .of_not_opens ?_ ⟨rfl, rfl, rfl⟩
    simp [Token.IsDot, Token.Opens, hc, ht]
  | @pair _ op hmem h =>
    have hpairs : ∀ op ∈ pairs, op.length = 2 ∧ op ≠ Lexeme.ellipsis ∧ op ≠ [referenceMark] := by
      decide
    obtain ⟨hlength, hellipsis, hmark⟩ := hpairs op hmem
    have ht : token.text? line = some op := by
      rw [ht, List.prefix_iff_eq_take.1 h, hlength]
    refine .of_opens (.inr (.inr ⟨hc, ?_⟩)) (fun hm => ?_) ⟨rfl, rfl, rfl, rfl⟩
    · simpa [ht] using hellipsis
    · exact absurd (Option.some.inj (ht.symm.trans hm.2)) hmark
  | reference h =>
    have hc : token.category = .operator := hc
    refine ⟨?_, ?_, fun hne => absurd rfl hne⟩
    · simp [Context.enterReference, Token.IsDot, hc]
    · exact iff_of_true rfl ⟨⟨hc, ht⟩, h⟩
  | dot h =>
    have hc : token.category = .punctuation := hc
    have hdot : token.IsDot line := ⟨hc, ht⟩
    refine ⟨iff_of_true rfl hdot, ?_, fun _ => ?_⟩
    · simp [Context.enterProperty, Context.endExpression, Token.IsReferenceMark, hc]
    · simpa [Context.enterProperty, Context.endExpression] using fun ho => ho.not_isDot hdot
  | @mark c _ h hpairs hword =>
    -- this may be the mark of a reference, too, but then no word follows it directly
    have ht : token.text? line = some [c] := ht
    refine .of_opens (.inr (.inr ⟨hc, ?_⟩)) (fun hm => ?_) ⟨rfl, rfl, rfl, rfl⟩
    · simp [ht, Lexeme.ellipsis]
    · exact hword (by simpa [ht] using hm.2)
  | word h =>
    -- after a keyword an expression may start, but no word is promoted there
    exact .of_category hc (category_word_not_mem ctx _) (context_word ..)
  | other hword hmark =>
    have hc : token.category = .unclassified := hc
    exact .of_category hc (by decide) ⟨rfl, rfl, rfl⟩

end Lexeme

/-! ## Before a word -/

namespace Lexer

variable {lexer after : Lexer} {read following : List Token}

/-- After every token that leaves something of its line, the flags say what it was. -/
theorem follows_next (h : lexer.next = (some token, after)) (hr : after.cursor.rest ≠ []) :
    after.context.Follows lexer.cursor.line token after.cursor.rest := by
  obtain ⟨lexeme, he⟩ := exists_emits_of_next h
  have ht := he.text?
  rw [line_approach] at ht
  obtain ⟨c, rest, hrest, ⟨hl, rfl⟩ | ⟨-, rfl⟩⟩ := exists_of_lexeme? he.lexeme?
  · -- if the literal stayed open, it would have taken the whole line
    rw [he.rest, hrest] at hr
    rw [he.context, Lexeme.context_insideLiteral_of_drop hl hr]
    exact .of_category (he.category.trans (Lexeme.category_insideLiteral ..)) (by decide)
      ⟨rfl, rfl, rfl⟩
  · rw [he.context, he.rest, hrest]
    rw [hrest] at ht
    rw [he.rest, hrest] at hr
    exact (Lexeme.recognized_next ..).follows he.category ht hr

/-- The context where a token begins is the one that the token before left. -/
theorem context_approach_of_next (h : lexer.next = (some token, after)) :
    after.approach.context = after.context := by
  rw [approach]
  split
  · rfl
  · simp [isAtStart_next h]

/-- Where a word comes next, it comes right after the token before if there is no blank
    between them. -/
theorem position_approach_eq_iff (hl : ¬lexer.context.inLiteral)
    (hr : lexer.approach.cursor.rest = c :: rest) (hc : isWordStart c) :
    lexer.approach.cursor.position = lexer.cursor.position ↔
      lexer.cursor.rest.head?.any isWordStart := by
  have hcursor : lexer.approach.cursor = lexer.cursor.skipBlanks := by
    rw [approach_of_not_inLiteral hl]
  rw [hcursor] at hr ⊢
  rcases hrest : lexer.cursor.rest with _ | ⟨d, tail⟩
  · -- nothing follows, not even the word
    rw [Cursor.rest_skipBlanks, hrest] at hr
    cases hr
  rw [Cursor.position_skipBlanks_eq_iff hrest]
  constructor
  · intro hd
    rw [Cursor.skipBlanks_of_not_isBlank hrest hd, hrest] at hr
    cases hr
    exact hc
  · exact not_isBlank_of_isWordStart

/-- The flags in the context of a word say what the token before was. -/
theorem flags_of_reads (hr : Reads (.ofLine line ctx) read lexer) (hl : ¬lexer.context.inLiteral)
    (hrest : lexer.approach.cursor.rest = c :: rest) (hc : isWordStart c)
    (hstart : token.span.start = lexer.approach.cursor.position) :
    let flags := lexer.approach.context
    (flags.afterDot ↔ Token.FollowsDot line read.getLast?) ∧
    (flags.afterReference ↔ token.FollowsReference line read.getLast?) ∧
    (flags.mayPromote ↔ token.MayLead line read.getLast? ∧ flags.locked = false) := by
  intro flags
  rcases hlast : read.getLast? with _ | p
  · -- a statement begins with the line
    obtain rfl : read = [] := List.getLast?_eq_none_iff.1 hlast
    obtain rfl := hr.eq_start
    have hstartLine : flags = ctx.startLine := by
      simp only [flags, approach, if_neg hl]
      rfl
    have hflags : flags = ctx.startStatement := hstartLine.trans (if_neg hl)
    rw [hflags]
    simp [Context.startStatement, Context.openExpression, Context.mayPromote, Token.FollowsDot,
      Token.FollowsReference, Token.MayLead]
  · obtain ⟨before, hbefore, hnext⟩ := hr.exists_of_getLast? hlast
    have hline : before.cursor.line = line := hbefore.line_eq
    have hflags : flags = lexer.context := context_approach_of_next hnext
    have hne : lexer.cursor.rest ≠ [] := rest_ne_nil_of_rest_approach hrest
    have hf : lexer.context.Follows line p lexer.cursor.rest := hline ▸ follows_next hnext hne
    -- the mark of a reference sees whether a word follows it, the tokens whether a blank does
    have hadjacent : p.span.stop = token.span.start ↔ lexer.cursor.rest.head?.any isWordStart := by
      obtain ⟨lexeme, he⟩ := exists_emits_of_next hnext
      rw [← he.position, hstart, eq_comm, position_approach_eq_iff hl hrest hc]
    have hlead : token.MayLead line (some p) ↔
        p.Opens line ∧ ¬lexer.context.afterReference := by
      simp [Token.MayLead, hf.afterReference, hadjacent]
    rw [hflags, hlead]
    refine ⟨?_, ?_, ?_⟩
    · simp [hf.afterDot, Token.FollowsDot]
    · simp [hf.afterReference, Token.FollowsReference, hadjacent]
    · exact hf.mayPromote_iff

/-- A token whose text begins like a word is the lexeme of a word, unless it belongs to a
    literal. -/
theorem exists_word_of_next {t : Text} (h : lexer.next = (some token, after))
    (ht : token.text? lexer.cursor.line = some (c :: t)) (hc : isWordStart c)
    (hs : token.category ≠ .string) :
    ¬lexer.context.inLiteral ∧ ∃ rest, lexer.approach.cursor.rest = c :: rest ∧
      lexer.approach.Emits (Lexeme.word lexer.approach.context (c :: rest)) token after := by
  obtain ⟨lexeme, he⟩ := exists_emits_of_next h
  obtain ⟨d, rest, hrest, ⟨-, rfl⟩ | ⟨hl, rfl⟩⟩ := exists_of_lexeme? he.lexeme?
  · exact absurd (he.category.trans (Lexeme.category_insideLiteral ..)) hs
  · obtain ⟨_, htext⟩ := he.exists_text_cons hrest
    rw [line_approach, ht] at htext
    cases htext
    rw [Lexeme.next_of_isWordStart hc] at he
    refine ⟨?_, rest, hrest, he⟩
    rwa [Context.inLiteral, literal_approach] at hl

/-- How a word is classified follows from the token before it on its line; only whether a
    statement has its keyword already, and what follows the word, is not told by that. -/
theorem category_of_word {t : Text} (h : (tokenizeLine ctx line).1 = read ++ token :: following)
    (ht : token.text? line = some (c :: t)) (hc : isWordStart c) (hs : token.category ≠ .string) :
    ∃ lexer after, Reads (.ofLine line ctx) read lexer ∧ lexer.next = (some token, after) ∧
      Text.dropBytes? token.span.stop line = some after.cursor.rest ∧
      let promoted := token.MayLead line read.getLast? ∧
        lexer.approach.context.locked = false ∧ Lexeme.beginsArgument after.cursor.rest
      (token.category = .property ↔ Token.FollowsDot line read.getLast?) ∧
      (token.category = .reference ↔ token.FollowsReference line read.getLast?) ∧
      (token.category = .keyword ↔ promoted) ∧
      (token.category = .name ↔ ¬Token.FollowsDot line read.getLast? ∧
        ¬token.FollowsReference line read.getLast? ∧ ¬promoted) := by
  obtain ⟨lexer, after, hr, hnext⟩ := exists_reads_of_tokenizeLine h
  have hline : lexer.cursor.line = line := hr.line_eq
  obtain ⟨hl, rest, hrest, he⟩ := exists_word_of_next hnext (hline ▸ ht) hc hs
  obtain ⟨hdot, hreference, hpromote⟩ := flags_of_reads hr hl hrest hc he.start
  obtain ⟨hproperty, href, hkeyword, hname⟩ :=
    Lexeme.category_word lexer.approach.context (c :: rest)
  have hafter : after.cursor.rest = (c :: rest).drop
      (Lexeme.word lexer.approach.context (c :: rest)).width := hrest ▸ he.rest
  refine ⟨lexer, after, hr, hnext, ?_, ?_, ?_, ?_, ?_⟩
  · rw [← he.position, ← hline, ← line_next hnext]
    exact after.cursor.dropBytes?_position
  · rw [he.category, hproperty, hdot]
  · -- the dot goes first, but no token is both
    rw [he.category, href, hdot, hreference]
    exact and_iff_right_of_imp Token.FollowsReference.not_followsDot
  · rw [he.category, hkeyword, hpromote, hafter, and_assoc]
  · rw [he.category, hname, hdot, hreference, hpromote, hafter, and_assoc]

/-- A word after an operator leads a statement of its own. -/
theorem category_of_word_after_operator :
    let line : Text := "a = if b".toList
    let read : List Token := [⟨.name, 0, 1, by decide⟩, ⟨.operator, 2, 3, by decide⟩]
    let token : Token := ⟨.keyword, 4, 6, by decide⟩
    (tokenizeLine {} line).1 = read ++ token :: [⟨.name, 7, 8, by decide⟩] ∧
      token.MayLead line read.getLast? := by
  intro line read token
  have h : (tokenizeLine {} line).1 = read ++ token :: [⟨.name, 7, 8, by decide⟩] := by
    decide +kernel
  obtain ⟨_, _, -, -, -, -, -, hkeyword, -⟩ :=
    category_of_word h (show token.text? line = some ['i', 'f'] by decide) (by decide) (by decide)
  exact ⟨h, (hkeyword.1 rfl).1⟩

end Lexer

end Highlighter
