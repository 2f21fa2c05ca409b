import Highlighter.Proofs.Lexeme.Argument
import Highlighter.Proofs.Lexer.Carried

/-!
# Traces

A *trace* records how a line is read, with a *step* for each of its tokens
(`Lexer.map_token_trace_ofLine`): the context where the token begins, and the one after it. The
traces of lines follow one another (`traceOfLines`), each from the context after the line before.

What a step does to the locks is told by its token alone, with one case for each way in which
they change (`TokenStep.LockEffect`): an opening bracket puts the lock away, a closing one takes
it back, and commas, comments and keywords set it. Between the steps of a trace, the locks that
are put away stay as they are, also from line to line (`LockRun`); only whether the statement has
its keyword is forgotten where a line begins.
-/

namespace Highlighter

/-! ## Steps -/

/-- The reading of a token: the context where it begins, and the one after it. -/
structure TokenStep where
  line : Text
  token : Token
  before : Context
  after : Context
deriving DecidableEq

namespace Lexer

/-- The step of a lexer that reads a token. -/
def stepTo (lexer : Lexer) (token : Token) (after : Lexer) : TokenStep :=
  ⟨lexer.cursor.line, token, lexer.approach.context, after.context⟩

/-- The steps up to the end of the line. -/
def trace (lexer : Lexer) : List TokenStep :=
  match _h : lexer.next with
  | (none, _) => []
  | (some token, after) => lexer.stepTo token after :: after.trace
termination_by lexer.cursor.rest.length
decreasing_by exact length_rest_next_lt ‹_›

end Lexer

/-- The steps of reading lines in order, from a context on. -/
def traceOfLines (ctx : Context) : List Text → List TokenStep
  | [] => []
  | line :: lines => (Lexer.ofLine line ctx).trace ++ traceOfLines (tokenizeLine ctx line).2 lines

namespace Lexer

variable {lexer after : Lexer} {token : Token}

theorem trace_of_next_none (h : lexer.next = (none, after)) : lexer.trace = [] := by
  rw [trace]
  split
  · rfl
  next hn => cases hn.symm.trans h

theorem trace_of_next_some (h : lexer.next = (some token, after)) :
    lexer.trace = lexer.stepTo token after :: after.trace := by
  rw [trace]
  split
  next hn => cases hn.symm.trans h
  next hn =>
    cases hn.symm.trans h
    rfl

/-- The first step of a trace is that of the next token. -/
theorem exists_next_of_trace_eq_cons {step : TokenStep} {following : List TokenStep}
    (h : lexer.trace = step :: following) :
    ∃ token after, lexer.next = (some token, after) ∧ step = lexer.stepTo token after ∧
      following = after.trace := by
  rcases hn : lexer.next with ⟨_ | token, after⟩
  · rw [trace_of_next_none hn] at h
    cases h
  · rw [trace_of_next_some hn] at h
    obtain ⟨rfl, rfl⟩ := List.cons.inj h
    exact ⟨token, after, rfl, rfl, rfl⟩

/-- What follows some steps of a trace is the trace of the lexer that has done them. -/
theorem exists_trace_of_trace_eq_append {earlier later : List TokenStep}
    (h : lexer.trace = earlier ++ later) : ∃ after : Lexer, after.trace = later := by
  induction earlier generalizing lexer with
  | nil => exact ⟨lexer, h⟩
  | cons step earlier ih =>
    obtain ⟨token, after, -, -, hafter⟩ := exists_next_of_trace_eq_cons h
    exact ih hafter.symm

theorem map_token_trace (lexer : Lexer) : lexer.trace.map (·.token) = lexer.rest.1 := by
  induction lexer using steps.induct with
  | case1 lexer after hn => rw [trace_of_next_none hn, rest_of_next_none hn, List.map_nil]
  | case2 lexer token after hn ih =>
    rw [trace_of_next_some hn, rest_of_next_some hn, List.map_cons, ih]
    rfl

/-- Where nothing is left of the line, there are no steps. -/
theorem trace_of_rest_eq_nil (h : lexer.cursor.rest = []) : lexer.trace = [] :=
  trace_of_next_none (next_of_rest_eq_nil h)

theorem map_token_trace_ofLine (ctx : Context) (line : Text) :
    (ofLine line ctx).trace.map (·.token) = (tokenizeLine ctx line).1 := by
  rcases eq_or_ne line [] with rfl | hne
  · rw [trace_of_rest_eq_nil rfl]
    rfl
  · rw [map_token_trace, tokenizeLine_of_ne_nil hne]

/-- The steps of a trace are all in its line. -/
theorem line_of_mem_trace {step : TokenStep} (h : step ∈ lexer.trace) :
    step.line = lexer.cursor.line := by
  induction lexer using steps.induct with
  | case1 lexer after hn =>
    rw [trace_of_next_none hn] at h
    cases h
  | case2 lexer token after hn ih =>
    rw [trace_of_next_some hn] at h
    rcases List.mem_cons.1 h with rfl | h
    · rfl
    · exact (ih h).trans (line_next hn)

end Lexer

/-! ## Locks -/

namespace Token

variable (line : Text) (token : Token)

/-- An opening bracket. -/
def IsOpenBracket : Prop :=
  token.category = .bracket ∧ ∃ c, isOpenBracket c ∧ token.text? line = some [c]

/-- A closing bracket. -/
def IsCloseBracket : Prop :=
  token.category = .bracket ∧ ∃ c, isCloseBracket c ∧ token.text? line = some [c]

/-- The comma between statements. -/
def IsComma : Prop :=
  token.category = .punctuation ∧ token.text? line = some [',']

variable {line token}

theorem IsOpenBracket.not_isCloseBracket (h : token.IsOpenBracket line) :
    ¬token.IsCloseBracket line := by
  obtain ⟨-, c, hc, ht⟩ := h
  rintro ⟨-, d, hd, ht'⟩
  obtain rfl : c = d := (List.cons.inj (Option.some.inj (ht.symm.trans ht'))).1
  exact not_isOpenBracket_of_isCloseBracket hd hc

end Token

/-- What is left of an open literal does nothing to the locks. -/
theorem Lexeme.locks_insideLiteral (ctx : Context) (text : Text) :
    (insideLiteral ctx text).context.locked = ctx.locked ∧
      (insideLiteral ctx text).context.locks = ctx.locks := by
  rw [insideLiteral]
  split
  · exact ⟨rfl, rfl⟩
  split <;> exact ⟨rfl, rfl⟩

namespace TokenStep

/-- What a token does to the locks. -/
inductive LockEffect (step : TokenStep) : Prop
  | opens : step.token.IsOpenBracket step.line → step.after.locked = false →
      step.after.locks = step.before.locked :: step.before.locks → LockEffect step
  | closes : step.token.IsCloseBracket step.line →
      step.after.locked = (Locks.pop step.before.locks).1 →
      step.after.locks = (Locks.pop step.before.locks).2 → LockEffect step
  | comma : step.token.IsComma step.line → step.after.locked = false →
      step.after.locks = step.before.locks → LockEffect step
  | comment : step.token.category = .comment → step.after.locked = false →
      step.after.locks = step.before.locks → LockEffect step
  | keyword : step.token.category = .keyword → step.before.locked = false →
      step.after.locked = true → step.after.locks = step.before.locks → LockEffect step
  | other : step.token.category ∉ [.bracket, .comment, .keyword] → ¬step.token.IsComma step.line →
      step.after.locked = step.before.locked → step.after.locks = step.before.locks →
      LockEffect step

variable {step : TokenStep} {lexeme : Lexeme} {text : Text}

/-- Most tokens do nothing to the locks. -/
theorem LockEffect.of_category {category : Category} (hc : step.token.category = category)
    (h : category ∉ [.bracket, .comment, .keyword, .punctuation])
    (hlocked : step.after.locked = step.before.locked)
    (hlocks : step.after.locks = step.before.locks) : step.LockEffect := by
  subst hc
  simp only [List.mem_cons, List.not_mem_nil, or_false, not_or] at h
  obtain ⟨hbracket, hcomment, hkeyword, hpunctuation⟩ := h
  exact .other (by simp [hbracket, hcomment, hkeyword]) (fun hcomma => hpunctuation hcomma.1)
    hlocked hlocks

/-- A keyword locks its statement, which was not locked; other words do nothing to the locks. -/
theorem lockEffect_word (hc : step.token.category = (Lexeme.word step.before text).category)
    (ha : step.after = (Lexeme.word step.before text).context) : step.LockEffect := by
  obtain ⟨hopen, hend⟩ := @Lexeme.context_of_category_word step.before text
  obtain ⟨-, -, hkeyword, -⟩ := Lexeme.category_word step.before text
  have hmem := Lexeme.category_word_mem step.before text
  rw [← hc] at hopen hend hkeyword hmem
  by_cases hk : step.token.category = .keyword
  · have hpromote := (hkeyword.1 hk).1
    simp only [Context.mayPromote, Bool.and_eq_true, Bool.not_eq_true'] at hpromote
    rw [hopen hk] at ha
    exact .keyword hk hpromote.2 (by rw [ha]; rfl) (by rw [ha]; rfl)
  · rw [hend hk] at ha
    refine .of_category rfl ?_ (by rw [ha]; rfl) (by rw [ha]; rfl)
    simp only [List.mem_cons, List.not_mem_nil, or_false] at hmem
    rcases hmem with h | h | h | h
    · exact absurd h hk
    all_goals simp [h]

/-- What a lexeme does to the locks is told by its category and its text. -/
theorem lockEffect_of_recognized (h : Lexeme.Recognized step.before text lexeme)
    (hc : step.token.category = lexeme.category)
    (ht : step.token.text? step.line = some (text.take lexeme.width))
    (ha : step.after = lexeme.context) : step.LockEffect := by
  cases h with
  | number =>
    exact .of_category hc (by simp) (by rw [ha]; rfl) (by rw [ha]; rfl)
  | @literal l body =>
    obtain ⟨hlocked, hlocks⟩ := Lexeme.locks_insideLiteral (step.before.enterLiteral l) body
    exact .of_category (hc.trans (Lexeme.category_insideLiteral ..)) (by simp)
      (by rw [ha]; exact hlocked) (by rw [ha]; exact hlocks)
  | comment => exact .comment hc (by rw [ha]; rfl) (by rw [ha]; rfl)
  | comma => exact .comma ⟨hc, ht⟩ (by rw [ha]; rfl) (by rw [ha]; rfl)
  | openBracket h => exact .opens ⟨hc, _, h, ht⟩ (by rw [ha]; rfl) (by rw [ha]; rfl)
  | closeBracket h => exact .closes ⟨hc, _, h, ht⟩ (by rw [ha]; rfl) (by rw [ha]; rfl)
  | dot =>
    -- punctuation like the comma, but with another text
    have hcategory : step.token.category = .punctuation := hc
    have htext : step.token.text? step.line = some ['.'] := ht
    exact .other (by simp [hcategory]) (by simp [Token.IsComma, htext]) (by rw [ha]; rfl)
      (by rw [ha]; rfl)
  | word => exact lockEffect_word hc ha
  | decorator | ellipsis | pair | reference | mark | other =>
    exact .of_category hc (by simp [Lexeme.decorator]) (by rw [ha]; rfl) (by rw [ha]; rfl)

/-- Only an opening bracket puts a lock away. -/
theorem LockEffect.of_isOpenBracket (h : step.LockEffect)
    (ho : step.token.IsOpenBracket step.line) :
    step.after.locks = step.before.locked :: step.before.locks := by
  cases h with
  | opens _ _ hlocks => exact hlocks
  | closes hclose => exact absurd hclose ho.not_isCloseBracket
  | comma hcomma => exact absurd (ho.1.symm.trans hcomma.1) (by decide)
  | comment hc => exact absurd (ho.1.symm.trans hc) (by decide)
  | keyword hc => exact absurd (ho.1.symm.trans hc) (by decide)
  | other hc => exact absurd ho.1 (by simp_all)

/-- Only a closing bracket takes a lock back. -/
theorem LockEffect.of_isCloseBracket (h : step.LockEffect)
    (hc : step.token.IsCloseBracket step.line) :
    step.after.locked = (Locks.pop step.before.locks).1 ∧
      step.after.locks = (Locks.pop step.before.locks).2 := by
  cases h with
  | closes _ hlocked hlocks => exact ⟨hlocked, hlocks⟩
  | opens ho => exact absurd hc ho.not_isCloseBracket
  | comma hcomma => exact absurd (hc.1.symm.trans hcomma.1) (by decide)
  | comment h => exact absurd (hc.1.symm.trans h) (by decide)
  | keyword h => exact absurd (hc.1.symm.trans h) (by decide)
  | other h => exact absurd hc.1 (by simp_all)

/-- A bracket opens or closes. -/
theorem LockEffect.of_bracket (h : step.LockEffect) (hc : step.token.category = .bracket) :
    step.token.IsOpenBracket step.line ∨ step.token.IsCloseBracket step.line := by
  cases h with
  | opens h => exact .inl h
  | closes h => exact .inr h
  | comma h => exact absurd (hc.symm.trans h.1) (by decide)
  | comment h => exact absurd (hc.symm.trans h) (by decide)
  | keyword h => exact absurd (hc.symm.trans h) (by decide)
  | other h => exact absurd hc (by simp_all)

/-- A keyword leads a statement that has none yet. -/
theorem LockEffect.of_keyword (h : step.LockEffect) (hc : step.token.category = .keyword) :
    step.before.locked = false ∧ step.after.locked = true ∧
      step.after.locks = step.before.locks := by
  cases h with
  | keyword _ hbefore hafter hlocks => exact ⟨hbefore, hafter, hlocks⟩
  | opens h => exact absurd (hc.symm.trans h.1) (by decide)
  | closes h => exact absurd (hc.symm.trans h.1) (by decide)
  | comma h => exact absurd (hc.symm.trans h.1) (by decide)
  | comment h => exact absurd (hc.symm.trans h) (by decide)
  | other h => exact absurd hc (by simp_all)

end TokenStep

/-! ## Locks along a trace -/

/-- Steps that follow each other: each finds the locks as the one before it left them, and does
    to them what its token does. -/
inductive LockRun : Locks → List TokenStep → Locks → Prop
  | nil {locks : Locks} : LockRun locks [] locks
  | cons {step : TokenStep} {steps : List TokenStep} {final : Locks} :
    step.LockEffect → LockRun step.after.locks steps final →
      LockRun step.before.locks (step :: steps) final

/-- Every step of a run does to the locks what its token does. -/
theorem LockRun.lockEffect {locks final : Locks} {steps : List TokenStep} {step : TokenStep}
    (h : LockRun locks steps final) (hmem : step ∈ steps) : step.LockEffect := by
  induction h with
  | nil => cases hmem
  | cons he _ ih =>
    rcases List.mem_cons.1 hmem with rfl | hmem
    · exact he
    · exact ih hmem

theorem lockRun_append {locks final : Locks} {steps steps' : List TokenStep} :
    LockRun locks (steps ++ steps') final ↔
      ∃ between, LockRun locks steps between ∧ LockRun between steps' final := by
  constructor
  · intro h
    induction steps generalizing locks with
    | nil => exact ⟨locks, .nil, h⟩
    | cons step steps ih =>
      cases h with
      | cons he h =>
        obtain ⟨between, h₁, h₂⟩ := ih h
        exact ⟨between, .cons he h₁, h₂⟩
  · rintro ⟨between, h₁, h₂⟩
    induction h₁ with
    | nil => exact h₂
    | cons he _ ih => exact .cons he (ih h₂)

namespace Lexer

variable {lexer after : Lexer} {token : Token}

/-- What reading a token does to the locks. -/
theorem lockEffect_stepTo (h : lexer.next = (some token, after)) :
    (lexer.stepTo token after).LockEffect := by
  obtain ⟨lexeme, he⟩ := exists_emits_of_next h
  obtain ⟨c, rest, hrest, ⟨-, rfl⟩ | ⟨-, rfl⟩⟩ := exists_of_lexeme? he.lexeme?
  · obtain ⟨hlocked, hlocks⟩ := Lexeme.locks_insideLiteral lexer.approach.context (c :: rest)
    exact .of_category (he.category.trans (Lexeme.category_insideLiteral ..)) (by simp)
      (by rw [stepTo, he.context]; exact hlocked) (by rw [stepTo, he.context]; exact hlocks)
  · have ht := he.text?
    rw [line_approach, hrest] at ht
    exact TokenStep.lockEffect_of_recognized (Lexeme.recognized_next ..) he.category ht he.context

/-- Where a line or a token begins, the locks are those put away before. -/
theorem locks_approach (lexer : Lexer) : lexer.approach.context.locks = lexer.context.locks := by
  rw [approach]
  split
  · rfl
  · dsimp only
    split
    · rw [Context.startLine]
      split <;> rfl
    · rfl

theorem lockRun_trace (lexer : Lexer) :
    LockRun lexer.context.locks lexer.trace lexer.rest.2.context.locks := by
  induction lexer using steps.induct with
  | case1 lexer after hn =>
    obtain ⟨rfl, -⟩ := eq_approach_of_next hn
    rw [trace_of_next_none hn, rest_of_next_none hn, locks_approach]
    exact .nil
  | case2 lexer token after hn ih =>
    rw [trace_of_next_some hn, rest_of_next_some hn, ← locks_approach]
    exact .cons (lockEffect_stepTo hn) ih

theorem lockRun_trace_ofLine (ctx : Context) (line : Text) :
    LockRun ctx.locks (ofLine line ctx).trace (tokenizeLine ctx line).2.locks := by
  rcases eq_or_ne line [] with rfl | hne
  · rw [trace_of_rest_eq_nil rfl]
    exact .nil
  · rw [tokenizeLine_of_ne_nil hne]
    exact lockRun_trace (ofLine line ctx)

end Lexer

/-- From line to line, the locks put away stay as they are. -/
theorem lockRun_traceOfLines (ctx : Context) (lines : List Text) :
    LockRun ctx.locks (traceOfLines ctx lines) (contextAfter ctx lines).locks := by
  induction lines generalizing ctx with
  | nil => exact .nil
  | cons line lines ih =>
    exact lockRun_append.2 ⟨_, Lexer.lockRun_trace_ofLine ctx line, ih (tokenizeLine ctx line).2⟩

end Highlighter
