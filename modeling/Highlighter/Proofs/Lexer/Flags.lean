import Highlighter.Lexer.Call
import Highlighter.Proofs.Lexer.Cover
import Highlighter.Proofs.Lexer.Word

/-!
# What the flags say together

The flags of a context are set by a dozen operations, some of which leave a few of them as they
were. Still, they never contradict each other (`Context.Consistent`): a word that may lead a
statement stands where an expression may start, no expression starts after a dot, and what comes
before is not both a dot and the mark of a reference. After most lexemes, nothing is awaited at all
(`Lexeme.Recognized.context_cases`), and so it is consistent whatever a host calls, in any order
(`Lexer.consistent_call`).

Where lines are read token by token, or at once, more is known (`Lexer.Steady`): nothing is awaited
within a literal, and the mark of a reference is followed by its word right where the lexer stands.
A call for the next token keeps it so (`Lexer.steady_next`), and as no word stands at the end of a
line, no line leaves a reference to the next one (`Reading.Flags`).
-/

namespace Highlighter

/-! ## Contexts -/

namespace Context

variable {ctx : Context}

/-- No flag contradicts another. -/
structure Consistent (ctx : Context) : Prop where
  expressionStart_of_promotable : ctx.promotable → ctx.expressionStart
  not_expressionStart_of_afterDot : ctx.afterDot → ¬ctx.expressionStart
  not_afterReference_of_afterDot : ctx.afterDot → ¬ctx.afterReference

/-- Neither a property nor a reference is awaited. -/
structure Idle (ctx : Context) : Prop where
  expressionStart_of_promotable : ctx.promotable → ctx.expressionStart
  afterDot_eq : ctx.afterDot = false
  afterReference_eq : ctx.afterReference = false

/-- No flag contradicts another, and within a literal nothing is awaited. -/
structure Settled (ctx : Context) : Prop where
  consistent : ctx.Consistent
  of_inLiteral : ctx.inLiteral → ctx.afterDot = false ∧ ctx.afterReference = false

theorem Idle.of_not_promotable (h : ctx.afterDot = false ∧ ctx.afterReference = false ∧
    ctx.promotable = false) : ctx.Idle :=
  ⟨fun hp => absurd (h.2.2.symm.trans hp) Bool.false_ne_true, h.1, h.2.1⟩

theorem Idle.of_expressionStart (h : ctx.afterDot = false ∧ ctx.afterReference = false ∧
    ctx.expressionStart = true) : ctx.Idle :=
  ⟨fun _ => h.2.2, h.1, h.2.1⟩

theorem Idle.settled (h : ctx.Idle) : ctx.Settled where
  consistent.expressionStart_of_promotable := h.expressionStart_of_promotable
  consistent.not_expressionStart_of_afterDot hd :=
    absurd (h.afterDot_eq.symm.trans hd) Bool.false_ne_true
  consistent.not_afterReference_of_afterDot hd :=
    absurd (h.afterDot_eq.symm.trans hd) Bool.false_ne_true
  of_inLiteral _ := ⟨h.afterDot_eq, h.afterReference_eq⟩

theorem idle_startStatement (ctx : Context) : ctx.startStatement.Idle :=
  .of_expressionStart ⟨rfl, rfl, rfl⟩

theorem consistent_enterProperty (ctx : Context) : ctx.enterProperty.Consistent where
  expressionStart_of_promotable := by rintro ⟨⟩
  not_expressionStart_of_afterDot _ := Bool.false_ne_true
  not_afterReference_of_afterDot _ := Bool.false_ne_true

/-- The mark of a reference takes the dot away, and leaves the rest. -/
theorem Consistent.enterReference (h : ctx.Consistent) : ctx.enterReference.Consistent where
  expressionStart_of_promotable := h.expressionStart_of_promotable
  not_expressionStart_of_afterDot := by rintro ⟨⟩
  not_afterReference_of_afterDot := by rintro ⟨⟩

theorem Consistent.startLine (h : ctx.Consistent) : ctx.startLine.Consistent := by
  rw [Context.startLine]
  split
  · exact h
  · exact ctx.idle_startStatement.settled.consistent

end Context

/-! ## Lexemes -/

namespace Lexeme

variable {ctx : Context} {text : Text} {lexeme : Lexeme}

/-- A literal is left, or it goes on as it was. -/
theorem context_insideLiteral_cases (ctx : Context) (text : Text) :
    (insideLiteral ctx text).context = ctx ∨
      (insideLiteral ctx text).context = ctx.leaveLiteral := by
  rw [insideLiteral]
  split
  · exact .inl rfl
  split
  · exact .inr rfl
  · exact .inl rfl

/-- Only a dot and the mark of a reference await something, and the latter has its word right
    after it. -/
theorem Recognized.context_cases (h : Recognized ctx text lexeme) :
    lexeme.context.Idle ∨ lexeme.context = ctx.enterProperty ∨
      lexeme.context = ctx.enterReference ∧ (text.drop lexeme.width).head?.any isWordStart := by
  cases h with
  | dot => exact .inr (.inl rfl)
  | reference hword => exact .inr (.inr ⟨rfl, hword⟩)
  | literal => exact .inl (.of_not_promotable (context_insideLiteral ..))
  | word => exact .inl (.of_not_promotable (context_word ..))
  | number | closeBracket | decorator | ellipsis | other =>
    exact .inl (.of_not_promotable ⟨rfl, rfl, rfl⟩)
  | comment | comma | openBracket | pair | mark =>
    exact .inl (.of_expressionStart ⟨rfl, rfl, rfl⟩)

theorem Recognized.consistent (h : Recognized ctx text lexeme) (hctx : ctx.Consistent) :
    lexeme.context.Consistent := by
  rcases h.context_cases with hidle | hdot | ⟨href, -⟩
  · exact hidle.settled.consistent
  · exact hdot ▸ ctx.consistent_enterProperty
  · exact href ▸ hctx.enterReference

theorem Recognized.settled (h : Recognized ctx text lexeme) (hctx : ctx.Consistent)
    (hl : ¬ctx.inLiteral) : lexeme.context.Settled := by
  refine ⟨h.consistent hctx, fun hl' => ?_⟩
  rcases h.context_cases with hidle | hdot | ⟨href, -⟩
  · exact hidle.settled.of_inLiteral hl'
  · rw [hdot] at hl'
    exact absurd hl' hl
  · rw [href] at hl'
    exact absurd hl' hl

/-- A reference is awaited only where its word comes next. -/
theorem Recognized.head_of_afterReference (h : Recognized ctx text lexeme)
    (href : lexeme.context.afterReference) : (text.drop lexeme.width).head?.any isWordStart := by
  rcases h.context_cases with hidle | hdot | ⟨-, hword⟩
  · exact absurd (hidle.afterReference_eq.symm.trans href) Bool.false_ne_true
  · rw [hdot] at href
    cases href
  · exact hword

theorem consistent_insideLiteral (h : ctx.Consistent) (text : Text) :
    (insideLiteral ctx text).context.Consistent := by
  rcases context_insideLiteral_cases ctx text with hctx | hctx
  · rwa [hctx]
  · rw [hctx]
    exact (Context.Idle.of_not_promotable ⟨rfl, rfl, rfl⟩).settled.consistent

/-- What a line holds of a literal leaves nothing to await. -/
theorem idle_insideLiteral (h : ctx.Settled) (hl : ctx.inLiteral) (text : Text) :
    (insideLiteral ctx text).context.Idle := by
  rcases context_insideLiteral_cases ctx text with hctx | hctx
  · obtain ⟨hdot, href⟩ := h.of_inLiteral hl
    rw [hctx]
    exact ⟨h.consistent.expressionStart_of_promotable, hdot, href⟩
  · rw [hctx]
    exact .of_not_promotable ⟨rfl, rfl, rfl⟩

end Lexeme

/-! ## Calls by hand -/

namespace Lexer

variable {lexer after : Lexer}

/-- Before a token, a statement begins, or the context is as it was. -/
theorem context_approach_cases (lexer : Lexer) :
    lexer.approach.context = lexer.context.startStatement ∨
      lexer.approach.context = lexer.context ∧
        (lexer.context.inLiteral ∨ ¬lexer.cursor.isAtStart) := by
  by_cases hl : lexer.context.inLiteral
  · rw [approach, if_pos hl]
    exact .inr ⟨rfl, .inl hl⟩
  rw [approach_of_not_inLiteral hl]
  by_cases hs : lexer.cursor.isAtStart
  · rw [if_pos hs, Context.startLine, if_neg hl]
    exact .inl rfl
  · rw [if_neg hs]
    exact .inr ⟨rfl, .inr hs⟩

theorem consistent_approach (h : lexer.context.Consistent) :
    lexer.approach.context.Consistent := by
  rcases lexer.context_approach_cases with hctx | ⟨hctx, -⟩
  · rw [hctx]
    exact lexer.context.idle_startStatement.settled.consistent
  · rwa [hctx]

theorem consistent_next (h : lexer.context.Consistent) : lexer.next.2.context.Consistent := by
  have happroach := consistent_approach h
  rcases hnext : lexer.next with ⟨_ | token, after⟩
  · rwa [(eq_approach_of_next hnext).1]
  obtain ⟨lexeme, he⟩ := exists_emits_of_next hnext
  rw [he.context]
  obtain ⟨c, rest, -, ⟨-, rfl⟩ | ⟨-, rfl⟩⟩ := exists_of_lexeme? he.lexeme?
  · exact Lexeme.consistent_insideLiteral happroach _
  · exact (Lexeme.recognized_next ..).consistent happroach

theorem consistent_steps (lexer : Lexer) (h : lexer.context.Consistent) :
    lexer.steps.2.context.Consistent := by
  induction lexer using steps.induct with
  | case1 lexer after hnext =>
    have hafter := consistent_next h
    rw [hnext] at hafter
    rw [steps_of_next_none hnext]
    exact hafter
  | case2 lexer token after hnext ih =>
    have hafter := consistent_next h
    rw [hnext] at hafter
    rw [steps_of_next_some hnext]
    exact ih hafter

/-- Whatever is called, and wherever, the flags do not come to contradict each other. -/
theorem consistent_call (h : lexer.context.Consistent) (c : Call) :
    (lexer.call c).2.context.Consistent := by
  have idle {ctx : Context} (hctx : ctx.Idle) : ctx.Consistent := hctx.settled.consistent
  have accept? {lexeme? : Option Lexeme} (hlexeme : ∀ lexeme ∈ lexeme?, lexeme.context.Consistent) :
      (lexer.acceptCategory? lexeme?).2.context.Consistent := by
    cases lexeme? with
    | none => exact h
    | some lexeme => exact hlexeme lexeme rfl
  cases c with
  | next => exact consistent_next h
  | rest => exact consistent_steps lexer h
  | number =>
    exact accept? fun lexeme hlexeme => (Lexeme.recognized_number? hlexeme).consistent h
  | operator =>
    rw [call]
    cases hr : lexer.cursor.rest with
    | nil => exact h
    | cons c rest =>
      exact accept? fun lexeme hlexeme => (Lexeme.recognized_operator? hlexeme).consistent h
  | openLiteral =>
    rw [call, openLiteral]
    split
    · exact h
    · exact idle (.of_not_promotable ⟨rfl, rfl, rfl⟩)
  | insideLiteral => exact Lexeme.consistent_insideLiteral h _
  | word => exact idle (.of_not_promotable (Lexeme.context_word ..))
  | closeBracket | decorator => exact idle (.of_not_promotable ⟨rfl, rfl, rfl⟩)
  | comma | openBracket | comment | startStatement | reset =>
    exact idle (.of_expressionStart ⟨rfl, rfl, rfl⟩)
  | startLine => exact h.startLine
  | line | advanceBy | skipBlanks => exact h

theorem consistent_callAll (h : lexer.context.Consistent) (calls : List Call) :
    ∀ answer ∈ lexer.callAll calls, answer.2.context.Consistent := by
  induction calls generalizing lexer with
  | nil => rintro answer ⟨⟩
  | cons c calls ih =>
    exact List.forall_mem_cons.2 ⟨consistent_call h c, ih (consistent_call h c)⟩

/-! ## Reading -/

/-- The flags where a lexer has read a token: none contradicts another, nothing is awaited within a
    literal, and a reference is awaited only where its word comes next. -/
structure Steady (lexer : Lexer) : Prop where
  settled : lexer.context.Settled
  of_afterReference : lexer.context.afterReference → lexer.cursor.rest.head?.any isWordStart

/-- Where nothing is left of a line but blanks, no reference is awaited. -/
theorem afterReference_eq_false (h : lexer.Steady) (hr : lexer.approach.cursor.rest = []) :
    lexer.context.afterReference = false := by
  rw [Bool.eq_false_iff]
  intro href
  have hword := h.of_afterReference href
  obtain ⟨c, rest, hrest⟩ : ∃ c rest, lexer.cursor.rest = c :: rest :=
    List.exists_cons_of_ne_nil (by rintro hnil; rw [hnil] at hword; cases hword)
  rw [hrest] at hword
  rw [rest_approach_eq_nil_iff] at hr
  split at hr
  · rw [hrest] at hr
    cases hr
  · exact not_isBlank_of_isWordStart hword (hr c (by rw [hrest]; exact List.mem_cons_self))

theorem Steady.of_idle (h : lexer.context.Idle) : lexer.Steady :=
  ⟨h.settled, fun href => absurd (h.afterReference_eq.symm.trans href) Bool.false_ne_true⟩

theorem settled_approach (h : lexer.context.Settled) : lexer.approach.context.Settled := by
  rcases lexer.context_approach_cases with hctx | ⟨hctx, -⟩
  · rw [hctx]
    exact lexer.context.idle_startStatement.settled
  · rwa [hctx]

/-- Asked for a token at the beginning of a line, or after another token, a lexer comes to stand
    after the token, or at the end of the line with nothing awaited. -/
theorem steady_next (hctx : lexer.context.Settled) (h : lexer.cursor.isAtStart ∨ lexer.Steady) :
    lexer.next.2.Steady := by
  rcases hnext : lexer.next with ⟨_ | token, after⟩
  · obtain ⟨rfl, hrest⟩ := eq_approach_of_next hnext
    rcases lexer.context_approach_cases with happroach | ⟨happroach, hplace⟩
    · refine .of_idle ?_
      rw [happroach]
      exact lexer.context.idle_startStatement
    · -- as before, and so with no reference awaited
      have href : lexer.context.afterReference = false := by
        rcases hplace with hl | hs
        · exact (hctx.of_inLiteral hl).2
        · exact afterReference_eq_false (h.resolve_left hs) hrest
      refine ⟨settled_approach hctx, fun href' => ?_⟩
      rw [happroach] at href'
      exact absurd (href.symm.trans href') Bool.false_ne_true
  · obtain ⟨lexeme, he⟩ := exists_emits_of_next hnext
    obtain ⟨c, rest, hrest, ⟨hl, rfl⟩ | ⟨hl, rfl⟩⟩ := exists_of_lexeme? he.lexeme?
    · refine .of_idle ?_
      rw [he.context]
      exact Lexeme.idle_insideLiteral (settled_approach hctx) hl _
    · have hrecognized := Lexeme.recognized_next lexer.approach.context c rest
      refine ⟨?_, fun href => ?_⟩
      · rw [he.context]
        exact hrecognized.settled (settled_approach hctx).consistent hl
      · rw [he.rest, hrest]
        exact hrecognized.head_of_afterReference (he.context ▸ href)

/-- The lexer after a number of calls for the next token. -/
def ask (lexer : Lexer) : Nat → Lexer
  | 0 => lexer
  | n + 1 => lexer.next.2.ask n

theorem Steady.ask (h : lexer.Steady) (n : Nat) : (lexer.ask n).Steady := by
  induction n generalizing lexer with
  | zero => exact h
  | succ n ih => exact ih (steady_next h.settled (.inr h))

/-- Whatever a line is asked for, the flags stay steady. -/
theorem steady_ask_ofLine {ctx : Context} (h : ctx.Settled) (line : Text) (n : Nat) :
    ((ofLine line ctx).ask (n + 1)).Steady :=
  (steady_next h (.inl rfl)).ask n

/-- All tokens are read by some calls for the next token, which come to the end of the line. -/
theorem exists_ask_eq_steps (lexer : Lexer) :
    ∃ n, lexer.steps.2 = lexer.ask (n + 1) ∧ lexer.steps.2.cursor.rest = [] := by
  induction lexer using steps.induct with
  | case1 lexer after hnext =>
    rw [steps_of_next_none hnext]
    exact ⟨0, (congrArg Prod.snd hnext).symm, (rest_eq_nil_of_next hnext).1⟩
  | case2 lexer token after hnext ih =>
    obtain ⟨n, hn, hrest⟩ := ih
    rw [steps_of_next_some hnext]
    refine ⟨n + 1, ?_, hrest⟩
    rw [ask, hnext]
    exact hn

end Lexer

/-! ## Runs -/

/-- What is done with a line: all of it is read at once, or some of its tokens are asked for. -/
inductive Reading where
  | whole (line : Text)
  /-- Asks for a token, and `more` times again. -/
  | byToken (line : Text) (more : Nat)

namespace Reading

variable {ctx : Context}

/-- The lexer that stands in the line where tokens were asked for. -/
def lexer? (ctx : Context) : Reading → Option Lexer
  | whole _ => none
  | byToken line more => some ((Lexer.ofLine line ctx).ask (more + 1))

/-- The context after a reading. -/
def after (ctx : Context) : Reading → Context
  | whole line => (tokenizeLine ctx line).2
  | byToken line more => ((Lexer.ofLine line ctx).ask (more + 1)).context

/-- The line is read up to its end. -/
def IsComplete (ctx : Context) (reading : Reading) : Prop :=
  ∀ lexer ∈ reading.lexer? ctx, lexer.cursor.rest = []

/-- What the flags say after a reading: none contradicts another, nothing is awaited within a
    literal, and a reference only where its word comes next, which a line that is read up to its end
    does not leave to the next one. -/
structure Flags (ctx : Context) (reading : Reading) : Prop where
  consistent : (reading.after ctx).Consistent
  of_inLiteral : (reading.after ctx).inLiteral →
    (reading.after ctx).afterDot = false ∧ (reading.after ctx).afterReference = false
  of_afterReference : (reading.after ctx).afterReference →
    ∃ lexer ∈ reading.lexer? ctx, ∃ c rest, lexer.cursor.rest = c :: rest ∧ isWordStart c
  of_isComplete : reading.IsComplete ctx → (reading.after ctx).afterReference = false

/-- A line that is read at once leaves no reference to the next one. -/
theorem settled_tokenizeLine (h : ctx.Settled) (line : Text) :
    (tokenizeLine ctx line).2.Settled ∧ (tokenizeLine ctx line).2.afterReference = false := by
  cases line with
  | nil => exact ⟨ctx.idle_startStatement.settled, rfl⟩
  | cons c rest =>
    obtain ⟨n, hn, hrest⟩ := (Lexer.ofLine (c :: rest) ctx).exists_ask_eq_steps
    have hsteady := Lexer.steady_ask_ofLine h (c :: rest) n
    rw [← hn] at hsteady
    refine ⟨hsteady.settled, Bool.eq_false_iff.2 fun href => ?_⟩
    have hword := hsteady.of_afterReference href
    rw [hrest] at hword
    cases hword

theorem flags (h : ctx.Settled) (reading : Reading) : reading.Flags ctx := by
  cases reading with
  | whole line =>
    obtain ⟨hsettled, href⟩ := settled_tokenizeLine h line
    exact ⟨hsettled.consistent, hsettled.of_inLiteral,
      fun href' => absurd (href.symm.trans href') Bool.false_ne_true, fun _ => href⟩
  | byToken line more =>
    have hsteady := Lexer.steady_ask_ofLine h line more
    refine ⟨hsteady.settled.consistent, hsteady.settled.of_inLiteral, fun href => ?_,
      fun hcomplete => Bool.eq_false_iff.2 fun href => ?_⟩
    · have hword := hsteady.of_afterReference href
      refine ⟨_, rfl, ?_⟩
      cases hrest : ((Lexer.ofLine line ctx).ask (more + 1)).cursor.rest with
      | nil =>
        rw [hrest] at hword
        cases hword
      | cons c rest =>
        rw [hrest] at hword
        exact ⟨c, rest, rfl, hword⟩
    · have hword := hsteady.of_afterReference href
      rw [hcomplete _ rfl] at hword
      cases hword

end Reading

/-- The context after some readings. -/
def afterReadings (ctx : Context) (readings : List Reading) : Context :=
  readings.foldl Reading.after ctx

/-- The context after calls by hand on some lines, of which each begins in the context that the one
    before left. -/
def afterCalls (ctx : Context) (lines : List (Text × List Lexer.Call)) : Context :=
  lines.foldl (fun ctx (line, calls) =>
    (((Lexer.ofLine line ctx).callAll calls).getLast?.map (·.2.context)).getD ctx) ctx

theorem settled_afterReadings {ctx : Context} (h : ctx.Settled) (readings : List Reading) :
    (afterReadings ctx readings).Settled := by
  induction readings generalizing ctx with
  | nil => exact h
  | cons reading readings ih =>
    have hflags := reading.flags h
    exact ih ⟨hflags.consistent, hflags.of_inLiteral⟩

theorem consistent_afterCalls {ctx : Context} (h : ctx.Consistent)
    (lines : List (Text × List Lexer.Call)) : (afterCalls ctx lines).Consistent := by
  induction lines generalizing ctx with
  | nil => exact h
  | cons first lines ih =>
    obtain ⟨line, calls⟩ := first
    refine ih ?_
    dsimp only
    cases hlast : ((Lexer.ofLine line ctx).callAll calls).getLast? with
    | none => exact h
    | some answer =>
      exact Lexer.consistent_callAll h calls answer (List.mem_of_getLast? hlast)

/-- **The flags never contradict each other.** From a new context on, however lines are read, the
    flags after each token and each line are as they should be (`Reading.Flags`); and whatever
    calls are made by hand, on whatever lines, no flag contradicts another. -/
theorem flags_never_contradict :
    (∀ (readings : List Reading) (reading : Reading),
      reading.Flags (afterReadings {} readings)) ∧
    ∀ (lines : List (Text × List Lexer.Call)) (line : Text) (calls : List Lexer.Call),
      ∀ answer ∈ (Lexer.ofLine line (afterCalls {} lines)).callAll calls,
        answer.2.context.Consistent := by
  have hidle : ({} : Context).Idle := .of_expressionStart ⟨rfl, rfl, rfl⟩
  constructor
  · intro readings reading
    exact reading.flags (settled_afterReadings hidle.settled readings)
  · intro lines line calls
    exact Lexer.consistent_callAll (consistent_afterCalls hidle.settled.consistent lines) calls

/-- A reference is awaited between its mark and its word. -/
example : (Reading.after {} (.byToken "&x".toList 0)).afterReference = true ∧
    (Reading.after {} (.byToken "&x".toList 1)).afterReference = false := by decide

end Highlighter
