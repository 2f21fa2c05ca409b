import Highlighter.Proofs.Lexer.Trace

/-!
# Locks of statements

At most one word of a statement is its keyword, and brackets within the statement have
statements of their own. Both follow from what is on the stack of locks, of which only the top
is ever touched.

* An opening bracket puts the lock of the statement around it on the stack. There it stays, with
  all that is below it, until the bracket is closed (`TokenStep.LockEffect.suffix`), whatever
  stands between, on however many lines; so the bracket that closes it takes back the lock as it
  was (`closing_restores_lock`).
* A keyword locks its statement. At the depth of the statement, the lock is released only by a
  comma, or by a bracket that closes nothing (`TokenStep.Separates`); deeper brackets have it on
  the stack meanwhile (`TokenStep.LockEffect.suffix_of_locked`). So between two keywords of a
  line, at the same depth, one of these stands (`exists_separates_between_keywords`).
-/

namespace Highlighter

variable {ctx : Context} {locks start final : Locks} {lock : Bool} {step : TokenStep}
  {steps earlier between later : List TokenStep}

/-! ## Brackets -/

/-- A lock on the stack stays there, with those below it, until its bracket is closed. -/
theorem TokenStep.LockEffect.suffix (h : step.LockEffect)
    (hs : lock :: locks <:+ step.before.locks)
    (hc : step.token.IsCloseBracket step.line → step.after.depth ≠ locks.length) :
    lock :: locks <:+ step.after.locks := by
  cases h with
  | opens _ _ hlocks =>
    rw [hlocks]
    exact hs.trans (List.suffix_cons ..)
  | closes hclose _ hlocks =>
    rcases hbefore : step.before.locks with _ | ⟨top, below⟩
    · rw [hbefore] at hs
      simp at hs
    · rw [hbefore] at hs hlocks
      have hne : step.after.depth ≠ locks.length := hc hclose
      rcases List.suffix_cons_iff.1 hs with heq | hs
      · -- this would be the bracket of the lock itself
        obtain ⟨rfl, rfl⟩ := List.cons.inj heq
        exact absurd (congrArg List.length hlocks) hne
      · rwa [hlocks]
  | comma _ _ hlocks | comment _ _ hlocks | keyword _ _ _ hlocks | other _ _ _ hlocks =>
    rwa [hlocks]

/-- Along steps that do not close its bracket, a lock on the stack stays there, with those below
    it. -/
theorem LockRun.suffix (h : LockRun start steps final) (hs : lock :: locks <:+ start)
    (hc : ∀ step ∈ steps, step.token.IsCloseBracket step.line → step.after.depth ≠ locks.length) :
    lock :: locks <:+ final ∧ ∀ step ∈ steps,
      lock :: locks <:+ step.before.locks ∧ lock :: locks <:+ step.after.locks := by
  induction h with
  | nil => exact ⟨hs, by simp⟩
  | @cons step steps final he _ ih =>
    have hafter : lock :: locks <:+ step.after.locks :=
      he.suffix hs (hc step List.mem_cons_self)
    obtain ⟨hfinal, hsteps⟩ := ih hafter fun s hmem => hc s (List.mem_cons_of_mem _ hmem)
    refine ⟨hfinal, fun s hmem => ?_⟩
    rcases List.mem_cons.1 hmem with rfl | hmem
    · exact ⟨hs, hafter⟩
    · exact hsteps s hmem

/-- A lock is taken back from the stack together with those below it. -/
theorem pop_of_suffix {stack : Locks} (h : lock :: locks <:+ stack)
    (hlength : (Locks.pop stack).2.length = locks.length) : Locks.pop stack = (lock, locks) := by
  rcases stack with _ | ⟨top, below⟩
  · simp at h
  · cases h.eq_of_length (congrArg (· + 1) hlength.symm)
    rfl

/-- The bracket after which the brackets are open as deep as before an opening bracket, for the
    first time, takes back the locks and the lock that were there before it; between the two,
    these are on the stack unchanged. -/
theorem closing_restores_lock {lines : List Text} {opening closing : TokenStep}
    (h : traceOfLines ctx lines = earlier ++ opening :: (between ++ closing :: later))
    (ho : opening.token.IsOpenBracket opening.line)
    (hc : closing.token.IsCloseBracket closing.line)
    (hdepth : closing.after.depth = opening.before.depth)
    (hfirst : ∀ step ∈ between, step.token.IsCloseBracket step.line →
      step.after.depth ≠ opening.before.depth) :
    closing.after.locks = opening.before.locks ∧
    closing.after.locked = opening.before.locked ∧
    (∀ step ∈ opening :: between,
      opening.before.locked :: opening.before.locks <:+ step.after.locks) ∧
    ∀ step ∈ between ++ [closing],
      opening.before.locked :: opening.before.locks <:+ step.before.locks := by
  have hrun := lockRun_traceOfLines ctx lines
  rw [h, lockRun_append] at hrun
  obtain ⟨_, -, hrun⟩ := hrun
  cases hrun with
  | cons hopening hrun =>
    have hopened := hopening.of_isOpenBracket ho
    rw [hopened] at hrun
    obtain ⟨stack, hbetween, hrun⟩ := lockRun_append.1 hrun
    obtain ⟨hstack, hsteps⟩ := hbetween.suffix List.suffix_rfl hfirst
    cases hrun with
    | cons hclosing _ =>
      obtain ⟨hlocked, hlocks⟩ := hclosing.of_isCloseBracket hc
      have hpop := pop_of_suffix hstack (hlocks ▸ hdepth)
      rw [hpop] at hlocked hlocks
      refine ⟨hlocks, hlocked, fun step hmem => ?_, fun step hmem => ?_⟩
      · rcases List.mem_cons.1 hmem with rfl | hmem
        · exact hopened ▸ List.suffix_rfl
        · exact (hsteps step hmem).2
      · rcases List.mem_append.1 hmem with hmem | hmem
        · exact (hsteps step hmem).1
        · rwa [List.mem_singleton.1 hmem]

/-- A lock comes back over a nested group in other brackets, a comment, a blank line and a literal
    of two lines, and after a keyword in the brackets. -/
theorem closing_restores_lock_lines :
    let lines : List Text := ["let [f(go b] # (".toList, [], "x \"(".toList, "]\" ) y".toList]
    let steps := traceOfLines {} lines
    let opening : TokenStep := ⟨"let [f(go b] # (".toList, ⟨.bracket, 4, 5, by decide⟩,
      { promotable := false, locked := true }, { locks := [true] }⟩
    let closing : TokenStep := ⟨"]\" ) y".toList, ⟨.bracket, 3, 4, by decide⟩,
      { expressionStart := false, promotable := false, locked := true, locks := [true] },
      { expressionStart := false, promotable := false, locked := true }⟩
    steps = steps.take 1 ++ opening :: ((steps.drop 2).take 9 ++ closing :: steps.drop 12) ∧
      closing.after.locks = opening.before.locks ∧
      closing.after.locked = opening.before.locked := by
  intro lines steps opening closing
  have h : steps = steps.take 1 ++ opening :: ((steps.drop 2).take 9 ++ closing :: steps.drop 12) :=
    by decide +kernel
  have hdeep : ∀ step ∈ (steps.drop 2).take 9, step.after.depth ≠ 0 := by decide +kernel
  obtain ⟨hlocks, hlocked, -⟩ := closing_restores_lock h ⟨rfl, '[', rfl, by decide⟩
    ⟨rfl, ')', rfl, by decide⟩ rfl fun step hmem _ => hdeep step hmem
  exact ⟨h, hlocks, hlocked⟩

/-! ## Keywords -/

/-- A token releases the lock of the statement at a depth: a comma there, or, outside all
    brackets, a bracket that closes nothing. -/
def TokenStep.Separates (step : TokenStep) (depth : Nat) : Prop :=
  step.token.IsComma step.line ∧ step.before.depth = depth ∨
  depth = 0 ∧ step.token.IsCloseBracket step.line ∧ step.before.locks = []

/-- Where a statement is locked, it stays so, with the locks below it: in brackets within the
    statement, its lock is on the stack. -/
theorem TokenStep.LockEffect.suffix_of_locked (h : step.LockEffect)
    (hs : true :: locks <:+ step.before.locked :: step.before.locks)
    (hge : locks.length ≤ step.after.depth) (hsep : ¬step.Separates locks.length)
    (hcomment : step.token.category ≠ .comment) :
    true :: locks <:+ step.after.locked :: step.after.locks := by
  cases h with
  | opens _ _ hlocks =>
    rw [hlocks]
    exact hs.trans (List.suffix_cons ..)
  | closes hclose hlocked hlocks =>
    rcases hbefore : step.before.locks with _ | ⟨top, below⟩
    · -- a bracket that closes nothing is none of this depth
      rw [hbefore] at hlocks
      rw [Context.depth, hlocks] at hge
      exact absurd (.inr ⟨Nat.le_zero.1 hge, hclose, hbefore⟩) hsep
    · rw [hbefore] at hs hlocks hlocked
      rw [Context.depth, hlocks] at hge
      rw [hlocked, hlocks]
      rcases List.suffix_cons_iff.1 hs with heq | hs
      · have hlength := congrArg List.length (List.cons.inj heq).2
        simp [Locks.pop] at hlength hge
        omega
      · exact hs
  | comma hcomma hlocked hlocks =>
    rw [hlocked, hlocks]
    rcases List.suffix_cons_iff.1 hs with heq | hs
    · have hlength := congrArg List.length (List.cons.inj heq).2
      exact absurd (.inl ⟨hcomma, hlength.symm⟩) hsep
    · exact hs.trans (List.suffix_cons ..)
  | comment hc => exact absurd hc hcomment
  | keyword _ hunlocked hlocked hlocks =>
    rw [hunlocked] at hs
    rw [hlocked, hlocks]
    rcases List.suffix_cons_iff.1 hs with heq | hs
    · cases heq
    · exact hs.trans (List.suffix_cons ..)
  | other _ _ hlocked hlocks => rwa [hlocked, hlocks]

/-- A comment takes all that is left of the line. -/
theorem Lexeme.Recognized.drop_width_of_comment {text : Text} {lexeme : Lexeme}
    (h : Recognized ctx text lexeme) (hc : lexeme.category = .comment) :
    text.drop lexeme.width = [] := by
  cases h with
  | comment => exact List.drop_length
  | literal => exact absurd (hc.symm.trans (category_insideLiteral ..)) (by decide)
  | @word c rest =>
    have hmem := category_word_mem ctx (c :: rest)
    rw [hc] at hmem
    simp at hmem
  | _ => cases hc

namespace Lexer

variable {lexer after : Lexer} {token : Token} {second : TokenStep}

/-- After a comment, nothing is left of the line. -/
theorem rest_eq_nil_of_comment (h : lexer.next = (some token, after))
    (hc : token.category = .comment) : after.cursor.rest = [] := by
  obtain ⟨lexeme, he⟩ := exists_emits_of_next h
  obtain ⟨c, rest, hrest, ⟨-, rfl⟩ | ⟨-, rfl⟩⟩ := exists_of_lexeme? he.lexeme?
  · have hstring := he.category.trans (Lexeme.category_insideLiteral ..)
    exact absurd (hc.symm.trans hstring) (by decide)
  · rw [he.rest, hrest]
    exact (Lexeme.recognized_next ..).drop_width_of_comment (he.category.symm.trans hc)

/-- After a comment, nothing is left of the line. -/
theorem trace_eq_nil_of_comment (h : lexer.next = (some token, after))
    (hc : token.category = .comment) : after.trace = [] :=
  trace_of_rest_eq_nil (rest_eq_nil_of_comment h hc)

/-- Where a statement is locked, a keyword comes at the same depth only after a token that
    releases the lock. -/
theorem exists_separates (h : lexer.trace = between ++ second :: later)
    (happroach : lexer.approach.context = lexer.context)
    (hs : true :: locks <:+ lexer.context.locked :: lexer.context.locks)
    (hge : ∀ step ∈ between, locks.length ≤ step.after.depth)
    (hsecond : second.token.category = .keyword) (hdepth : second.before.depth = locks.length) :
    ∃ step ∈ between, step.Separates locks.length := by
  induction between generalizing lexer with
  | nil =>
    obtain ⟨token, after, hnext, rfl, -⟩ := exists_next_of_trace_eq_cons h
    obtain ⟨hunlocked, -⟩ := (lockEffect_stepTo hnext).of_keyword hsecond
    rw [stepTo, happroach] at hunlocked hdepth
    have heq := hs.eq_of_length (congrArg (· + 1) hdepth.symm)
    exact absurd ((List.cons.inj heq).1.trans hunlocked) (by decide)
  | cons step between ih =>
    obtain ⟨token, after, hnext, rfl, hafter⟩ := exists_next_of_trace_eq_cons h
    by_cases hsep : (lexer.stepTo token after).Separates locks.length
    · exact ⟨_, List.mem_cons_self, hsep⟩
    · have hcomment : token.category ≠ .comment := by
        intro hc
        rw [trace_eq_nil_of_comment hnext hc] at hafter
        simp at hafter
      have hstep : true :: locks <:+ after.context.locked :: after.context.locks :=
        (lockEffect_stepTo hnext).suffix_of_locked (by rwa [stepTo, happroach])
          (hge _ List.mem_cons_self) hsep hcomment
      obtain ⟨step, hmem, hsep⟩ := ih hafter.symm (context_approach_of_next hnext) hstep
        fun step hmem => hge step (List.mem_cons_of_mem _ hmem)
      exact ⟨step, List.mem_cons_of_mem _ hmem, hsep⟩

/-- Between two keywords of a line at the same depth, with nothing less deep between them, a
    comma stands at that depth, or else, outside all brackets, a bracket that closes nothing. -/
theorem exists_separates_between_keywords {line : Text} {first second : TokenStep}
    (h : (ofLine line ctx).trace = earlier ++ first :: (between ++ second :: later))
    (hfirst : first.token.category = .keyword) (hsecond : second.token.category = .keyword)
    (hdepth : second.before.depth = first.before.depth)
    (hge : ∀ step ∈ between, first.before.depth ≤ step.after.depth) :
    ∃ step ∈ between, step.Separates first.before.depth := by
  obtain ⟨lexer, htrace⟩ := exists_trace_of_trace_eq_append h
  obtain ⟨token, after, hnext, rfl, hafter⟩ := exists_next_of_trace_eq_cons htrace
  obtain ⟨-, hlocked, hlocks⟩ := (lockEffect_stepTo hnext).of_keyword hfirst
  refine exists_separates hafter.symm (context_approach_of_next hnext) ?_ hge hsecond hdepth
  exact (congrArg₂ List.cons hlocked hlocks).symm ▸ List.suffix_rfl

/-- The commas of a call separate nothing outside it. -/
theorem exists_separates_between_keywords_call :
    let line : Text := "print f(if b, c), return d".toList
    let steps := (ofLine line {}).trace
    let first : TokenStep := ⟨line, ⟨.keyword, 0, 5, by decide⟩, {},
      { promotable := false, locked := true }⟩
    let second : TokenStep := ⟨line, ⟨.keyword, 18, 24, by decide⟩, {},
      { promotable := false, locked := true }⟩
    steps = [] ++ first :: ((steps.drop 1).take 8 ++ second :: steps.drop 10) ∧
      ∃ step ∈ (steps.drop 1).take 8, step.Separates 0 := by
  intro line steps first second
  have h : steps = [] ++ first :: ((steps.drop 1).take 8 ++ second :: steps.drop 10) := by
    decide +kernel
  exact ⟨h, exists_separates_between_keywords h rfl rfl rfl fun _ _ => Nat.zero_le _⟩

end Lexer

end Highlighter
