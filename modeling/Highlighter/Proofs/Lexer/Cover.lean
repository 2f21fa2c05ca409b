import Highlighter.Proofs.Lexer.Literal
import Mathlib.Data.List.TakeWhile

/-!
# Tokens cover their line

Between one token and the next, only blanks are passed, and every token takes whole
characters (`exists_text_of_next`). So the tokens read from a place on *cover* what remains
there (`covers_rest`): they stand in it one after the other, and what stands between them,
or after the last, is blank (`Covers`).

For a whole line this is said by positions in `CoversLine`: where each token begins and ends,
their order, and that a character at no position of a token is blank. A lexer that finds no
token has come to the end of its line, with nothing but blanks passed
(`next_fst_eq_none_iff`).
-/

namespace Highlighter

/-! ## Covering a text -/

/-- From a position on, tokens cover the text that remains: they stand in it one after the
    other, with nothing but blanks between them and after the last. -/
inductive Covers : Nat → Text → List Token → Prop
  | nil {position : Nat} {rest : Text} : (∀ c ∈ rest, isBlank c) → Covers position rest []
  | cons {position : Nat} {gap text rest : Text} {token : Token} {following : List Token} :
    (∀ c ∈ gap, isBlank c) → text ≠ [] →
      token.span.start = position + Text.byteLength gap →
      token.span.stop = token.span.start + Text.byteLength text →
      Covers token.span.stop rest following →
      Covers position (gap ++ (text ++ rest)) (token :: following)

/-- Tokens cover a line. -/
structure CoversLine (line : Text) (tokens : List Token) : Prop where
  /-- Each token is a stretch of whole characters of the line, and not empty. -/
  whole : ∀ token ∈ tokens, ∃ before text after, line = before ++ (text ++ after) ∧ text ≠ [] ∧
    token.span.start = Text.byteLength before ∧
    token.span.stop = Text.byteLength before + Text.byteLength text
  /-- Each token begins where the one before it ends, or later. -/
  ordered : tokens.Pairwise fun token next => token.span.stop ≤ next.span.start
  /-- A character that begins at no position of a token is blank. -/
  blank : ∀ before c after, line = before ++ c :: after →
    (∀ token ∈ tokens, ¬(token.span.start ≤ Text.byteLength before ∧
      Text.byteLength before < token.span.stop)) →
    isBlank c

namespace Covers

variable {position : Nat} {rest before after : Text} {tokens : List Token} {token : Token}
  {c : Char}

/-- Tokens that cover a text begin in it. -/
theorem le_start (h : Covers position rest tokens) (ht : token ∈ tokens) :
    position ≤ token.span.start := by
  induction h with
  | nil => cases ht
  | @cons _ gap _ _ first _ _ _ hstart hstop _ ih =>
    rcases List.mem_cons.1 ht with rfl | ht
    · omega
    · have := ih ht
      omega

theorem pairwise (h : Covers position rest tokens) :
    tokens.Pairwise fun token next => token.span.stop ≤ next.span.start := by
  induction h with
  | nil => exact .nil
  | cons _ _ _ _ hrest ih => exact .cons (fun _ ht => hrest.le_start ht) ih

/-- A token stands in the text that it covers with others. -/
theorem exists_text (h : Covers position rest tokens) (ht : token ∈ tokens) :
    ∃ before text after, rest = before ++ (text ++ after) ∧ text ≠ [] ∧
      token.span.start = position + Text.byteLength before ∧
      token.span.stop = position + Text.byteLength before + Text.byteLength text := by
  induction h with
  | nil => cases ht
  | @cons position gap text rest first _ _ hne hstart hstop _ ih =>
    rcases List.mem_cons.1 ht with rfl | ht
    · exact ⟨gap, text, rest, rfl, hne, hstart, by rw [hstop, hstart]⟩
    · -- after the first token, counted from its end
      obtain ⟨before, text', after, rfl, hne', hstart', hstop'⟩ := ih ht
      refine ⟨gap ++ (text ++ before), text', after, by simp, hne', ?_, ?_⟩
      · rw [hstart', hstop, hstart]
        simp only [Text.byteLength_append]
        omega
      · rw [hstop', hstop, hstart]
        simp only [Text.byteLength_append]
        omega

/-- A character of two texts stands in the first, or else in the second. -/
theorem exists_of_append_eq {s t : Text} (h : before ++ c :: after = s ++ t) :
    (∃ tail, s = before ++ c :: tail) ∨ ∃ head, before = s ++ head ∧ t = head ++ c :: after := by
  rcases List.append_eq_append_iff.1 h with ⟨tail, rfl, ht⟩ | ⟨head, rfl, ht⟩
  · cases tail with
    | nil => exact .inr ⟨[], by simp, ht.symm⟩
    | cons d tail =>
      obtain ⟨rfl, -⟩ := List.cons.inj ht
      exact .inl ⟨tail, rfl⟩
  · exact .inr ⟨head, rfl, ht⟩

/-- A character that begins at no position of a token is blank. -/
theorem isBlank_of_forall_not (h : Covers position (before ++ c :: after) tokens)
    (ht : ∀ token ∈ tokens, ¬(token.span.start ≤ position + Text.byteLength before ∧
      position + Text.byteLength before < token.span.stop)) :
    isBlank c := by
  generalize hrest : before ++ c :: after = rest at h
  induction h generalizing before with
  | nil hblank => exact hblank c (by simp [← hrest])
  | @cons position gap text rest first _ hgap _ hstart hstop _ ih =>
    rcases exists_of_append_eq hrest with ⟨tail, rfl⟩ | ⟨head, rfl, htext⟩
    · exact hgap c (by simp)
    rcases exists_of_append_eq htext.symm with ⟨tail, rfl⟩ | ⟨head, rfl, htail⟩
    · -- within the first token
      refine absurd ⟨?_, ?_⟩ (ht first List.mem_cons_self)
      · simp only [Text.byteLength_append]
        omega
      · have := c.utf8Size_pos
        simp only [Text.byteLength_append, Text.byteLength_cons] at hstop ⊢
        omega
    · -- after the first token, counted from its end
      have hsum : first.span.stop + Text.byteLength head =
          position + Text.byteLength (gap ++ (text ++ head)) := by
        simp only [Text.byteLength_append]
        omega
      refine ih (fun token hmem => ?_) htail.symm
      rw [hsum]
      exact ht token (List.mem_cons_of_mem _ hmem)

/-- Tokens that cover a line from its beginning. -/
theorem coversLine {line : Text} (h : Covers 0 line tokens) : CoversLine line tokens where
  whole _ ht := by simpa using h.exists_text ht
  ordered := h.pairwise
  blank before c after hline ht := by
    subst hline
    exact h.isBlank_of_forall_not (by simpa using ht)

end Covers

namespace Lexer

variable {lexer after : Lexer} {token : Token} {ctx : Context} {line : Text}

/-! ## One token -/

/-- Before a token, blanks are passed, but none within a literal. -/
theorem exists_gap_approach (lexer : Lexer) :
    ∃ gap, (∀ c ∈ gap, isBlank c) ∧ (lexer.context.inLiteral → gap = []) ∧
      lexer.cursor.rest = gap ++ lexer.approach.cursor.rest ∧
      lexer.approach.cursor.position = lexer.cursor.position + Text.byteLength gap := by
  by_cases hl : lexer.context.inLiteral
  · refine ⟨[], by simp, fun _ => rfl, ?_, ?_⟩ <;> simp [approach, hl]
  · refine ⟨lexer.cursor.rest.takeWhile isBlank, fun c hc => ?_, fun h => absurd h hl, ?_, ?_⟩
    · exact List.all_eq_true.1 List.all_takeWhile c hc
    · rw [approach_of_not_inLiteral hl, Cursor.rest_skipBlanks, List.takeWhile_append_dropWhile]
    · rw [approach_of_not_inLiteral hl, Cursor.position_skipBlanks]

/-- A token takes characters of the line, after blanks, and the lexer goes to its end. -/
theorem exists_text_of_next (h : lexer.next = (some token, after)) :
    ∃ gap text, (∀ c ∈ gap, isBlank c) ∧ text ≠ [] ∧
      lexer.cursor.rest = gap ++ (text ++ after.cursor.rest) ∧
      token.span.start = lexer.cursor.position + Text.byteLength gap ∧
      token.span.stop = token.span.start + Text.byteLength text ∧
      after.cursor.position = token.span.stop := by
  obtain ⟨lexeme, he⟩ := exists_emits_of_next h
  obtain ⟨gap, hgap, -, hrest, hposition⟩ := exists_gap_approach lexer
  obtain ⟨hwidth, hne⟩ := width_lexeme?_pos he.lexeme?
  refine ⟨gap, lexer.approach.cursor.rest.take lexeme.width, hgap, ?_, ?_, ?_, ?_, he.position⟩
  · simp [hwidth.ne', hne]
  · rw [he.rest, List.take_append_drop, hrest]
  · rw [he.start, hposition]
  · rw [he.stop, he.start]

/-- Where nothing is left, there is no token, and otherwise there is one. -/
theorem next_of_rest_approach_eq_nil (h : lexer.approach.cursor.rest = []) :
    lexer.next = (none, lexer.approach) := by
  rw [next, read, lexeme?, h]

theorem next_of_rest_eq_nil (h : lexer.cursor.rest = []) :
    lexer.next = (none, lexer.approach) := by
  have hle := lexer.length_rest_approach_le
  rw [h, List.length_nil, Nat.le_zero, List.length_eq_zero_iff] at hle
  exact next_of_rest_approach_eq_nil hle

theorem exists_next_of_rest_approach_ne_nil (h : lexer.approach.cursor.rest ≠ []) :
    ∃ token after, lexer.next = (some token, after) := by
  obtain ⟨c, rest, hrest⟩ := List.exists_cons_of_ne_nil h
  obtain ⟨lexeme, hlexeme⟩ : ∃ lexeme, lexer.approach.lexeme? = some lexeme := by
    rw [lexeme?, hrest]
    dsimp only
    split <;> exact ⟨_, rfl⟩
  obtain ⟨token, after, hnext, -⟩ := exists_next_of_lexeme? hlexeme
  exact ⟨token, after, hnext⟩

/-- What is left where the next token would begin: nothing, if there are only blanks, which
    within a literal are not passed. -/
theorem rest_approach_eq_nil_iff :
    lexer.approach.cursor.rest = [] ↔
      if lexer.context.inLiteral then lexer.cursor.rest = []
      else ∀ c ∈ lexer.cursor.rest, isBlank c := by
  rw [approach]
  split
  · rfl
  · dsimp only
    rw [Cursor.rest_skipBlanks, List.dropWhile_eq_nil_iff]

/-- A lexer finds no token exactly where only blanks are left, or, within a literal, nothing. -/
theorem next_fst_eq_none_iff :
    lexer.next.1 = none ↔
      if lexer.context.inLiteral then lexer.cursor.rest = []
      else ∀ c ∈ lexer.cursor.rest, isBlank c := by
  rw [← rest_approach_eq_nil_iff]
  refine ⟨fun h => ?_, fun h => by rw [next_of_rest_approach_eq_nil h]⟩
  by_contra hne
  obtain ⟨token, after, hnext⟩ := exists_next_of_rest_approach_ne_nil hne
  rw [hnext] at h
  cases h

/-- A lexer that finds no token passes blanks, and then nothing is left. -/
theorem eq_approach_of_next (h : lexer.next = (none, after)) :
    after = lexer.approach ∧ lexer.approach.cursor.rest = [] := by
  have hrest : lexer.approach.cursor.rest = [] := by
    rw [rest_approach_eq_nil_iff, ← next_fst_eq_none_iff, h]
  exact ⟨(Prod.mk.inj (h.symm.trans (next_of_rest_approach_eq_nil hrest))).2, hrest⟩

/-- A lexer that finds no token has come to the end of the line. -/
theorem rest_eq_nil_of_next (h : lexer.next = (none, after)) :
    after.cursor.rest = [] ∧ after.cursor.line = lexer.cursor.line := by
  obtain ⟨rfl, hrest⟩ := eq_approach_of_next h
  exact ⟨hrest, lexer.line_approach⟩

theorem position_eq_of_rest_eq_nil (h : lexer.cursor.rest = []) :
    lexer.cursor.position = Text.byteLength lexer.cursor.line := by
  rw [Cursor.position_eq_byteLength, Cursor.line, h, List.append_nil]

/-! ## All tokens -/

/-- The tokens up to the end of the line cover what remains of it. -/
theorem covers_rest (lexer : Lexer) :
    Covers lexer.cursor.position lexer.cursor.rest lexer.rest.1 := by
  induction lexer using steps.induct with
  | case1 lexer after hnext =>
    rw [rest_of_next_none hnext]
    refine .nil fun c hc => ?_
    have hrest := next_fst_eq_none_iff.1 (congrArg Prod.fst hnext)
    split at hrest
    · rw [hrest] at hc
      cases hc
    · exact hrest c hc
  | case2 lexer token after hnext ih =>
    obtain ⟨gap, text, hgap, hne, hrest, hstart, hstop, hposition⟩ := exists_text_of_next hnext
    rw [rest_of_next_some hnext, hrest]
    exact .cons hgap hne hstart hstop (hposition ▸ ih)

/-- Reading token by token comes to an end, and then all tokens have been read. -/
theorem exists_reads_rest (lexer : Lexer) :
    ∃ last, Reads lexer lexer.rest.1 last ∧ last.next = (none, lexer.rest.2) := by
  induction lexer using steps.induct with
  | case1 lexer after hnext =>
    rw [rest_of_next_none hnext]
    exact ⟨lexer, .start, hnext⟩
  | case2 lexer token after hnext ih =>
    obtain ⟨last, hreads, hlast⟩ := ih
    rw [rest_of_next_some hnext]
    exact ⟨last, hreads.cons hnext, hlast⟩

/-- The tokens of a line cover it. -/
theorem coversLine_tokenizeLine (ctx : Context) (line : Text) :
    CoversLine line (tokenizeLine ctx line).1 := by
  refine Covers.coversLine ?_
  cases line with
  | nil => exact .nil fun c hc => absurd hc List.not_mem_nil
  | cons c rest => exact covers_rest (ofLine (c :: rest) ctx)

/-- What one call for the next token does: it brings the lexer forward to the end of a token,
    or else to the end of the line, with nothing but blanks passed. -/
structure Forward (lexer : Lexer) : Prop where
  token : ∀ token after, lexer.next = (some token, after) →
    lexer.cursor.position ≤ token.span.start ∧ token.span.start < token.span.stop ∧
    after.cursor.position = token.span.stop
  none_iff : lexer.next.1 = none ↔
    if lexer.context.inLiteral then lexer.cursor.rest = []
    else ∀ c ∈ lexer.cursor.rest, isBlank c
  none : ∀ after, lexer.next = (none, after) →
    after.cursor.position = Text.byteLength lexer.cursor.line

theorem forward (lexer : Lexer) : lexer.Forward where
  token token after h := by
    obtain ⟨gap, text, -, hne, -, hstart, hstop, hposition⟩ := exists_text_of_next h
    have := Text.byteLength_pos hne
    omega
  none_iff := next_fst_eq_none_iff
  none after h := by
    obtain ⟨hrest, hline⟩ := rest_eq_nil_of_next h
    rw [position_eq_of_rest_eq_nil hrest, hline]

/-- Tokens that have been read begin before the lexer. -/
theorem Reads.start_lt {start : Lexer} {read : List Token} (h : Reads start read lexer)
    (ht : token ∈ read) : token.span.start < lexer.cursor.position := by
  induction h with
  | start => cases ht
  | next _ hn ih =>
    obtain ⟨hstart, hlt, hposition⟩ := (forward _).token _ _ hn
    rcases List.mem_append.1 ht with ht | ht
    · have := ih ht
      omega
    · obtain rfl := List.mem_singleton.1 ht
      omega

/-- Where a line begins within a literal, its first token is what it holds of the literal. -/
theorem exists_head_of_inLiteral (hl : ctx.inLiteral) (hne : line ≠ []) :
    ∃ token ∈ (tokenizeLine ctx line).1.head?,
      token.category = .string ∧ token.span.start = 0 := by
  obtain ⟨l, hl⟩ := Option.isSome_iff_exists.1 hl
  rw [tokenizeLine_of_ne_nil hne, rest_of_next_some (next_ofLine_of_literal hl hne)]
  exact ⟨_, rfl, Lexeme.category_insideLiteral .., rfl⟩

/-- Whatever the context and the line, reading the line comes to an end; its tokens cover it,
    beginning with what it holds of a literal that goes on in it; and wherever a lexer stands,
    a call for the next token brings it forward. -/
theorem tokens_cover_line (ctx : Context) (line : Text) :
    CoversLine line (tokenizeLine ctx line).1 ∧
    (line ≠ [] → ∃ last after, Reads (.ofLine line ctx) (tokenizeLine ctx line).1 last ∧
      last.next = (none, after) ∧ after.context = (tokenizeLine ctx line).2) ∧
    (ctx.inLiteral → line ≠ [] → ∃ token ∈ (tokenizeLine ctx line).1.head?,
      token.category = .string ∧ token.span.start = 0) ∧
    ∀ lexer : Lexer, lexer.Forward := by
  refine ⟨coversLine_tokenizeLine ctx line, fun hne => ?_, exists_head_of_inLiteral, forward⟩
  obtain ⟨last, hreads, hlast⟩ := exists_reads_rest (ofLine line ctx)
  rw [tokenizeLine_of_ne_nil hne]
  exact ⟨last, _, hreads, hlast, rfl⟩

end Lexer

end Highlighter
