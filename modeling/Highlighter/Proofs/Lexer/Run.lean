import Highlighter.Line
import Highlighter.Proofs.Cursor
import Highlighter.Proofs.Lexeme.Recognized

/-!
# Reading a line token by token

A token is the lexeme where it begins (`exists_emits_of_next`): its span is what the lexeme
takes, and the lexer after it stands right at its end (`Emits`).

A line is read by taking one token after the other: `Reads start read lexer` says that
reading the tokens `read` brings a lexer from `start` to `lexer`. Every token of a line is
the next one of a lexer that has read the tokens before it
(`exists_reads_of_tokenizeLine`), so what holds of each reading of a token, given the
tokens before it, holds of all tokens of a line.
-/

namespace Highlighter.Lexer

variable {start lexer after : Lexer} {token : Token} {lexeme : Lexeme} {read following : List Token}

/-! ## One token -/

/-- What a token is, with the lexer after it, where its lexeme begins right at the lexer. -/
structure Emits (lexer : Lexer) (lexeme : Lexeme) (token : Token) (after : Lexer) : Prop where
  lexeme? : lexer.lexeme? = some lexeme
  category : token.category = lexeme.category
  text? : token.text? lexer.cursor.line = some (lexer.cursor.rest.take lexeme.width)
  start : token.span.start = lexer.cursor.position
  stop : token.span.stop =
    lexer.cursor.position + Text.byteLength (lexer.cursor.rest.take lexeme.width)
  /-- The lexer after the token stands right at its end, in the same line. -/
  position : after.cursor.position = token.span.stop
  rest : after.cursor.rest = lexer.cursor.rest.drop lexeme.width
  line : after.cursor.line = lexer.cursor.line
  context : after.context = lexeme.context

theorem emits_emit (h : lexer.lexeme? = some lexeme) :
    lexer.Emits lexeme (lexer.emit lexeme).1 (lexer.emit lexeme).2 where
  lexeme? := h
  category := rfl
  text? := lexer.cursor.slice?_advanceBy lexeme.width
  start := rfl
  stop := lexer.cursor.position_advanceBy lexeme.width
  position := rfl
  rest := lexer.cursor.rest_advanceBy lexeme.width
  line := lexer.cursor.line_advanceBy lexeme.width
  context := rfl

/-- A lexeme takes its first character, so the text of the token begins with it. -/
theorem Emits.exists_text_cons {ctx : Context} {c : Char} {rest : Text}
    (he : lexer.Emits (Lexeme.next ctx c rest) token after) (hr : lexer.cursor.rest = c :: rest) :
    ∃ t, token.text? lexer.cursor.line = some (c :: t) := by
  obtain ⟨n, hn⟩ := Nat.exists_eq_succ_of_ne_zero (Lexeme.width_next_pos ctx c rest).ne'
  have htext := he.text?
  rw [hr, hn, List.take_succ_cons] at htext
  exact ⟨_, htext⟩

/-- A token is read as the lexeme where it begins. -/
theorem exists_emits_of_next (h : lexer.next = (some token, after)) :
    ∃ lexeme, lexer.approach.Emits lexeme token after := by
  rw [next, Lexer.read] at h
  split at h
  · cases h
  next lexeme hlexeme =>
    obtain ⟨htoken, rfl⟩ := Prod.mk.inj h
    cases htoken
    exact ⟨lexeme, emits_emit hlexeme⟩

/-- The lexeme where a token begins is read as the token. -/
theorem exists_next_of_lexeme? (h : lexer.approach.lexeme? = some lexeme) :
    ∃ token after, lexer.next = (some token, after) ∧ lexer.approach.Emits lexeme token after :=
  ⟨_, _, by rw [next, Lexer.read, h], emits_emit h⟩

/-- A lexeme is what is left of an open literal, or what is recognized. -/
theorem exists_of_lexeme? (h : lexer.lexeme? = some lexeme) :
    ∃ c rest, lexer.cursor.rest = c :: rest ∧
      (lexer.context.inLiteral ∧ lexeme = Lexeme.insideLiteral lexer.context (c :: rest) ∨
        ¬lexer.context.inLiteral ∧ lexeme = Lexeme.next lexer.context c rest) := by
  rw [lexeme?] at h
  split at h
  · cases h
  next c rest hrest =>
    refine ⟨c, rest, hrest, ?_⟩
    split at h
    · exact .inl ⟨‹_›, (Option.some.inj h).symm⟩
    · exact .inr ⟨‹_›, (Option.some.inj h).symm⟩

/-- Outside literals, blanks are passed, and at the beginning of a line a statement begins. -/
theorem approach_of_not_inLiteral (hl : ¬lexer.context.inLiteral) :
    lexer.approach =
      ⟨lexer.cursor.skipBlanks,
        if lexer.cursor.isAtStart then lexer.context.startLine else lexer.context,
        lexer.cursor.skipBlanks.position⟩ :=
  if_neg hl

theorem line_approach (lexer : Lexer) : lexer.approach.cursor.line = lexer.cursor.line := by
  rw [approach]
  split
  · rfl
  · exact lexer.cursor.line_skipBlanks

/-- Where a token begins, something was left of the line before the blanks, too. -/
theorem rest_ne_nil_of_rest_approach {c : Char} {rest : Text}
    (h : lexer.approach.cursor.rest = c :: rest) : lexer.cursor.rest ≠ [] := by
  have hle := length_rest_approach_le lexer
  rintro hnil
  rw [h, hnil] at hle
  exact absurd hle (Nat.not_succ_le_zero _)

/-- The literal that is open where the next token begins was open before. -/
theorem literal_approach (lexer : Lexer) :
    lexer.approach.context.literal = lexer.context.literal := by
  rw [approach]
  split
  · rfl
  · dsimp only
    split
    · rw [Context.startLine]
      split <;> rfl
    · rfl

/-- Where no literal is open, the lexeme after the blanks is recognized. -/
theorem lexeme?_approach {c : Char} {rest : Text} (hl : ¬lexer.context.inLiteral)
    (hr : lexer.approach.cursor.rest = c :: rest) :
    lexer.approach.lexeme? = some (Lexeme.next lexer.approach.context c rest) := by
  have hl' : ¬lexer.approach.context.inLiteral := by
    rwa [Context.inLiteral, literal_approach]
  rw [lexeme?, hr]
  exact if_neg hl'

/-- Reading a token stays in the line. -/
theorem line_next (h : lexer.next = (some token, after)) :
    after.cursor.line = lexer.cursor.line := by
  obtain ⟨lexeme, he⟩ := exists_emits_of_next h
  exact he.line.trans lexer.line_approach

/-- After a token, the lexer is no longer at the beginning of the line. -/
theorem isAtStart_next (h : lexer.next = (some token, after)) :
    after.cursor.isAtStart = false := by
  obtain ⟨lexeme, he⟩ := exists_emits_of_next h
  obtain ⟨hwidth, hrest⟩ := width_lexeme?_pos he.lexeme?
  have hpos : 0 < Text.byteLength (lexer.approach.cursor.rest.take lexeme.width) :=
    Text.byteLength_pos (by simp [hwidth.ne', hrest])
  rw [Cursor.isAtStart, he.position, he.stop, beq_eq_false_iff_ne]
  exact (Nat.add_pos_right _ hpos).ne'

/-! ## Many tokens -/

/-- Reading tokens brings a lexer from one place to another. -/
inductive Reads (start : Lexer) : List Token → Lexer → Prop
  | start : Reads start [] start
  | next {read : List Token} {lexer after : Lexer} {token : Token} :
    Reads start read lexer → lexer.next = (some token, after) →
      Reads start (read ++ [token]) after

theorem Reads.cons (h : start.next = (some token, after)) (hr : Reads after read lexer) :
    Reads start (token :: read) lexer := by
  induction hr with
  | start => exact .next .start h
  | next _ hn ih => exact .next ih hn

/-- Reading tokens stays in the line. -/
theorem Reads.line_eq (h : Reads start read lexer) : lexer.cursor.line = start.cursor.line := by
  induction h with
  | start => rfl
  | next _ hn ih => exact (line_next hn).trans ih

theorem Reads.eq_start (h : Reads start [] lexer) : lexer = start := by
  generalize hread : ([] : List Token) = read at h
  cases h with
  | start => rfl
  | next => simp at hread

/-- The last token read was read by a lexer that had read those before it. -/
theorem Reads.exists_of_getLast? (h : Reads start read lexer) (ht : read.getLast? = some token) :
    ∃ before, Reads start read.dropLast before ∧ before.next = (some token, lexer) := by
  cases h with
  | start => cases ht
  | next hr hn =>
    rw [List.getLast?_concat] at ht
    cases ht
    rw [List.dropLast_concat]
    exact ⟨_, hr, hn⟩

/-! ## All tokens -/

theorem steps_of_next_none (h : lexer.next = (none, after)) : lexer.steps = ([], after) := by
  rw [steps]
  split
  next hn =>
    obtain ⟨-, rfl⟩ := Prod.mk.inj (hn.symm.trans h)
    rfl
  next hn => cases hn.symm.trans h

theorem steps_of_next_some (h : lexer.next = (some token, after)) :
    lexer.steps = ((token, after) :: after.steps.1, after.steps.2) := by
  rw [steps]
  split
  next hn => cases hn.symm.trans h
  next hn =>
    obtain ⟨htoken, rfl⟩ := Prod.mk.inj (hn.symm.trans h)
    cases htoken
    rfl

theorem rest_of_next_none (h : lexer.next = (none, after)) : lexer.rest = ([], after) := by
  rw [rest, steps_of_next_none h, List.map_nil]

theorem rest_of_next_some (h : lexer.next = (some token, after)) :
    lexer.rest = (token :: after.rest.1, after.rest.2) := by
  rw [rest, steps_of_next_some h, List.map_cons]
  rfl

/-- Every token that is read is the next one of a lexer that has read those before it. -/
theorem exists_reads_of_rest (h : lexer.rest.1 = read ++ token :: following) :
    ∃ before after, Reads lexer read before ∧ before.next = (some token, after) := by
  induction read generalizing lexer with
  | nil =>
    rcases hn : lexer.next with ⟨_ | first, after⟩
    · rw [rest_of_next_none hn] at h
      cases h
    · rw [rest_of_next_some hn] at h
      cases h
      exact ⟨lexer, after, .start, hn⟩
  | cons t read ih =>
    rcases hn : lexer.next with ⟨_ | first, after⟩
    · rw [rest_of_next_none hn] at h
      cases h
    · rw [rest_of_next_some hn, List.cons_append] at h
      obtain ⟨rfl, hrest⟩ := List.cons.inj h
      obtain ⟨before, next, hr, hnext⟩ := ih hrest
      exact ⟨before, next, hr.cons hn, hnext⟩

/-- Reading all tokens goes on from wherever reading some of them has come to. -/
theorem Reads.rest_eq (h : Reads start read lexer) :
    start.rest = (read ++ lexer.rest.1, lexer.rest.2) := by
  induction h with
  | start => rfl
  | next _ hn ih => rw [ih, rest_of_next_some hn, List.append_assoc, List.singleton_append]

/-- A line that is not empty is read by a lexer from its beginning. -/
theorem tokenizeLine_of_ne_nil {ctx : Context} {line : Text} (h : line ≠ []) :
    tokenizeLine ctx line = ((ofLine line ctx).rest.1, (ofLine line ctx).rest.2.context) := by
  obtain ⟨c, rest, rfl⟩ := List.exists_cons_of_ne_nil h
  rfl

/-- Every token of a line is the next one of a lexer that has read those before it. -/
theorem exists_reads_of_tokenizeLine {ctx : Context} {line : Text}
    (h : (tokenizeLine ctx line).1 = read ++ token :: following) :
    ∃ before after, Reads (.ofLine line ctx) read before ∧ before.next = (some token, after) := by
  cases line with
  | nil => simp [tokenizeLine] at h
  | cons c rest => exact exists_reads_of_rest h

/-- What follows the tokens read of a line is read by the lexer that has read them. -/
theorem Reads.rest_of_tokenizeLine {ctx : Context} {line : Text}
    (hr : Reads (.ofLine line ctx) read lexer)
    (h : (tokenizeLine ctx line).1 = read ++ token :: following) :
    lexer.rest.1 = token :: following := by
  have hne : line ≠ [] := by
    rintro rfl
    simp [tokenizeLine] at h
  rw [tokenizeLine_of_ne_nil hne, hr.rest_eq] at h
  exact List.append_cancel_left h

end Highlighter.Lexer
