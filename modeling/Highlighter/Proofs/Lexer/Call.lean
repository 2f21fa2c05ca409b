import Highlighter.Proofs.Lexer.Bytes

/-!
# Calls by hand

A host that drives a lexer by hand may call any recognizer anywhere, in any context: also where the
text does not begin as the recognizer expects, and at the end of the line. Whatever it calls, a
lexer in characters goes on in its line by a number of characters, and the token that was asked for
last begins behind it (`Lexer.Onward`): this is so for every lexeme that is passed
(`Lexer.onward_accept`), for blanks (`Lexer.onward_approach`), and so for all calls
(`Lexer.onward_call`).

A lexer in bytes does what the one in characters does, so no call is refused, and it always stands
between two characters of its line (`ByteLexer.Stands`). This is the result on all sequences of
calls (`ByteLexer.all_calls_safe`): each is performed, brings the lexer no way back, and finds
tokens that are not empty and end where it stands (`ByteLexer.Safe`).
-/

namespace Highlighter

/-! ## Going on in a line -/

namespace Lexer

variable {lexer after last : Lexer} {token : Token}

/-- From one lexer to another, further on in the line. -/
structure Onward (lexer after : Lexer) : Prop where
  cursor : ∃ count, after.cursor = lexer.cursor.advanceBy count
  tokenStart_le : lexer.tokenStart ≤ lexer.cursor.position →
    after.tokenStart ≤ after.cursor.position

theorem Onward.refl (lexer : Lexer) : lexer.Onward lexer :=
  ⟨⟨0, rfl⟩, id⟩

theorem Onward.trans (h : lexer.Onward after) (h' : after.Onward last) : lexer.Onward last where
  cursor := by
    obtain ⟨m, hm⟩ := h.cursor
    obtain ⟨n, hn⟩ := h'.cursor
    exact ⟨m + n, by rw [hn, hm, Cursor.advanceBy_advanceBy]⟩
  tokenStart_le hle := h'.tokenStart_le (h.tokenStart_le hle)

theorem Onward.line_eq (h : lexer.Onward after) : after.cursor.line = lexer.cursor.line := by
  obtain ⟨count, hcount⟩ := h.cursor
  rw [hcount, Cursor.line_advanceBy]

theorem Onward.position_le (h : lexer.Onward after) :
    lexer.cursor.position ≤ after.cursor.position := by
  obtain ⟨count, hcount⟩ := h.cursor
  rw [hcount]
  exact lexer.cursor.position_le_advanceBy count

/-- Passing characters leaves the beginning of the token where it is. -/
theorem onward_advanceBy (lexer : Lexer) (count : Nat) (context : Context) :
    lexer.Onward ⟨lexer.cursor.advanceBy count, context, lexer.tokenStart⟩ where
  cursor := ⟨count, rfl⟩
  tokenStart_le hle := hle.trans (lexer.cursor.position_le_advanceBy count)

theorem onward_accept (lexer : Lexer) (lexeme : Lexeme) : lexer.Onward (lexer.accept lexeme) :=
  lexer.onward_advanceBy lexeme.width lexeme.context

theorem onward_approach (lexer : Lexer) : lexer.Onward lexer.approach := by
  rw [approach]
  split
  · exact ⟨⟨0, rfl⟩, fun _ => Nat.le_refl _⟩
  · exact ⟨⟨(lexer.cursor.rest.takeWhile isBlank).length, rfl⟩, fun _ => Nat.le_refl _⟩

theorem onward_next (lexer : Lexer) : lexer.Onward lexer.next.2 := by
  refine lexer.onward_approach.trans ?_
  rw [next, read]
  split
  · exact .refl _
  · exact onward_accept ..

theorem onward_steps (lexer : Lexer) : lexer.Onward lexer.steps.2 := by
  induction lexer using steps.induct with
  | case1 lexer after hnext =>
    rw [steps_of_next_none hnext, ← congrArg Prod.snd hnext]
    exact lexer.onward_next
  | case2 lexer token after hnext ih =>
    rw [steps_of_next_some hnext]
    exact (congrArg Prod.snd hnext ▸ lexer.onward_next).trans ih

/-- Every call brings the lexer onward. -/
theorem onward_call (lexer : Lexer) (c : Call) : lexer.Onward (lexer.call c).2 := by
  have haccept? (lexeme? : Option Lexeme) : lexer.Onward (lexer.acceptCategory? lexeme?).2 := by
    cases lexeme? with
    | none => exact .refl lexer
    | some lexeme => exact lexer.onward_accept lexeme
  cases c with
  | next => exact lexer.onward_next
  | rest => exact lexer.onward_steps
  | number => exact haccept? _
  | operator => exact haccept? _
  | openLiteral =>
    rw [call, openLiteral]
    split
    · exact .refl lexer
    · exact lexer.onward_advanceBy ..
  | insideLiteral | word | comma | openBracket | closeBracket | decorator | comment =>
    exact lexer.onward_accept _
  | advanceBy count => exact lexer.onward_advanceBy count lexer.context
  | skipBlanks => exact lexer.onward_advanceBy _ lexer.context
  | line | startStatement | startLine | reset => exact ⟨⟨0, rfl⟩, id⟩

/-- Only calls for tokens answer tokens. -/
theorem answer_call (lexer : Lexer) (c : Call) :
    (∀ token?, (lexer.call c).1 = .token token? → c = .next) ∧
      ∀ tokens, (lexer.call c).1 = .tokens tokens → c = .rest := by
  have haccept? (lexeme? : Option Lexeme) :
      (lexer.acceptCategory? lexeme?).1 = .category (lexeme?.map Lexeme.category) := by
    cases lexeme? <;> rfl
  have hopen : lexer.openLiteral.1 = .flag (Literal.open? lexer.cursor.rest).isSome := by
    rw [openLiteral]
    cases Literal.open? lexer.cursor.rest <;> rfl
  cases c with
  | next => exact ⟨fun _ _ => rfl, by rintro _ ⟨⟩⟩
  | rest => exact ⟨by rintro _ ⟨⟩, fun _ _ => rfl⟩
  | number | operator =>
    rw [call, haccept?]
    constructor <;> rintro _ ⟨⟩
  | openLiteral =>
    rw [call, hopen]
    constructor <;> rintro _ ⟨⟩
  | _ => constructor <;> rintro _ ⟨⟩

end Lexer

/-! ## Never refused -/

/-- A token that is not empty and ends where the lexer stands. -/
structure Token.EndsAt (token : Token) (lexer : ByteLexer) : Prop where
  start_lt_stop : token.span.start < token.span.stop
  stop_eq : token.span.stop = lexer.cursor.position

namespace ByteLexer

variable {lexer after : Lexer} {token : Token} {line : Text}

/-- The lexer stands in a line between two of its characters, and the token that was asked for last
    begins behind it. -/
structure Stands (lexer : ByteLexer) (line : Text) : Prop where
  line_eq : lexer.cursor.line = line
  exists_passed : ∃ passed rest, line = passed ++ rest ∧
    lexer.cursor.position = Text.byteLength passed
  position_le : lexer.cursor.position ≤ Text.byteLength line
  tokenStart_le : lexer.tokenStart ≤ lexer.cursor.position

/-- A call is performed and brings the lexer no way back, and all tokens that it finds are not empty
    and end where they are found. -/
structure Safe (before : ByteLexer) (c : Lexer.Call) (answer : Lexer.Answer) (after : ByteLexer) :
    Prop where
  call?_eq : before.call? c = some (answer, after)
  position_le : before.cursor.position ≤ after.cursor.position
  token (token : Token) : answer = .token (some token) → token.EndsAt after
  tokens (tokens : List Token) : answer = .tokens tokens →
    ∃ steps, before.steps? = some (steps, after) ∧ tokens = steps.map Prod.fst ∧
      ∀ step ∈ steps, step.1.EndsAt step.2

/-- Calls one after the other, each of them safe. -/
inductive Safely (line : Text) :
    ByteLexer → List Lexer.Call → List (Lexer.Answer × ByteLexer) → Prop
  | nil {lexer : ByteLexer} : lexer.Stands line → Safely line lexer [] []
  | cons {before after : ByteLexer} {c : Lexer.Call} {calls : List Lexer.Call}
    {answer : Lexer.Answer} {answers : List (Lexer.Answer × ByteLexer)} :
    before.Stands line → Safe before c answer after → Safely line after calls answers →
      Safely line before (c :: calls) ((answer, after) :: answers)

theorem stands_ofLexer (hline : lexer.cursor.line = line)
    (hle : lexer.tokenStart ≤ lexer.cursor.position) : (ofLexer lexer).Stands line where
  line_eq := hline
  exists_passed := ⟨_, _, hline.symm, lexer.cursor.position_eq_byteLength⟩
  position_le := by
    rw [← hline, Cursor.byteLength_line]
    exact Nat.le_add_right ..
  tokenStart_le := hle

theorem endsAt_of_next (h : lexer.next = (some token, after)) : token.EndsAt (ofLexer after) := by
  obtain ⟨-, hlt, hposition⟩ := lexer.forward.token token after h
  exact ⟨hlt, hposition.symm⟩

theorem endsAt_of_steps (lexer : Lexer) :
    ∀ step ∈ lexer.steps.1, step.1.EndsAt (ofLexer step.2) := by
  induction lexer using Lexer.steps.induct with
  | case1 lexer after hnext =>
    rw [Lexer.steps_of_next_none hnext]
    rintro step ⟨⟩
  | case2 lexer token after hnext ih =>
    rw [Lexer.steps_of_next_some hnext]
    exact List.forall_mem_cons.2 ⟨endsAt_of_next hnext, ih⟩

theorem safe_call (lexer : Lexer) (c : Lexer.Call) :
    Safe (ofLexer lexer) c (lexer.call c).1 (ofLexer (lexer.call c).2) where
  call?_eq := call?_ofLexer lexer c
  position_le := (lexer.onward_call c).position_le
  token token h := by
    obtain rfl := (lexer.answer_call c).1 _ h
    exact endsAt_of_next (Prod.ext (Lexer.Answer.token.inj h) rfl)
  tokens tokens h := by
    obtain rfl := (lexer.answer_call c).2 _ h
    obtain rfl := Lexer.Answer.tokens.inj h
    refine ⟨_, steps?_ofLexer lexer, ?_, ?_⟩
    · rw [List.map_map]
      rfl
    · intro step hstep
      obtain ⟨step, hmem, rfl⟩ := List.mem_map.1 hstep
      exact endsAt_of_steps lexer step hmem

theorem exists_safely_ofLexer (lexer : Lexer) (calls : List Lexer.Call)
    (hline : lexer.cursor.line = line)
    (hle : lexer.tokenStart ≤ lexer.cursor.position) :
    ∃ answers, (ofLexer lexer).callAll? calls = some answers ∧
      Safely line (ofLexer lexer) calls answers := by
  induction calls generalizing lexer with
  | nil => exact ⟨[], rfl, .nil (stands_ofLexer hline hle)⟩
  | cons c calls ih =>
    have honward := lexer.onward_call c
    obtain ⟨answers, hanswers, hsafely⟩ :=
      ih _ (honward.line_eq.trans hline) (honward.tokenStart_le hle)
    refine ⟨_, ?_, .cons (stands_ofLexer hline hle) (safe_call lexer c) hsafely⟩
    rw [callAll?, call?_ofLexer, Option.bind_eq_bind, Option.bind_some]
    dsimp only
    rw [hanswers]
    rfl

/-- **Calls by hand are safe in any order.** Whatever the line, the context where it begins and the
    calls, all of them are performed; the lexer always stands between two characters of the line and
    never goes back; and the tokens found are not empty and end where the lexer stands. -/
theorem all_calls_safe (line : Text) (ctx : Context) (calls : List Lexer.Call) :
    ∃ answers, (ofLine line ctx).callAll? calls = some answers ∧
      Safely line (ofLine line ctx) calls answers :=
  exists_safely_ofLexer (.ofLine line ctx) calls rfl (Nat.le_refl 0)

end ByteLexer

end Highlighter
