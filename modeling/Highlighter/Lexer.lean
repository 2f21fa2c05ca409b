import Highlighter.Cursor
import Highlighter.Lexeme
import Highlighter.Token

/-!
# Lexing a line

A *lexer* stands at a place in a line, with the context there. `Lexer.next` reads the
next token: what the line holds of an open literal, or else the lexeme after the
blanks. `Lexer.steps` reads all tokens up to the end of the line and keeps the lexer
after each; `Lexer.rest` keeps the tokens only.

Every lexeme takes characters (`Lexeme.width_next_pos`,
`Lexeme.width_insideLiteral_pos`), so a token brings the lexer forward
(`length_rest_next_lt`), and reading comes to an end.
-/

namespace Highlighter

/-- A place in a line, with the context there. -/
structure Lexer where
  cursor : Cursor
  context : Context
  /-- Where the last token that was asked for begins. -/
  tokenStart : Nat

namespace Lexer

/-- The lexer at the beginning of a line. -/
def ofLine (line : Text) (ctx : Context) : Lexer :=
  ⟨.ofLine line, ctx, 0⟩

/-- The lexer after a lexeme. -/
def accept (lexer : Lexer) (lexeme : Lexeme) : Lexer :=
  { lexer with cursor := lexer.cursor.advanceBy lexeme.width, context := lexeme.context }

/-- The token of a lexeme, with the lexer after it. -/
def emit (lexer : Lexer) (lexeme : Lexeme) : Token × Lexer :=
  let after := lexer.accept lexeme
  (⟨lexeme.category, lexer.cursor.position, after.cursor.position,
    Cursor.position_le_advanceBy ..⟩, after)

/-- The lexer where the next token begins: a literal goes on right here, and
    otherwise blanks are passed; at the beginning of a line a statement begins. -/
def approach (lexer : Lexer) : Lexer :=
  if lexer.context.inLiteral then { lexer with tokenStart := lexer.cursor.position }
  else
    let cursor := lexer.cursor.skipBlanks
    { cursor
      context := if lexer.cursor.isAtStart then lexer.context.startLine else lexer.context
      tokenStart := cursor.position }

/-- The lexeme where a token begins, if anything is left of the line. -/
def lexeme? (lexer : Lexer) : Option Lexeme :=
  match lexer.cursor.rest with
  | [] => none
  | c :: rest =>
    if lexer.context.inLiteral then some (Lexeme.insideLiteral lexer.context (c :: rest))
    else some (Lexeme.next lexer.context c rest)

/-- Reads the token that begins where the lexer stands. -/
def read (lexer : Lexer) : Option Token × Lexer :=
  match lexer.lexeme? with
  | none => (none, lexer)
  | some lexeme =>
    let emitted := lexer.emit lexeme
    (some emitted.1, emitted.2)

/-- Reads the next token. -/
def next (lexer : Lexer) : Option Token × Lexer :=
  lexer.approach.read

/-! ### Reading comes to an end -/

theorem length_rest_approach_le (lexer : Lexer) :
    lexer.approach.cursor.rest.length ≤ lexer.cursor.rest.length := by
  unfold approach
  split
  · exact Nat.le_refl _
  · simp [Cursor.skipBlanks, Cursor.takeWhile]

theorem width_lexeme?_pos {lexer : Lexer} {lexeme : Lexeme} (h : lexer.lexeme? = some lexeme) :
    0 < lexeme.width ∧ lexer.cursor.rest ≠ [] := by
  unfold lexeme? at h
  split at h
  · simp at h
  next c rest hr =>
    refine ⟨?_, by simp [hr]⟩
    split at h
    · obtain rfl := Option.some.inj h
      exact Lexeme.width_insideLiteral_pos ‹_› (by simp)
    · obtain rfl := Option.some.inj h
      exact Lexeme.width_next_pos ..

/-- A token brings the lexer forward. -/
theorem length_rest_next_lt {lexer after : Lexer} {token : Token}
    (h : lexer.next = (some token, after)) :
    after.cursor.rest.length < lexer.cursor.rest.length := by
  have le := length_rest_approach_le lexer
  unfold next read at h
  split at h
  · simp at h
  next lexeme hl =>
    obtain ⟨hw, hr⟩ := width_lexeme?_pos hl
    have := List.length_pos_iff.2 hr
    obtain ⟨-, rfl⟩ := Prod.mk.inj h
    simp only [emit, accept, Cursor.rest_advanceBy, List.length_drop]
    omega

/-- The tokens up to the end of the line, each with the lexer after it, and the lexer
    at the end. -/
def steps (lexer : Lexer) : List (Token × Lexer) × Lexer :=
  match _h : lexer.next with
  | (none, after) => ([], after)
  | (some token, after) =>
    let following := after.steps
    ((token, after) :: following.1, following.2)
termination_by lexer.cursor.rest.length
decreasing_by exact length_rest_next_lt ‹_›

/-- Reads all tokens up to the end of the line. -/
def rest (lexer : Lexer) : List Token × Lexer :=
  (lexer.steps.1.map Prod.fst, lexer.steps.2)

end Lexer

end Highlighter
