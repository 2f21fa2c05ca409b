import Highlighter.Proofs.Lexer.Cover
import Highlighter.Proofs.Reading

/-!
# What is carried from line to line

Of a context, only the open literal and the locks of the brackets have a bearing on the lines
that follow, and, within a literal, whether the statement has its keyword. Contexts that agree
in this (`Context.CarriesSame`) give the same tokens on every line, and agree again after it
(`tokensOfLines_eq`): outside literals a line begins a statement, which puts back all flags, and
within a literal nothing but its end is looked for, which puts back all flags but one.

* `tokenizeLine_of_not_inLiteral`: outside literals, such contexts are the same to a line;
* `tokenizeLine_of_unclosed`: a line on which the open literal goes on is one token, and leaves
  the context as it was;
* `tokenizeLine_of_closed`: a line on which it is closed goes on after its end.
-/

namespace Highlighter

namespace Context

variable {c c' : Context}

/-- Two contexts carry the same to the lines that follow. -/
structure CarriesSame (c c' : Context) : Prop where
  literal : c.literal = c'.literal
  locks : c.locks = c'.locks
  /-- Only a line that begins within a literal does not begin a statement. -/
  locked : c.inLiteral → c.locked = c'.locked

theorem CarriesSame.refl (c : Context) : c.CarriesSame c :=
  ⟨rfl, rfl, fun _ => rfl⟩

theorem CarriesSame.inLiteral_eq (h : c.CarriesSame c') : c.inLiteral = c'.inLiteral := by
  rw [inLiteral, inLiteral, h.literal]

/-- A statement begins with the same context. -/
theorem CarriesSame.startStatement_eq (h : c.CarriesSame c') :
    c.startStatement = c'.startStatement := by
  simp only [startStatement, openExpression, h.literal, h.locks]

/-- At the end of a literal, contexts that carry the same are the same. -/
theorem CarriesSame.leaveLiteral_eq (h : c.CarriesSame c') (hl : c.inLiteral) :
    c.leaveLiteral = c'.leaveLiteral := by
  simp only [leaveLiteral, endExpression, h.locks, h.locked hl]

end Context

/-- The tokens of lines that are read in order. -/
def tokensOfLines (ctx : Context) : List Text → List (List Token)
  | [] => []
  | text :: texts => (tokenizeLine ctx text).1 :: tokensOfLines (tokenizeLine ctx text).2 texts

theorem tokensOfLines_append (ctx : Context) (texts texts' : List Text) :
    tokensOfLines ctx (texts ++ texts') =
      tokensOfLines ctx texts ++ tokensOfLines (contextAfter ctx texts) texts' := by
  induction texts generalizing ctx with
  | nil => rfl
  | cons text texts ih => rw [List.cons_append, tokensOfLines, ih]; rfl

namespace Lexer

variable {ctx c c' : Context} {line : Text} {l : Literal}

/-! ## Lines that begin within a literal -/

/-- Lexers that read the same token read the same tokens. -/
theorem rest_congr {lexer lexer' : Lexer} (h : lexer.next = lexer'.next) :
    lexer.rest = lexer'.rest := by
  rcases hn : lexer.next with ⟨_ | token, after⟩
  · exact (rest_of_next_none hn).trans (rest_of_next_none (h.symm.trans hn)).symm
  · exact (rest_of_next_some hn).trans (rest_of_next_some (h.symm.trans hn)).symm

/-- A line that has been read up to its end, with a literal open there, has no more tokens. -/
theorem Reads.tokenizeLine_eq {read : List Token} {lexer : Lexer}
    (h : Reads (.ofLine line ctx) read lexer) (hne : line ≠ []) (hrest : lexer.cursor.rest = [])
    (hl : lexer.context.literal = some l) : tokenizeLine ctx line = (read, lexer.context) := by
  have happroach := approach_of_literal hl
  have hend : lexer.next = (none, lexer.approach) :=
    next_of_rest_approach_eq_nil (by rw [happroach, hrest])
  rw [tokenizeLine_of_ne_nil hne, h.rest_eq, rest_of_next_none hend, happroach, List.append_nil]

/-- A line on which the open literal goes on is one token, and leaves the context as it is. -/
theorem tokenizeLine_of_unclosed (hl : ctx.literal = some l) (hne : line ≠ [])
    (hw : l.widthWithin? line = none) :
    tokenizeLine ctx line = ([⟨.string, 0, Text.byteLength line, Nat.zero_le _⟩], ctx) := by
  have hinside : Lexeme.insideLiteral ctx line = ⟨.string, line.length, ctx⟩ := by
    simp [Lexeme.insideLiteral, hl, hw]
  have hnext := next_ofLine_of_literal hl hne
  rw [hinside] at hnext
  have hrest : ((ofLine line ctx).cursor.advanceBy line.length).rest = [] :=
    (Cursor.rest_advanceBy ..).trans List.drop_length
  have hstop :
      ((ofLine line ctx).cursor.advanceBy line.length).position = Text.byteLength line := by
    rw [Cursor.position_advanceBy]
    simp [ofLine, Cursor.ofLine]
  rw [(Reads.next .start hnext).tokenizeLine_eq hne hrest hl]
  simp only [emit, accept, hstop]
  rfl

/-- A line on which the open literal is closed goes on after its end. -/
theorem tokenizeLine_of_closed {width : Nat} (hl : ctx.literal = some l)
    (hw : l.widthWithin? line = some width) :
    let after : Lexer := ⟨(Cursor.ofLine line).advanceBy width, ctx.leaveLiteral, 0⟩
    tokenizeLine ctx line =
      (⟨.string, 0, after.cursor.position, Nat.zero_le _⟩ :: after.rest.1,
        after.rest.2.context) := by
  have hne : line ≠ [] := by
    rintro rfl
    cases hw
  have hinside : Lexeme.insideLiteral ctx line = ⟨.string, width, ctx.leaveLiteral⟩ := by
    simp [Lexeme.insideLiteral, hl, hw]
  have hnext := next_ofLine_of_literal hl hne
  rw [hinside] at hnext
  rw [tokenizeLine_of_ne_nil hne, rest_of_next_some hnext]
  rfl

/-! ## Any lines -/

/-- Outside literals, contexts that carry the same are the same to a line. -/
theorem tokenizeLine_of_not_inLiteral (h : c.CarriesSame c') (hl : ¬c.inLiteral) (line : Text) :
    tokenizeLine c line = tokenizeLine c' line := by
  by_cases hne : line = []
  · rw [hne, tokenizeLine, tokenizeLine, h.startStatement_eq]
  · have happroach : (ofLine line c).approach = (ofLine line c').approach := by
      have hl' : ¬c'.inLiteral := h.inLiteral_eq ▸ hl
      simp only [approach, ofLine, Context.startLine, hl, hl', h.startStatement_eq]
      rfl
    have hnext : (ofLine line c).next = (ofLine line c').next := congrArg Lexer.read happroach
    rw [tokenizeLine_of_ne_nil hne, tokenizeLine_of_ne_nil hne, rest_congr hnext]

/-- Contexts that carry the same give the same tokens on a line, and carry the same after it. -/
theorem tokenizeLine_carriesSame (h : c.CarriesSame c') (line : Text) :
    (tokenizeLine c line).1 = (tokenizeLine c' line).1 ∧
      (tokenizeLine c line).2.CarriesSame (tokenizeLine c' line).2 := by
  by_cases hin : c.inLiteral
  · obtain ⟨l, hl⟩ := Option.isSome_iff_exists.1 hin
    have hl' : c'.literal = some l := h.literal ▸ hl
    by_cases hne : line = []
    · rw [hne, tokenizeLine, tokenizeLine, h.startStatement_eq]
      exact ⟨rfl, .refl _⟩
    · rcases hw : l.widthWithin? line with _ | width
      · rw [tokenizeLine_of_unclosed hl hne hw, tokenizeLine_of_unclosed hl' hne hw]
        exact ⟨rfl, h⟩
      · rw [tokenizeLine_of_closed hl hw, tokenizeLine_of_closed hl' hw, h.leaveLiteral_eq hin]
        exact ⟨rfl, .refl _⟩
  · rw [tokenizeLine_of_not_inLiteral h hin]
    exact ⟨rfl, .refl _⟩

/-- Contexts that carry the same give the same tokens on all lines that follow, and carry the
    same after them. -/
theorem tokensOfLines_eq (h : c.CarriesSame c') (texts : List Text) :
    tokensOfLines c texts = tokensOfLines c' texts ∧
      (contextAfter c texts).CarriesSame (contextAfter c' texts) := by
  induction texts generalizing c c' with
  | nil => exact ⟨rfl, h⟩
  | cons text texts ih =>
    obtain ⟨htokens, hafter⟩ := tokenizeLine_carriesSame h text
    obtain ⟨hrest, hfinal⟩ := ih hafter
    exact ⟨by rw [tokensOfLines, tokensOfLines, htokens, hrest], hfinal⟩

end Lexer

end Highlighter
