import Highlighter.Proofs.Lexeme.Blanks
import Highlighter.Proofs.Lexer.Alike
import Highlighter.Proofs.Lexer.Grammar
import Highlighter.Proofs.Lexer.Lock

/-!
# Blanks around a line

Outside literals, blanks make no difference to a line, neither before it nor after it
(`tokenizeLine_blanks`).

Blanks before a line are passed before its first token, and the line has begun before they are: so
the same text remains in the same context as without them, only further on
(`sameAhead_approach_ofLine`).

Blanks after a line remain after each of its tokens (`Trails`), and are passed at its end. Only a
comment would go on over them, or a literal; but there is none, if the last token is no comment and
the literal is closed, since both take all that is left of a line.
-/

namespace Highlighter

variable {ctx : Context} {blanks line : Text} {token : Token}

namespace Lexer

variable {a b lexer after : Lexer}

/-! ## Before a line -/

/-- Outside literals, a line with nothing in it is read like any other. -/
theorem tokenizeLine_eq_rest (hl : ¬ctx.inLiteral) (line : Text) :
    tokenizeLine ctx line = ((ofLine line ctx).rest.1, (ofLine line ctx).rest.2.context) := by
  by_cases hne : line = []
  · subst hne
    have hl' : ¬(ofLine [] ctx).context.inLiteral := hl
    have hrest : (ofLine [] ctx).cursor.rest = [] := rfl
    have hstart : ctx.startLine = ctx.startStatement := if_neg hl
    rw [rest_of_next_none (next_of_rest_eq_nil hrest), approach_of_not_inLiteral hl', tokenizeLine,
      ← hstart]
    rfl
  · exact tokenizeLine_of_ne_nil hne

/-- Blanks before a line are passed before its first token, after the line has begun. -/
theorem sameAhead_approach_ofLine (h : ∀ c ∈ blanks, isBlank c) (hl : ¬ctx.inLiteral)
    (line : Text) :
    SameAhead (Text.byteLength blanks) 0 (ofLine (blanks ++ line) ctx).approach
      (ofLine line ctx).approach := by
  have hl' (text : Text) : ¬(ofLine text ctx).context.inLiteral := hl
  rw [approach_of_not_inLiteral (hl' _), approach_of_not_inLiteral (hl' _)]
  refine ⟨?_, rfl, ?_⟩
  · rw [Cursor.rest_skipBlanks, Cursor.rest_skipBlanks]
    exact List.dropWhile_append_of_pos h
  · rw [Cursor.position_skipBlanks, Cursor.position_skipBlanks]
    simp only [ofLine, Cursor.ofLine, List.takeWhile_append_of_pos h, Text.byteLength_append]
    omega

/-- Blanks before a line move its tokens, and do nothing else. -/
theorem tokenizeLine_blanks_append (h : ∀ c ∈ blanks, isBlank c) (hl : ¬ctx.inLiteral)
    (line : Text) :
    tokenizeLine ctx (blanks ++ line) =
      ((tokenizeLine ctx line).1.map (Token.shift (Text.byteLength blanks)),
        (tokenizeLine ctx line).2) := by
  obtain ⟨htokens, hcontext⟩ := (sameAhead_approach_ofLine h hl line).rest_eq
  have hzero : Token.shift 0 = id := rfl
  rw [hzero, List.map_id] at htokens
  rw [tokenizeLine_eq_rest hl, tokenizeLine_eq_rest hl, htokens, hcontext]

/-! ## After a line -/

/-- A lexer stands where another one does, with more text after the line. -/
structure Trails (tail : Text) (a b : Lexer) : Prop where
  rest : b.cursor.rest = a.cursor.rest ++ tail
  position : b.cursor.position = a.cursor.position
  context : b.context = a.context

/-- Where nothing is left of a line, nothing is read, and the literal that is open remains so. -/
theorem rest_of_rest_eq_nil (h : lexer.cursor.rest = []) :
    lexer.rest.1 = [] ∧ lexer.rest.2.context.literal = lexer.context.literal := by
  rw [rest_of_next_none (next_of_rest_eq_nil h)]
  exact ⟨rfl, literal_approach lexer⟩

/-- What a lexer recognizes before blanks is what it recognizes without them, unless it is a comment
    or a literal that goes on over them. -/
theorem lexeme?_append_blanks {lexeme : Lexeme} (h : ∀ c ∈ blanks, isBlank c)
    (ht : Trails blanks a b) (hlexeme : a.lexeme? = some lexeme)
    (hc : lexeme.category ≠ .comment) (hl : ¬lexeme.context.inLiteral) :
    b.lexeme? = some lexeme ∧ lexeme.width ≤ a.cursor.rest.length := by
  obtain ⟨c, rest, hrest, ⟨hin, rfl⟩ | ⟨hout, rfl⟩⟩ := exists_of_lexeme? hlexeme
  · refine ⟨?_, hrest ▸ Lexeme.width_insideLiteral_le ..⟩
    rw [lexeme?, ht.rest, hrest, ht.context]
    exact (if_pos hin).trans (congrArg some (Lexeme.insideLiteral_append_of_closed hl blanks))
  · refine ⟨?_, hrest ▸ (Lexeme.recognized_next ..).width_le⟩
    rw [lexeme?, ht.rest, hrest, ht.context]
    exact (if_neg hout).trans (congrArg some (Lexeme.next_append_blanks h hc hl))

namespace Trails

theorem isAtStart_eq (ht : Trails blanks a b) : b.cursor.isAtStart = a.cursor.isAtStart := by
  rw [Cursor.isAtStart, Cursor.isAtStart, ht.position]

/-- As long as something is left of the line, the same blanks are passed. -/
theorem approach (ht : Trails blanks a b) (hne : a.approach.cursor.rest ≠ []) :
    Trails blanks a.approach b.approach := by
  by_cases hl : a.context.inLiteral
  · rw [Lexer.approach, Lexer.approach, ht.context, if_pos hl, if_pos hl]
    exact ⟨ht.rest, ht.position, rfl⟩
  · rw [rest_approach hl] at hne
    have hlength : (a.cursor.rest.takeWhile isBlank).length ≠ a.cursor.rest.length := by
      intro hlength
      have hself := (List.takeWhile_prefix isBlank).eq_of_length hlength
      exact hne (List.dropWhile_eq_nil_iff.2 (List.takeWhile_eq_self_iff.1 hself))
    have hl' : ¬b.context.inLiteral := ht.context ▸ hl
    rw [approach_of_not_inLiteral hl, approach_of_not_inLiteral hl']
    refine ⟨?_, ?_, ?_⟩
    · rw [Cursor.rest_skipBlanks, Cursor.rest_skipBlanks, ht.rest, List.dropWhile_append,
        if_neg (by simpa using hne)]
    · rw [Cursor.position_skipBlanks, Cursor.position_skipBlanks, ht.rest, ht.position,
        List.takeWhile_append, if_neg hlength]
    · simp only [ht.isAtStart_eq, ht.context]

/-- At the end of the line, outside literals, the blanks are passed, too. -/
theorem next_none (h : ∀ c ∈ blanks, isBlank c) (ht : Trails blanks a b)
    (hn : a.next = (none, after)) (hl : ¬a.context.inLiteral) :
    ∃ after', b.next = (none, after') ∧ after'.context = after.context := by
  obtain ⟨rfl, hrest⟩ := eq_approach_of_next hn
  have hl' : ¬b.context.inLiteral := ht.context ▸ hl
  rw [rest_approach_eq_nil_iff, if_neg hl] at hrest
  refine ⟨b.approach, next_of_rest_approach_eq_nil ?_, ?_⟩
  · rw [rest_approach_eq_nil_iff, if_neg hl', ht.rest]
    exact fun c hc => (List.mem_append.1 hc).elim (hrest c) (h c)
  · rw [approach_of_not_inLiteral hl, approach_of_not_inLiteral hl']
    simp only [ht.isAtStart_eq, ht.context]

/-- A token that is no comment, and after which no literal is open, is read in either line. -/
theorem next_some (h : ∀ c ∈ blanks, isBlank c) (ht : Trails blanks a b)
    (hn : a.next = (some token, after)) (hc : token.category ≠ .comment)
    (hl : ¬after.context.inLiteral) :
    ∃ after', b.next = (some token, after') ∧ Trails blanks after after' := by
  obtain ⟨lexeme, he⟩ := exists_emits_of_next hn
  rw [he.category] at hc
  rw [he.context] at hl
  have happroach := ht.approach (width_lexeme?_pos he.lexeme?).2
  obtain ⟨hlexeme, hwidth⟩ := lexeme?_append_blanks h happroach he.lexeme? hc hl
  obtain ⟨token', after', hn', he'⟩ := exists_next_of_lexeme? hlexeme
  have hstart : token.span.start = token'.span.start := by
    rw [he.start, he'.start, happroach.position]
  have hstop : token.span.stop = token'.span.stop := by
    rw [he.stop, he'.stop, happroach.position, happroach.rest,
      List.take_append_of_le_length hwidth]
  obtain rfl : token = token' :=
    Token.eq_of_bounds (he.category.trans he'.category.symm) hstart hstop
  refine ⟨after', hn', ?_, ?_, ?_⟩
  · rw [he.rest, he'.rest, happroach.rest, List.drop_append_of_le_length hwidth]
  · rw [he.position, he'.position]
  · rw [he.context, he'.context]

/-- Where all of the line is read without a comment, and no literal is open at its end, the same
    is read with blanks after it. -/
theorem rest_eq (h : ∀ c ∈ blanks, isBlank c) (ht : Trails blanks a b)
    (hc : ∀ last ∈ a.rest.1.getLast?, last.category ≠ .comment)
    (hl : ¬a.rest.2.context.inLiteral) :
    b.rest.1 = a.rest.1 ∧ b.rest.2.context = a.rest.2.context := by
  induction a using Lexer.steps.induct generalizing b with
  | case1 a after hn =>
    rw [rest_of_next_none hn] at hl ⊢
    obtain ⟨rfl, -⟩ := eq_approach_of_next hn
    rw [Context.inLiteral, literal_approach] at hl
    obtain ⟨after', hn', hcontext⟩ := ht.next_none h hn hl
    rw [rest_of_next_none hn']
    exact ⟨rfl, hcontext⟩
  | case2 a token after hn ih =>
    rw [rest_of_next_some hn] at hc hl ⊢
    dsimp only at hc hl ⊢
    -- a comment would be the last token, and an open literal would still be open at the end
    have hcomment : token.category ≠ .comment := fun hcomment => by
      rw [(rest_of_rest_eq_nil (rest_eq_nil_of_comment hn hcomment)).1] at hc
      exact hc token rfl hcomment
    have hclosed : ¬after.context.inLiteral := fun hopen => by
      by_cases hrest : after.cursor.rest = []
      · rw [Context.inLiteral, (rest_of_rest_eq_nil hrest).2] at hl
        exact hl hopen
      · exact not_inLiteral_next hn hrest hopen
    obtain ⟨after', hn', hafter⟩ := ht.next_some h hn hcomment hclosed
    have hlast : ∀ last ∈ after.rest.1.getLast?, last.category ≠ .comment := fun last hmem =>
      hc last (by rw [List.getLast?_cons, Option.mem_def.1 hmem]; rfl)
    obtain ⟨htokens, hcontext⟩ := ih hafter hlast hl
    rw [rest_of_next_some hn', htokens]
    exact ⟨rfl, hcontext⟩

end Trails

/-! ## Around a line -/

/-- Where no literal is open, blanks before a line move its tokens by their size, and do nothing
    else. Where none is open at its end, and its last token is no comment, blanks after a line do
    nothing. -/
theorem tokenizeLine_blanks (h : ∀ c ∈ blanks, isBlank c) :
    (∀ ctx line, ¬ctx.inLiteral →
      tokenizeLine ctx (blanks ++ line) =
        ((tokenizeLine ctx line).1.map (Token.shift (Text.byteLength blanks)),
          (tokenizeLine ctx line).2)) ∧
    ∀ ctx line, ¬(tokenizeLine ctx line).2.inLiteral →
      (∀ last ∈ (tokenizeLine ctx line).1.getLast?, last.category ≠ .comment) →
      tokenizeLine ctx (line ++ blanks) = tokenizeLine ctx line := by
  refine ⟨fun ctx line hl => tokenizeLine_blanks_append h hl line, fun ctx line hl hc => ?_⟩
  by_cases hne : line = []
  · -- nothing but the blanks, and they come before nothing
    subst hne
    have hl' : ¬ctx.inLiteral := hl
    have hnil := tokenizeLine_blanks_append h hl' []
    rwa [List.append_nil] at hnil
  · have hne' : line ++ blanks ≠ [] := by simp [hne]
    rw [tokenizeLine_of_ne_nil hne] at hl hc ⊢
    have ht : Trails blanks (ofLine line ctx) (ofLine (line ++ blanks) ctx) := ⟨rfl, rfl, rfl⟩
    obtain ⟨htokens, hcontext⟩ := ht.rest_eq h hc hl
    rw [tokenizeLine_of_ne_nil hne', htokens, hcontext]

/-- A tab and a carriage return before a sign, and after a word that the line begins within a
    literal. -/
theorem tokenizeLine_blanks_tab :
    let blanks : Text := ['\t', '\r']
    let opened : Context := { literal := some ⟨.double, 1⟩, locked := true }
    tokenizeLine {} (blanks ++ "-1 & x".toList) =
        ((tokenizeLine {} "-1 & x".toList).1.map (Token.shift 2),
          (tokenizeLine {} "-1 & x".toList).2) ∧
      tokenizeLine opened ("a\"\\ = f".toList ++ blanks) =
        tokenizeLine opened "a\"\\ = f".toList := by
  intro blanks opened
  have h : ∀ c ∈ blanks, isBlank c := List.all_eq_true.1 (by decide)
  obtain ⟨hbefore, hafter⟩ := tokenizeLine_blanks h
  exact ⟨hbefore {} _ (by decide), hafter opened _ (by decide +kernel) (by decide +kernel)⟩

end Lexer

end Highlighter
