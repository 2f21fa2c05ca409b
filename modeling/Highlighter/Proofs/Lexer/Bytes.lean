import Highlighter.Lexer.Bytes
import Highlighter.Proofs.Cursor.Bytes
import Highlighter.Proofs.Lexer.Cover
import Highlighter.Proofs.Numeral.Bytes

/-!
# Lexing in bytes and in characters

A lexer that stands in its line by a number of bytes recognizes what one in characters does. Where
it stands for such a lexer (`ByteLexer.ofLexer`), none of its recognizers is refused, whatever the
text and the context: each passes the lexeme of its kind, or nothing where there is none
(`ByteLexer.found`).

* Digits and escape marks are single bytes, so counts of them are places between characters
  (`number?_ofLexer`, `openLiteral?_ofLexer`).
* Within a literal, texts and single characters are passed until the closing sequence is found or
  nothing is left, which is what the width of the literal says (`insideLiteral?_ofLexer`).

So a call by hand does to bytes what it does to characters (`call?_ofLexer`).
-/

namespace Highlighter

/-! ## Walking through a literal -/

namespace Literal

variable (l : Literal)

/-- Characters that are taken along are passed first. -/
theorem widthAfter?_eq_map (taken : Nat) (text : Text) :
    l.widthAfter? taken text = (l.widthWithin? (text.drop taken)).map (· + taken) := by
  induction taken generalizing text with
  | zero =>
    rw [List.drop_zero, widthWithin?]
    exact Option.map_id'.symm
  | succ taken ih =>
    cases text with
    | nil => rfl
    | cons c rest =>
      rw [widthAfter?, ih, Option.map_map, List.drop_succ_cons]
      rfl

/-- Where a literal is not closed, one character is passed, after the escape if there is one. -/
theorem widthWithin?_of_not_closing {c : Char} {rest : Text}
    (h : ¬l.closing.isPrefixOf (c :: rest)) :
    l.widthWithin? (c :: rest) =
      (l.widthWithin? ((c :: rest).drop (l.takenAlong (c :: rest) + 1))).map
        (· + (l.takenAlong (c :: rest) + 1)) := by
  rw [widthWithin?, widthAfter?, if_neg h, widthAfter?_eq_map, Option.map_map, List.drop_succ_cons]
  rfl

end Literal

namespace Lexer

variable {lexer : Lexer} {l : Literal}

theorem accept_accept (lexer : Lexer) (first second : Lexeme) :
    (lexer.accept first).accept second =
      lexer.accept { second with width := first.width + second.width } := by
  simp only [accept, Cursor.advanceBy_advanceBy]

/-- Reading on in a literal from where it is not closed reads the same as reading it there. -/
theorem accept_insideLiteral_advanceBy {c : Char} {rest : Text}
    (hl : lexer.context.literal = some l) (hr : lexer.cursor.rest = c :: rest)
    (hclosing : ¬l.closing.isPrefixOf (c :: rest)) :
    let on := { lexer with cursor := lexer.cursor.advanceBy (l.takenAlong (c :: rest) + 1) }
    on.accept (Lexeme.insideLiteral on.context on.cursor.rest) =
      lexer.accept (Lexeme.insideLiteral lexer.context lexer.cursor.rest) := by
  intro on
  have hrest : on.cursor.rest = (c :: rest).drop (l.takenAlong (c :: rest) + 1) := by
    rw [Cursor.rest_advanceBy, hr]
  have hend : on.cursor.advanceBy ((c :: rest).drop (l.takenAlong (c :: rest) + 1)).length =
      lexer.cursor.advanceBy (c :: rest).length := by
    rw [← hrest, ← hr]
    exact lexer.cursor.skipToEnd_advanceBy _
  rw [hrest, hr, Lexeme.insideLiteral, Lexeme.insideLiteral, hl]
  dsimp only
  rw [l.widthWithin?_of_not_closing hclosing]
  cases l.widthWithin? ((c :: rest).drop (l.takenAlong (c :: rest) + 1)) with
  | none =>
    dsimp only [Option.map_none]
    rw [accept, accept, hend]
  | some width =>
    dsimp only [Option.map_some]
    rw [accept, accept, Cursor.advanceBy_advanceBy, Nat.add_comm]

end Lexer

namespace ByteLexer

/-- A lexer in characters, by the number of bytes before it. -/
def ofLexer (lexer : Lexer) : ByteLexer :=
  ⟨.ofCursor lexer.cursor, lexer.context, lexer.tokenStart⟩

/-- The category of a lexeme, with the lexer after it. -/
def passed (lexer : Lexer) (lexeme : Lexeme) : Category × ByteLexer :=
  (lexeme.category, ofLexer (lexer.accept lexeme))

/-- The category of a lexeme with the lexer after it, or the lexer as it was if there is none. -/
def found (lexer : Lexer) : Option Lexeme → Option Category × ByteLexer
  | some lexeme => (some lexeme.category, ofLexer (lexer.accept lexeme))
  | none => (none, ofLexer lexer)

@[simp] theorem cursor_ofLexer (lexer : Lexer) : (ofLexer lexer).cursor = .ofCursor lexer.cursor :=
  rfl

@[simp] theorem context_ofLexer (lexer : Lexer) : (ofLexer lexer).context = lexer.context := rfl

variable (lexer : Lexer) (category : Category) (context : Context)

/-! ## Numbers, marks and words -/

theorem single?_ofLexer :
    (ofLexer lexer).single? category context =
      some (passed lexer ⟨category, 1, context⟩) := by
  rw [single?, cursor_ofLexer, ByteCursor.advance?_ofCursor]
  rfl

theorem number?_ofLexer :
    (ofLexer lexer).number? =
      some (found lexer (Lexeme.number? lexer.context lexer.cursor.rest)) := by
  simp only [number?, cursor_ofLexer, context_ofLexer, ByteCursor.rest?_ofCursor,
    Numeral.bytesWidth?_eq, Option.bind_eq_bind, Option.bind_some, Lexeme.number?]
  cases Numeral.width? lexer.context.expressionStart lexer.cursor.rest with
  | none => rfl
  | some width =>
    dsimp only
    rw [ByteCursor.advanceBy?_ofCursor]
    rfl

theorem comment_ofLexer :
    (ofLexer lexer).comment =
      ofLexer (lexer.accept (Lexeme.comment lexer.context lexer.cursor.rest)) := by
  rw [comment, cursor_ofLexer, ByteCursor.skipToEnd_ofCursor]
  rfl

theorem comma?_ofLexer :
    (ofLexer lexer).comma? = some (passed lexer (Lexeme.comma lexer.context)) :=
  single?_ofLexer ..

theorem openBracket?_ofLexer :
    (ofLexer lexer).openBracket? = some (passed lexer (Lexeme.openBracket lexer.context)) :=
  single?_ofLexer ..

theorem closeBracket?_ofLexer :
    (ofLexer lexer).closeBracket? = some (passed lexer (Lexeme.closeBracket lexer.context)) :=
  single?_ofLexer ..

theorem decorator?_ofLexer :
    (ofLexer lexer).decorator? =
      some (passed lexer (Lexeme.decorator lexer.context lexer.cursor.rest)) := by
  simp only [decorator?, cursor_ofLexer, ByteCursor.advance?_ofCursor,
    ByteCursor.takeWhile?_ofCursor, Option.bind_eq_bind, Option.bind_some, Cursor.takeWhile,
    Cursor.advance, Cursor.advanceBy_advanceBy, Cursor.rest_advanceBy]
  rfl

theorem reference?_ofLexer {rest : Text} (hr : lexer.cursor.rest = referenceMark :: rest) :
    (ofLexer lexer).reference? =
      some (passed lexer ⟨.operator, 1,
        if rest.head?.any isWordStart then lexer.context.enterReference
        else lexer.context.openExpression⟩) := by
  have hafter : lexer.cursor.advance.rest = rest := by
    rw [Cursor.advance, Cursor.rest_advanceBy, hr]
    rfl
  -- the mark itself starts no word
  have hstart : (!rest.isEmpty && (rest[0]?).getD '\x00' != referenceMark
      && isWordStart ((rest[0]?).getD '\x00')) = rest.head?.any isWordStart := by
    cases rest with
    | nil => rfl
    | cons c rest =>
      cases hc : isWordStart c with
      | true => simp [hc, ne_of_isWordStart hc (d := referenceMark) rfl]
      | false => simp [hc]
  simp only [reference?, cursor_ofLexer, ByteCursor.advance?_ofCursor, ByteCursor.peek?_ofCursor,
    ByteCursor.isAtEnd_ofCursor, Option.bind_eq_bind, Option.bind_some, Cursor.isAtEnd,
    Cursor.peek, hafter, hstart]
  rfl

theorem operator?_ofLexer :
    (ofLexer lexer).operator? =
      some (found lexer (Lexeme.operator? lexer.context lexer.cursor.rest)) := by
  have hellipsis := ByteCursor.matchAny?_ofCursor lexer.cursor [Lexeme.ellipsis] 3 (by decide)
  have hpairs := ByteCursor.matchAny?_ofCursor lexer.cursor Lexeme.pairs 2 (by decide)
  rw [List.any_cons, List.any_nil, Bool.or_false] at hellipsis
  rw [operator?, cursor_ofLexer, hellipsis, Lexeme.operator?.eq_def]
  by_cases he : Lexeme.ellipsis.isPrefixOf lexer.cursor.rest
  · rw [if_pos he, if_pos he]
    rfl
  rw [if_neg he, if_neg he]
  simp only [Option.bind_eq_bind, Option.bind_some, hpairs]
  by_cases hp : Lexeme.pairs.any (·.isPrefixOf lexer.cursor.rest)
  · rw [if_pos hp, if_pos hp]
    rfl
  rw [if_neg hp, if_neg hp]
  simp only [Option.bind_some, ByteCursor.peek?_ofCursor, Cursor.peek]
  cases hr : lexer.cursor.rest with
  | nil => rfl
  | cons c rest =>
    dsimp only [List.getElem?_cons_zero, Option.getD_some]
    have hsingle (category : Category) (context : Context) :
        ((ofLexer lexer).single? category context).bind
            (fun found => some (some found.1, found.2)) =
          some (found lexer (some ⟨category, 1, context⟩)) := by
      rw [single?_ofLexer]
      rfl
    by_cases hreference : c = referenceMark
    · rw [if_pos hreference, if_pos hreference]
      change (ofLexer lexer).reference?.bind _ = _
      rw [reference?_ofLexer lexer (hreference ▸ hr)]
      rfl
    rw [if_neg hreference, if_neg hreference]
    by_cases hdot : c = '.'
    · rw [if_pos hdot, if_pos hdot]
      exact hsingle ..
    rw [if_neg hdot, if_neg hdot]
    by_cases hsimple : isSimpleOperator c
    · rw [if_pos hsimple, if_pos hsimple]
      exact hsingle ..
    · rw [if_neg hsimple, if_neg hsimple]
      rfl

theorem word?_ofLexer :
    (ofLexer lexer).word? =
      some (passed lexer (Lexeme.word lexer.context lexer.cursor.rest)) := by
  simp only [word?, cursor_ofLexer, context_ofLexer, ByteCursor.takeWhile?_ofCursor,
    ByteCursor.rest?_ofCursor, Cursor.takeWhile, Cursor.rest_advanceBy,
    Option.bind_eq_bind, Option.bind_some, Option.map_some, Lexeme.word]
  cases hmay : lexer.context.mayPromote with
  | false => rfl
  | true =>
    simp only [if_true, Bool.true_and, Option.bind_some]
    split <;> rfl

/-! ## Literals -/

theorem openLiteral?_ofLexer :
    (ofLexer lexer).openLiteral? =
      some (match Literal.open? lexer.cursor.rest with
        | none => (false, ofLexer lexer)
        | some l => (true, ofLexer (lexer.accept
            ⟨.string, l.openingWidth, lexer.context.enterLiteral l⟩))) := by
  have hmark (c : Char) (hc : c == escapeMark) : c.utf8Size = 1 := by
    rw [eq_of_beq hc]
    rfl
  simp only [openLiteral?, cursor_ofLexer, context_ofLexer, ByteCursor.rest?_ofCursor,
    Option.bind_eq_bind, Option.bind_some, Literal.runLength,
    Text.dropBytes?_length_takeWhile hmark]
  rw [Literal.open?, Literal.runLength]
  split
  next hnone => rw [hnone]; rfl
  next quote hquote =>
    rw [hquote, ByteCursor.advanceBy?_ofCursor]
    rfl

theorem passEscape?_ofCursor (cursor : Cursor) (l : Literal) :
    passEscape? (.ofCursor cursor) l =
      some (.ofCursor (cursor.advanceBy (l.takenAlong cursor.rest))) := by
  rw [passEscape?, Literal.takenAlong]
  cases l.escape? with
  | none => rfl
  | some mark =>
    dsimp only
    rw [ByteCursor.matchText?_ofCursor, Cursor.matchText, Cursor.startsWith]
    split <;> rfl

theorem passWithin?_ofCursor (cursor : Cursor) (l : Literal) :
    passWithin? (.ofCursor cursor) l =
      some (.ofCursor (cursor.advanceBy (l.takenAlong cursor.rest + 1))) := by
  rw [passWithin?, passEscape?_ofCursor, Option.bind_some, ByteCursor.advance?_ofCursor,
    Cursor.advance, Cursor.advanceBy_advanceBy]

theorem insideLiteral?_ofLexer :
    (ofLexer lexer).insideLiteral? =
      some (ofLexer (lexer.accept (Lexeme.insideLiteral lexer.context lexer.cursor.rest))) := by
  -- by the number of characters that remain: where the literal is not closed, some are passed
  induction hn : lexer.cursor.rest.length using Nat.strongRecOn generalizing lexer with
  | ind n ih =>
    rw [insideLiteral?]
    split
    next hend =>
      rw [cursor_ofLexer, ByteCursor.isAtEnd_ofCursor, Cursor.isAtEnd, List.isEmpty_iff] at hend
      rw [hend, Lexeme.insideLiteral]
      cases lexer.context.literal <;> rfl
    next hmore =>
      rw [cursor_ofLexer, ByteCursor.isAtEnd_ofCursor, Cursor.isAtEnd, List.isEmpty_iff] at hmore
      obtain ⟨c, rest, hr⟩ := List.exists_cons_of_ne_nil hmore
      rw [hr, context_ofLexer]
      cases hl : lexer.context.literal with
      | none =>
        rw [Lexeme.insideLiteral, hl]
        rfl
      | some l =>
        dsimp only
        rw [cursor_ofLexer, ByteCursor.matchText?_ofCursor, Cursor.matchText, Cursor.startsWith, hr]
        by_cases hclosing : l.closing.isPrefixOf (c :: rest)
        · rw [if_pos hclosing, Lexeme.insideLiteral, hl]
          dsimp only
          rw [Literal.widthWithin?, Literal.widthAfter?, if_pos hclosing]
          rfl
        · rw [if_neg hclosing, Option.bind_eq_bind, Option.bind_some]
          have hon := Lexer.accept_insideLiteral_advanceBy hl hr hclosing
          have hwithin := passWithin?_ofCursor lexer.cursor l
          have hlt : (lexer.cursor.advanceBy (l.takenAlong (c :: rest) + 1)).rest.length < n := by
            rw [← hn, Cursor.rest_advanceBy, List.length_drop, hr, List.length_cons]
            omega
          rw [hr] at hon hwithin
          dsimp only
          split
          next hnone => cases hwithin.symm.trans hnone
          next cursor hsome =>
            obtain rfl := Option.some.inj (hwithin.symm.trans hsome)
            rw [← hon]
            exact ih _ hlt
              { lexer with cursor := lexer.cursor.advanceBy (l.takenAlong (c :: rest) + 1) } rfl

/-! ## Tokens -/

theorem wordOrSingle?_ofLexer {c : Char} {rest : Text} (hr : lexer.cursor.rest = c :: rest) :
    (ofLexer lexer).wordOrSingle? =
      some (passed lexer (if isWordStart c then Lexeme.word lexer.context (c :: rest)
        else Lexeme.single lexer.context c)) := by
  simp only [wordOrSingle?, cursor_ofLexer, ByteCursor.peek?_ofCursor, Cursor.peek, hr,
    List.getElem?_cons_zero, Option.getD_some, Option.bind_eq_bind, Option.bind_some]
  split
  next =>
    rw [word?_ofLexer, hr]
  next =>
    rw [Lexeme.single]
    split <;> exact single?_ofLexer ..

/-- What begins here is the lexeme that is recognized among the characters. -/
theorem recognize?_ofLexer {c : Char} {rest : Text} (hr : lexer.cursor.rest = c :: rest) :
    (ofLexer lexer).recognize? = some (passed lexer (Lexeme.next lexer.context c rest)) := by
  rw [recognize?, number?_ofLexer, Lexeme.next, hr]
  cases Lexeme.number? lexer.context (c :: rest) with
  | some lexeme => rfl
  | none =>
    simp only [found, Option.bind_eq_bind, Option.bind_some, openLiteral?_ofLexer, hr,
      Lexeme.literal?]
    cases Literal.open? (c :: rest) with
    | some l =>
      -- the opening is passed first, and then what the text holds of the literal
      have hbody : (lexer.accept
          ⟨.string, l.openingWidth, lexer.context.enterLiteral l⟩).cursor.rest =
            (c :: rest).drop l.openingWidth := by
        rw [Lexer.accept, Cursor.rest_advanceBy, hr]
      simp only [Option.bind_some, insideLiteral?_ofLexer, Lexer.accept_accept, hbody,
        Option.map_some, passed, Lexeme.category_insideLiteral]
      rfl
    | none =>
      simp only [cursor_ofLexer, ByteCursor.peek?_ofCursor, Cursor.peek, hr, Option.bind_some,
        List.getElem?_cons_zero, Option.getD_some, Option.map_none]
      split
      next => rw [comment_ofLexer, hr]; rfl
      split
      next => exact comma?_ofLexer lexer
      split
      next => exact openBracket?_ofLexer lexer
      split
      next => exact closeBracket?_ofLexer lexer
      split
      next => rw [decorator?_ofLexer, hr]
      rw [operator?_ofLexer, hr]
      cases Lexeme.operator? lexer.context (c :: rest) with
      | some lexeme => rfl
      | none => exact wordOrSingle?_ofLexer lexer hr

section

variable {lexer} (hstart : lexer.tokenStart = lexer.cursor.position)

include hstart

theorem finish?_ofLexer (lexeme : Lexeme) :
    (ofLexer (lexer.accept lexeme)).finish? lexeme.category = some (lexer.emit lexeme).1 := by
  have hle := lexer.cursor.position_le_advanceBy lexeme.width
  rw [← hstart] at hle
  have htoken : (lexer.emit lexeme).1 = ⟨lexeme.category, lexer.tokenStart, _, hle⟩ := by
    simp only [Lexer.emit, hstart]
    rfl
  rw [finish?, Span.ofBounds?, htoken]
  exact congrArg _ (dif_pos hle)

/-- Where a literal goes on, a token is what the line holds of it. -/
theorem read_of_inLiteral (hl : lexer.context.inLiteral) :
    (if (ofLexer lexer).cursor.isAtEnd then some (none, ofLexer lexer)
      else (ofLexer lexer).insideLiteral?.bind fun after =>
        (after.finish? .string).bind fun token => some (some token, after)) =
      some (lexer.read.1, ofLexer lexer.read.2) := by
  rw [cursor_ofLexer, ByteCursor.isAtEnd_ofCursor, Cursor.isAtEnd, insideLiteral?_ofLexer,
    Lexer.read, Lexer.lexeme?]
  cases hr : lexer.cursor.rest with
  | nil => rfl
  | cons c rest =>
    have hfinish := finish?_ofLexer hstart (Lexeme.insideLiteral lexer.context (c :: rest))
    rw [Lexeme.category_insideLiteral] at hfinish
    dsimp only [List.isEmpty_cons]
    rw [if_pos hl, if_neg Bool.false_ne_true, Option.bind_some, hfinish]
    rfl

/-- Elsewhere, a token is what is recognized. -/
theorem read_of_not_inLiteral (hl : ¬lexer.context.inLiteral) :
    (if (ofLexer lexer).cursor.isAtEnd then some (none, ofLexer lexer)
      else (ofLexer lexer).recognize?.bind fun (category, after) =>
        (after.finish? category).bind fun token => some (some token, after)) =
      some (lexer.read.1, ofLexer lexer.read.2) := by
  rw [cursor_ofLexer, ByteCursor.isAtEnd_ofCursor, Cursor.isAtEnd, Lexer.read, Lexer.lexeme?]
  cases hr : lexer.cursor.rest with
  | nil => rfl
  | cons c rest =>
    dsimp only [List.isEmpty_cons]
    rw [if_neg hl, if_neg Bool.false_ne_true, recognize?_ofLexer lexer hr, Option.bind_some]
    dsimp only [passed]
    rw [finish?_ofLexer hstart]
    rfl

end

/-- A token is read among bytes as among characters. -/
theorem next?_ofLexer : (ofLexer lexer).next? = some (lexer.next.1, ofLexer lexer.next.2) := by
  rw [next?, context_ofLexer, Lexer.next]
  by_cases hl : lexer.context.inLiteral
  · rw [if_pos hl, Lexer.approach, if_pos hl]
    exact @read_of_inLiteral { lexer with tokenStart := lexer.cursor.position } rfl hl
  · have hl' : ¬lexer.approach.context.inLiteral := by
      rwa [Context.inLiteral, Lexer.literal_approach]
    rw [Lexer.approach_of_not_inLiteral hl] at hl' ⊢
    simp only [if_neg hl, cursor_ofLexer, ByteCursor.skipBlanks?_ofCursor, Option.bind_eq_bind,
      Option.bind_some]
    exact read_of_not_inLiteral rfl hl'

/-- All tokens are read among bytes as among characters. -/
theorem steps?_ofLexer :
    (ofLexer lexer).steps? =
      some (lexer.steps.1.map fun (token, after) => (token, ofLexer after),
        ofLexer lexer.steps.2) := by
  induction lexer using Lexer.steps.induct with
  | case1 lexer after hnext =>
    rw [steps?, next?_ofLexer, hnext, Lexer.steps_of_next_none hnext]
    rfl
  | case2 lexer token after hnext ih =>
    rw [steps?, next?_ofLexer, hnext, Lexer.steps_of_next_some hnext]
    dsimp only
    rw [ih]
    rfl

/-! ## Calls -/

/-- A call does to bytes what it does to characters. -/
theorem call?_ofLexer (c : Lexer.Call) :
    (ofLexer lexer).call? c = some ((lexer.call c).1, ofLexer (lexer.call c).2) := by
  have hfound (lexeme? : Option Lexeme) :
      answer? (some (found lexer lexeme?)) =
        some ((lexer.acceptCategory? lexeme?).1, ofLexer (lexer.acceptCategory? lexeme?).2) := by
    cases lexeme? <;> rfl
  cases c with
  | next => rw [call?, next?_ofLexer]; rfl
  | rest =>
    rw [call?, steps?_ofLexer, Option.map_some]
    dsimp only
    rw [List.map_map]
    rfl
  | number => rw [call?, number?_ofLexer, hfound]; rfl
  | operator => rw [call?, operator?_ofLexer, hfound]; rfl
  | openLiteral =>
    rw [call?, openLiteral?_ofLexer, Lexer.call, Lexer.openLiteral]
    cases Literal.open? lexer.cursor.rest <;> rfl
  | insideLiteral =>
    rw [call?, insideLiteral?_ofLexer, Lexer.call, Lexer.acceptCategory,
      Lexeme.category_insideLiteral]
    rfl
  | word => rw [call?, word?_ofLexer]; rfl
  | comma => rw [call?, comma?_ofLexer]; rfl
  | openBracket => rw [call?, openBracket?_ofLexer]; rfl
  | closeBracket => rw [call?, closeBracket?_ofLexer]; rfl
  | decorator => rw [call?, decorator?_ofLexer]; rfl
  | comment => rw [call?, comment_ofLexer]; rfl
  | advanceBy count => rw [call?, cursor_ofLexer, ByteCursor.advanceBy?_ofCursor]; rfl
  | skipBlanks => rw [call?, cursor_ofLexer, ByteCursor.skipBlanks?_ofCursor]; rfl
  | line | startStatement | startLine | reset => rfl

end ByteLexer

end Highlighter
