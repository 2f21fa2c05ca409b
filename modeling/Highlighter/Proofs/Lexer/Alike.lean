import Highlighter.Proofs.Lexeme.Lookahead
import Highlighter.Proofs.Lexer.Cover
import Mathlib.Data.List.Forall2

/-!
# Lexers that read alike

Lexers in different lines may read the same tokens, for two reasons.

What was passed of a line bears on the rest only through the context. So if two lexers have the
same text before them, and the same context (`SameAhead`), one step of the one is a step of the
other, only at other places of its line, and then they have the same before them again
(`SameAhead.next_some`). Up to the ends of their lines they read the same tokens
(`SameAhead.steps`). What is at the beginning of a line makes the one difference: there a statement
begins. So it is enough that neither lexer stands there, as it is after any two texts that are not
empty (`StandsBetween.steps_same`), or from the end of a literal on (`Aligned.rest_eq`).

What comes after a quote bears on no token before it (`Lexeme.next_append`). So if two lexers
stand at the same place of lines that go on alike up to a quote, they *agree*: they read the
same tokens as long as these end before the quote (`Agree.exists_reads`).
-/

namespace Highlighter

/-- The token as it is seen from a place in its line. -/
def Token.relativeTo (origin : Nat) (token : Token) : Token :=
  ⟨token.category, token.span.start - origin, token.span.stop - origin,
    Nat.sub_le_sub_right token.span.start_le_stop origin⟩

/-- The token as many bytes further on in a line. -/
def Token.shift (distance : Nat) (token : Token) : Token :=
  ⟨token.category, token.span.start + distance, token.span.stop + distance,
    Nat.add_le_add_right token.span.start_le_stop distance⟩

theorem Token.eq_of_bounds {token token' : Token} (hcategory : token.category = token'.category)
    (hstart : token.span.start = token'.span.start) (hstop : token.span.stop = token'.span.stop) :
    token = token' := by
  obtain ⟨_, _, _, _⟩ := token
  obtain ⟨_, _, _, _⟩ := token'
  cases hcategory
  cases hstart
  cases hstop
  rfl

/-- A token further on is the same, seen from as much further on. -/
theorem Token.relativeTo_shift (token : Token) (origin distance : Nat) :
    (token.shift distance).relativeTo (origin + distance) = token.relativeTo origin :=
  Token.eq_of_bounds rfl (Nat.add_sub_add_right ..) (Nat.add_sub_add_right ..)

namespace Lexer

variable {a b after start start' lexer : Lexer} {m n : Nat} {token : Token} {read : List Token}
  {q : Char} {rest rest' : Text}

/-! ## The same text ahead -/

/-- Two lexers have the same text before them, in the same context, and stand equally far
    behind the places `m` and `n` of their lines. -/
structure SameAhead (m n : Nat) (a b : Lexer) : Prop where
  rest : a.cursor.rest = b.cursor.rest
  context : a.context = b.context
  position : a.cursor.position + n = b.cursor.position + m

/-- What has been read is the same, seen from the places `m` and `n` of the lines: the token and
    the context after it. -/
structure SameStep (m n : Nat) (step step' : Token × Lexer) : Prop where
  token : step.1.shift n = step'.1.shift m
  context : step.2.context = step'.2.context

namespace SameAhead

theorem lexeme?_eq (h : SameAhead m n a b) : a.lexeme? = b.lexeme? := by
  rw [lexeme?, lexeme?, h.rest, h.context]

/-- Where neither is at the beginning of its line, they pass the same blanks. -/
theorem approach (h : SameAhead m n a b) (ha : a.cursor.isAtStart = false)
    (hb : b.cursor.isAtStart = false) : SameAhead m n a.approach b.approach := by
  rw [Lexer.approach, Lexer.approach, ← h.context]
  split
  · exact ⟨h.rest, rfl, h.position⟩
  · refine ⟨?_, ?_, ?_⟩
    · rw [Cursor.rest_skipBlanks, Cursor.rest_skipBlanks, h.rest]
    · simp only [ha, hb]
    · have hposition := h.position
      rw [Cursor.position_skipBlanks, Cursor.position_skipBlanks, h.rest]
      omega

/-- If one finds no token, nor does the other. -/
theorem next_none (h : SameAhead m n a.approach b.approach) (hn : a.next = (none, after)) :
    ∃ after', b.next = (none, after') ∧ after.context = after'.context := by
  obtain ⟨rfl, hrest⟩ := eq_approach_of_next hn
  rw [h.rest] at hrest
  exact ⟨b.approach, next_of_rest_approach_eq_nil hrest, h.context⟩

/-- They read the same token, and then they have the same text before them again. -/
theorem next_some (h : SameAhead m n a.approach b.approach) (hn : a.next = (some token, after)) :
    ∃ token' after', b.next = (some token', after') ∧ token.shift n = token'.shift m ∧
      SameAhead m n after after' := by
  obtain ⟨lexeme, he⟩ := exists_emits_of_next hn
  obtain ⟨token', after', hn', he'⟩ :=
    exists_next_of_lexeme? (h.lexeme?_eq.symm.trans he.lexeme?)
  have hposition := h.position
  have hstart := he.start
  have hstart' := he'.start
  have hstop := he.stop
  have hstop' := he'.stop
  rw [← h.rest] at hstop'
  refine ⟨token', after', hn', Token.eq_of_bounds ?_ ?_ ?_, ?_, ?_, ?_⟩
  · exact he.category.trans he'.category.symm
  · simp only [Token.shift]
    omega
  · simp only [Token.shift]
    omega
  · rw [he.rest, he'.rest, h.rest]
  · rw [he.context, he'.context]
  · rw [he.position, he'.position]
    omega

/-- They read the same up to the ends of their lines, token by token. -/
theorem steps (h : SameAhead m n a.approach b.approach) :
    List.Forall₂ (SameStep m n) a.steps.1 b.steps.1 ∧
      a.steps.2.context = b.steps.2.context := by
  induction a using Lexer.steps.induct generalizing b with
  | case1 a after hn =>
    obtain ⟨after', hn', hcontext⟩ := h.next_none hn
    rw [steps_of_next_none hn, steps_of_next_none hn']
    exact ⟨.nil, hcontext⟩
  | case2 a token after hn ih =>
    obtain ⟨token', after', hn', htoken, hafter⟩ := h.next_some hn
    obtain ⟨hsteps, hcontext⟩ := ih (hafter.approach (isAtStart_next hn) (isAtStart_next hn'))
    rw [steps_of_next_some hn, steps_of_next_some hn']
    exact ⟨.cons ⟨htoken, hafter.context⟩ hsteps, hcontext⟩

/-- They read the same tokens up to the ends of their lines, and leave the same context. -/
theorem rest_eq (h : SameAhead m n a.approach b.approach) :
    a.rest.1.map (Token.shift n) = b.rest.1.map (Token.shift m) ∧
      a.rest.2.context = b.rest.2.context := by
  obtain ⟨hsteps, hcontext⟩ := h.steps
  refine ⟨?_, hcontext⟩
  have htokens : List.Forall₂ Eq (a.rest.1.map (Token.shift n)) (b.rest.1.map (Token.shift m)) := by
    simp only [Lexer.rest, List.forall₂_map_left_iff, List.forall₂_map_right_iff]
    exact hsteps.imp fun _ _ hstep => hstep.token
  rwa [List.forall₂_eq_eq_eq] at htokens

end SameAhead

/-! ### Any two places in lines -/

/-- A cursor stands in its line after one text and before another. -/
structure StandsBetween (before rest : Text) (cursor : Cursor) : Prop where
  line : cursor.line = before ++ rest
  position : cursor.position = Text.byteLength before

namespace StandsBetween

variable {before before' : Text} {cursor : Cursor}

theorem rest_eq (h : StandsBetween before rest cursor) : cursor.rest = rest := by
  have hdrop := cursor.dropBytes?_position
  rw [h.line, h.position, Text.dropBytes?_append] at hdrop
  exact (Option.some.inj hdrop).symm

theorem isAtStart (h : StandsBetween before rest cursor) (hne : before ≠ []) :
    cursor.isAtStart = false := by
  rw [Cursor.isAtStart, h.position]
  exact beq_false_of_ne (Text.byteLength_pos hne).ne'

/-- Nothing that was passed of a line bears on the rest of it: whatever it was, as long as it was
    something, the same rest in the same context gives the same tokens, only as many bytes further
    on as more was passed, and after each of them, and at the end, the same context. -/
theorem steps_same (hne : before ≠ []) (hne' : before' ≠ [])
    (ha : StandsBetween before rest a.cursor) (hb : StandsBetween before' rest b.cursor)
    (hctx : a.context = b.context) :
    List.Forall₂ (SameStep (Text.byteLength before) (Text.byteLength before'))
        a.steps.1 b.steps.1 ∧
      a.steps.2.context = b.steps.2.context := by
  have hahead : SameAhead (Text.byteLength before) (Text.byteLength before') a b :=
    ⟨ha.rest_eq.trans hb.rest_eq.symm, hctx, by rw [ha.position, hb.position, Nat.add_comm]⟩
  exact (hahead.approach (ha.isAtStart hne) (hb.isAtStart hne')).steps

/-- After a character of two bytes and a blank, or right after an opening bracket. -/
theorem steps_same_sign :
    let rest : Text := "-1 f \"é".toList
    let a : Lexer := ⟨(Cursor.ofLine ("é ".toList ++ rest)).advanceBy 2, {}, 0⟩
    let b : Lexer := ⟨(Cursor.ofLine ("(".toList ++ rest)).advanceBy 1, {}, 0⟩
    StandsBetween "é ".toList rest a.cursor ∧ StandsBetween "(".toList rest b.cursor ∧
      List.Forall₂ (SameStep 3 1) a.steps.1 b.steps.1 ∧
      a.steps.2.context = b.steps.2.context := by
  intro rest a b
  have ha : StandsBetween "é ".toList rest a.cursor := ⟨by decide +kernel, by decide +kernel⟩
  have hb : StandsBetween "(".toList rest b.cursor := ⟨by decide +kernel, by decide +kernel⟩
  exact ⟨ha, hb, steps_same (by decide) (by decide) ha hb rfl⟩

end StandsBetween

/-! ### From the end of a literal on -/

/-- Two lexers have the same text before them, in the same context, and stand equally far
    from the places `m` and `n`, which lie within their lines. -/
structure Aligned (m n : Nat) (a b : Lexer) : Prop where
  rest : a.cursor.rest = b.cursor.rest
  context : a.context = b.context
  position : ∃ k, a.cursor.position = m + k ∧ b.cursor.position = n + k
  within : 0 < m ∧ 0 < n

namespace Aligned

/-- Neither lexer is at the beginning of its line, where a statement would begin. -/
theorem isAtStart (h : Aligned m n a b) :
    a.cursor.isAtStart = false ∧ b.cursor.isAtStart = false := by
  obtain ⟨k, hk⟩ := h.position
  have := h.within
  rw [Cursor.isAtStart, Cursor.isAtStart, beq_eq_false_iff_ne, beq_eq_false_iff_ne]
  omega

theorem sameAhead (h : Aligned m n a b) : SameAhead m n a b := by
  obtain ⟨k, hk⟩ := h.position
  exact ⟨h.rest, h.context, by omega⟩

/-- They read the same tokens up to the ends of their lines, and leave the same context. -/
theorem rest_eq (h : Aligned m n a b) :
    a.rest.1.map (Token.relativeTo m) = b.rest.1.map (Token.relativeTo n) ∧
      a.rest.2.context = b.rest.2.context := by
  obtain ⟨htokens, hcontext⟩ := (h.sameAhead.approach h.isAtStart.1 h.isAtStart.2).rest_eq
  refine ⟨?_, hcontext⟩
  -- both lists of tokens, seen from the same place further on
  have hfrom (token : Token) : (token.shift n).relativeTo (m + n) = token.relativeTo m :=
    token.relativeTo_shift m n
  have hfrom' (token : Token) : (token.shift m).relativeTo (m + n) = token.relativeTo n := by
    rw [Nat.add_comm, Token.relativeTo_shift]
  have hsame := congrArg (List.map (Token.relativeTo (m + n))) htokens
  simpa only [List.map_map, Function.comp_def, hfrom, hfrom'] using hsame

end Aligned

/-! ## The same text up to a quote -/

/-- Two lexers stand at the same place, in the same context, and the same text comes before
    them up to a quote, after which one has `rest` and the other `rest'`. -/
structure Agree (q : Char) (rest rest' : Text) (a b : Lexer) : Prop where
  position : a.cursor.position = b.cursor.position
  context : a.context = b.context
  ahead : ∃ text, a.cursor.rest = text ++ q :: rest ∧ b.cursor.rest = text ++ q :: rest'

/-- A lexeme that ends before a quote is recognized whatever comes after the quote. -/
theorem lexeme?_append {lexeme : Lexeme} {text : Text} (hq : isQuote q) (h : a.context = b.context)
    (ha : a.cursor.rest = text ++ q :: rest) (hb : b.cursor.rest = text ++ q :: rest')
    (hl : a.lexeme? = some lexeme) (hw : lexeme.width ≤ text.length) :
    b.lexeme? = some lexeme := by
  obtain ⟨hpos, -⟩ := width_lexeme?_pos hl
  obtain ⟨c, text, rfl⟩ : ∃ c tail, text = c :: tail :=
    List.exists_cons_of_ne_nil (by rintro rfl; exact absurd hw (Nat.not_le_of_lt hpos))
  rw [lexeme?, ha, List.cons_append] at hl
  rw [lexeme?, hb, List.cons_append, ← h]
  dsimp only at hl ⊢
  split at hl
  · cases hl
    rw [if_pos ‹_›]
    exact congrArg some (Lexeme.insideLiteral_append (c :: text) hw (by simp))
  · cases hl
    rw [if_neg ‹_›, Lexeme.next_append hq hw]

namespace Agree

theorem approach (hq : isQuote q) (h : Agree q rest rest' a b) :
    Agree q rest rest' a.approach b.approach := by
  rw [Lexer.approach, Lexer.approach, ← h.context]
  split
  · exact ⟨h.position, rfl, h.ahead⟩
  · have hblank : isBlank q = false := eq_false_of_isQuote hq (by decide)
    have hstart : a.cursor.isAtStart = b.cursor.isAtStart := by
      rw [Cursor.isAtStart, Cursor.isAtStart, h.position]
    obtain ⟨text, ha, hb⟩ := h.ahead
    refine ⟨?_, ?_, text.dropWhile isBlank, ?_, ?_⟩
    · rw [Cursor.position_skipBlanks, Cursor.position_skipBlanks, h.position, ha, hb,
        takeWhile_append_cons hblank, takeWhile_append_cons hblank]
    · simp only [hstart]
    · rw [Cursor.rest_skipBlanks, ha, dropWhile_append_cons hblank]
    · rw [Cursor.rest_skipBlanks, hb, dropWhile_append_cons hblank]

/-- They read the same token, if it ends before the quote, and then they still agree. -/
theorem next (hq : isQuote q) (h : Agree q rest rest' a b) (hn : a.next = (some token, after))
    (hahead : ∃ text, after.cursor.rest = text ++ q :: rest) :
    ∃ after', b.next = (some token, after') ∧ Agree q rest rest' after after' := by
  obtain ⟨lexeme, he⟩ := exists_emits_of_next hn
  obtain ⟨text, ha, hb⟩ := (h.approach hq).ahead
  have hw : lexeme.width ≤ text.length := by
    obtain ⟨tail, htail⟩ := hahead
    have hlength := congrArg List.length (he.rest.symm.trans htail)
    rw [ha, List.length_drop, List.length_append, List.length_append, List.length_cons] at hlength
    omega
  obtain ⟨token', after', hn', he'⟩ :=
    exists_next_of_lexeme? (lexeme?_append hq (h.approach hq).context ha hb he.lexeme? hw)
  have hstart : token.span.start = token'.span.start := by
    rw [he.start, he'.start, (h.approach hq).position]
  have hstop : token.span.stop = token'.span.stop := by
    rw [he.stop, he'.stop, (h.approach hq).position, ha, hb, List.take_append_of_le_length hw,
      List.take_append_of_le_length hw]
  obtain rfl : token = token' :=
    Token.eq_of_bounds (he.category.trans he'.category.symm) hstart hstop
  refine ⟨after', hn', ?_, ?_, text.drop lexeme.width, ?_, ?_⟩
  · rw [he.position, he'.position]
  · rw [he.context, he'.context]
  · rw [he.rest, ha, List.drop_append_of_le_length hw]
  · rw [he'.rest, hb, List.drop_append_of_le_length hw]

/-- They read the same tokens as long as these end before the quote. -/
theorem exists_reads (hq : isQuote q) (h : Agree q rest rest' start start')
    (hr : Reads start read lexer) (hahead : ∃ text, lexer.cursor.rest = text ++ q :: rest) :
    ∃ lexer', Reads start' read lexer' ∧ Agree q rest rest' lexer lexer' := by
  induction hr with
  | start => exact ⟨start', .start, h⟩
  | next _ hn ih =>
    -- the token was read from before the quote, too
    obtain ⟨gap, text, -, -, hrest, -⟩ := exists_text_of_next hn
    obtain ⟨tail, htail⟩ := hahead
    obtain ⟨lexer', hr', hagree⟩ := ih ⟨gap ++ (text ++ tail), by simp [hrest, htail]⟩
    obtain ⟨after', hn', hafter⟩ := hagree.next hq hn ⟨tail, htail⟩
    exact ⟨after', hr'.next hn', hafter⟩

end Agree

end Lexer

end Highlighter
