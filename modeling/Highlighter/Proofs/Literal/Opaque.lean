import Highlighter.Proofs.Lexer.Alike
import Highlighter.Proofs.Lexer.Carried

/-!
# The content of a literal

What stands in a literal should make no difference to what comes after it. So texts are compared
that are the same but for the content of one literal, its *body*, which may go on over several
lines (`enclose`), as to what is read of the text after the literal (`readRest`): its tokens, as
they are seen from the end of the literal, and the context after them.

A line within a literal leaves the context as it is (`Lexer.tokenizeLine_of_unclosed`), except
that a line with nothing in it begins a new statement even there. The end of the literal undoes
this in all but one thing: a statement that had its keyword is no longer locked. So a body makes
no difference, as long as blank lines in it have nothing to unlock (`readRest_enclose_eq`); else
they may make one (`readRest_enclose_ne`).

Before the literal, the lines are read alike, since no token looks beyond the quote that opens it
(`OpensAfter.exists_reads`); after it, since the text and the context are the same
(`Lexer.Aligned.rest_eq`).
-/

namespace Highlighter

variable {ctx opened closed : Context} {l : Literal} {before rest : Text}
  {body body' lines : List Text}

/-! ## Bodies -/

/-- Some lines are the body of a literal: with its closing sequence after the last of them, the
    literal is closed there and not before. -/
inductive Literal.Encloses (l : Literal) : List Text → Prop
  | last {line : Text} :
    l.widthWithin? (line ++ l.closing) = some (line.length + l.closing.length) → l.Encloses [line]
  | cons {line : Text} {lines : List Text} :
    l.widthWithin? line = none → l.Encloses lines → l.Encloses (line :: lines)

/-- A body has a blank line, i.e., one between its first and its last line with nothing in it. -/
def HasBlankLine (body : List Text) : Prop :=
  [] ∈ body.tail.dropLast

instance (body : List Text) : Decidable (HasBlankLine body) :=
  inferInstanceAs (Decidable ([] ∈ body.tail.dropLast))

/-- The lines of a body with a text before the first and a text after the last of them. -/
def enclose (before after : Text) : List Text → List Text
  | [] => []
  | [line] => [before ++ (line ++ after)]
  | line :: next :: lines => (before ++ line) :: enclose [] after (next :: lines)

/-- After a text at the beginning of a line, a literal opens in the context `opened`. -/
def OpensAfter (ctx : Context) (before : Text) (l : Literal) (opened : Context) : Prop :=
  ∃ tail read lexer, Lexer.Reads (.ofLine (before ++ (l.opening ++ tail)) ctx) read lexer ∧
    ¬lexer.context.inLiteral ∧ lexer.approach.cursor.rest = l.opening ++ tail ∧
    lexer.approach.context = opened

/-- What is read of the rest of the last line: the tokens from there on, as they are seen from
    there, and the context after them. -/
def readRest (ctx : Context) (rest : Text) (lines : List Text) : List Token × Context :=
  let origin := Text.byteLength (lines.getLastD []) - Text.byteLength rest
  ((((tokensOfLines ctx lines).getLastD []).filter (origin ≤ ·.span.start)).map
    (Token.relativeTo origin), contextAfter ctx lines)

theorem enclose_cons {before after line : Text} (h : lines ≠ []) :
    enclose before after (line :: lines) = (before ++ line) :: enclose [] after lines := by
  obtain ⟨next, lines, rfl⟩ := List.exists_cons_of_ne_nil h
  rfl

theorem Literal.Encloses.ne_nil (h : l.Encloses body) : body ≠ [] := by
  rintro rfl
  cases h

/-! ## The rest of the last line -/

/-- Reading lines gets to where `rest` remains of the last line, with some of it read, in the
    context `closed`. -/
def Reaches (ctx : Context) (lines : List Text) (rest : Text) (closed : Context) : Prop :=
  ∃ previous last read lexer, lines = previous ++ [last] ∧
    Lexer.Reads (.ofLine last (contextAfter ctx previous)) read lexer ∧ read ≠ [] ∧
    lexer.cursor.rest = rest ∧ lexer.context = closed

theorem Reaches.cons {line : Text} (h : Reaches (tokenizeLine ctx line).2 lines rest closed) :
    Reaches ctx (line :: lines) rest closed := by
  obtain ⟨previous, last, read, lexer, rfl, hr, h⟩ := h
  exact ⟨line :: previous, last, read, lexer, rfl, hr, h⟩

/-- What is read of the rest is what the lexer there reads. -/
theorem Reaches.exists_lexer (h : Reaches ctx lines rest closed) :
    ∃ lexer : Lexer, lexer.cursor.rest = rest ∧ lexer.context = closed ∧
      0 < lexer.cursor.position ∧ readRest ctx rest lines =
        (lexer.rest.1.map (Token.relativeTo lexer.cursor.position), lexer.rest.2.context) := by
  obtain ⟨previous, last, read, lexer, rfl, hr, hne, hrest, hclosed⟩ := h
  have hline : lexer.cursor.line = last := hr.line_eq
  have hsum : Text.byteLength last = lexer.cursor.position + Text.byteLength rest := by
    rw [← hline, ← hrest, Cursor.line, Text.byteLength_append, lexer.cursor.position_eq_byteLength]
  have hpos : 0 < lexer.cursor.position := by
    obtain ⟨token, ht⟩ := List.exists_mem_of_ne_nil read hne
    exact Nat.zero_lt_of_lt (hr.start_lt ht)
  have hlast : last ≠ [] := by
    rintro rfl
    rw [Text.byteLength_nil] at hsum
    omega
  -- the tokens read so far begin before the rest, and the others do not
  have hread : read.filter (lexer.cursor.position ≤ ·.span.start) = [] := by
    simpa using fun token ht => hr.start_lt ht
  have hfollowing : lexer.rest.1.filter (lexer.cursor.position ≤ ·.span.start) = lexer.rest.1 := by
    simpa using fun token ht => (Lexer.covers_rest lexer).le_start ht
  refine ⟨lexer, hrest, hclosed, hpos, ?_⟩
  rw [readRest, List.getLastD_concat, hsum, Nat.add_sub_cancel, tokensOfLines_append,
    contextAfter_append, tokensOfLines, tokensOfLines, List.getLastD_concat, contextAfter_cons,
    contextAfter_nil, Lexer.tokenizeLine_of_ne_nil hlast, hr.rest_eq]
  dsimp only
  rw [List.filter_append, hread, hfollowing, List.nil_append]

/-- Two readings that get to the same rest in the same context read it alike. -/
theorem Reaches.readRest_eq {lines' : List Text} (h : Reaches ctx lines rest closed)
    (h' : Reaches ctx lines' rest closed) : readRest ctx rest lines = readRest ctx rest lines' := by
  obtain ⟨a, hrest, hctx, hpos, ha⟩ := h.exists_lexer
  obtain ⟨b, hrest', hctx', hpos', hb⟩ := h'.exists_lexer
  have haligned : Lexer.Aligned a.cursor.position b.cursor.position a b :=
    ⟨hrest.trans hrest'.symm, hctx.trans hctx'.symm, ⟨0, rfl, rfl⟩, hpos, hpos'⟩
  rw [ha, hb, haligned.rest_eq.1, haligned.rest_eq.2]

/-! ## Through the literal -/

/-- At the end of a literal, all is undone that a blank line in it did, except to a lock. -/
theorem Context.leaveLiteral_startStatement (h : ¬ctx.locked) :
    ctx.startStatement.leaveLiteral = ctx.leaveLiteral := by
  simp [Context.leaveLiteral, Context.startStatement, Context.endExpression,
    Context.openExpression, h]

/-- What the last line of a body holds of the literal: all up to the rest. -/
theorem Lexeme.insideLiteral_closing {line : Text} (hl : ctx.literal = some l)
    (hw : l.widthWithin? (line ++ l.closing) = some (line.length + l.closing.length))
    (rest : Text) :
    insideLiteral ctx (line ++ (l.closing ++ rest)) =
      ⟨.string, (line ++ l.closing).length, ctx.leaveLiteral⟩ := by
  have hwithin : l.widthWithin? (line ++ l.closing ++ rest) =
      some (line.length + l.closing.length) :=
    (Literal.widthWithin?_append (by simp)).2 hw
  simp only [← List.append_assoc, insideLiteral, hl, hwithin, List.length_append]

theorem drop_closing (line rest : Text) :
    (line ++ (l.closing ++ rest)).drop (line ++ l.closing).length = rest := by
  rw [← List.append_assoc, List.drop_left]

/-- From a line that begins within the literal on, reading gets to the end of the literal. -/
theorem reaches_of_literal (hl : ctx.literal = some l) (hb : l.Encloses body) (rest : Text) :
    Reaches ctx (enclose [] (l.closing ++ rest) body) rest
      (if [] ∈ body.dropLast then ctx.startStatement else ctx).leaveLiteral := by
  induction hb generalizing ctx with
  | @last line hw =>
    have hnext := Lexer.next_ofLine_of_literal hl
      (show line ++ (l.closing ++ rest) ≠ [] by simp [Literal.closing])
    rw [Lexeme.insideLiteral_closing hl hw] at hnext
    refine ⟨[], _, _, _, rfl, .next .start hnext, by simp, ?_, rfl⟩
    exact (Cursor.rest_advanceBy ..).trans (drop_closing line rest)
  | @cons line lines hw hb ih =>
    rw [enclose_cons hb.ne_nil, List.dropLast_cons_of_ne_nil hb.ne_nil]
    refine Reaches.cons ?_
    by_cases hne : line = []
    · subst hne
      -- from here on, more blank lines make no difference
      have h : Reaches ctx.startStatement _ _ _ := ih hl
      simp only [show ctx.startStatement.startStatement = ctx.startStatement from rfl,
        ite_self] at h
      simpa [tokenizeLine] using h
    · have hmem : [] ∈ line :: lines.dropLast ↔ [] ∈ lines.dropLast := by
        simp [Ne.symm hne]
      rw [List.nil_append, Lexer.tokenizeLine_of_unclosed hl hne hw]
      simp only [hmem]
      exact ih hl

/-- A literal opens after a text whatever comes after its opening. -/
theorem OpensAfter.exists_reads (h : OpensAfter ctx before l opened) (tail : Text) :
    ∃ read lexer, Lexer.Reads (.ofLine (before ++ (l.opening ++ tail)) ctx) read lexer ∧
      ¬lexer.context.inLiteral ∧ lexer.approach.cursor.rest = l.opening ++ tail ∧
      lexer.approach.context = opened := by
  obtain ⟨tail', read, lexer, hr, hl, hrest, hctx⟩ := h
  have hq : isQuote l.quote.char := by cases l.quote <;> rfl
  have hopening (tail : Text) :
      l.opening ++ tail = List.replicate l.escapeRun escapeMark ++ l.quote.char :: tail := by
    rw [Literal.opening, List.append_assoc, List.singleton_append]
  have hstart : Lexer.Agree l.quote.char tail' tail (.ofLine (before ++ (l.opening ++ tail')) ctx)
      (.ofLine (before ++ (l.opening ++ tail)) ctx) :=
    ⟨rfl, rfl, before ++ List.replicate l.escapeRun escapeMark,
      by rw [hopening, ← List.append_assoc]; rfl, by rw [hopening, ← List.append_assoc]; rfl⟩
  -- whatever blanks come before the opening, the quote is still ahead
  obtain ⟨gap, -, -, hgap, -⟩ := Lexer.exists_gap_approach lexer
  rw [hrest, hopening, ← List.append_assoc] at hgap
  obtain ⟨lexer', hr', hagree⟩ := hstart.exists_reads hq hr ⟨_, hgap⟩
  obtain ⟨text, ha, hb⟩ := (hagree.approach hq).ahead
  rw [hrest, hopening] at ha
  refine ⟨read, lexer', hr', ?_, ?_, ?_⟩
  · rwa [← hagree.context]
  · rw [hb, ← List.append_cancel_right ha, ← hopening]
  · rw [← (hagree.approach hq).context, hctx]

/-- From the line where the literal opens on, reading gets to the end of the literal. -/
theorem OpensAfter.reaches (h : OpensAfter ctx before l opened) (hb : l.Encloses body)
    (rest : Text) :
    Reaches ctx (enclose (before ++ l.opening) (l.closing ++ rest) body) rest
      (if HasBlankLine body then (opened.enterLiteral l).startStatement
        else opened.enterLiteral l).leaveLiteral := by
  cases hb with
  | @last line hw =>
    obtain ⟨read, lexer, hr, hl, hrest, rfl⟩ := h.exists_reads (line ++ (l.closing ++ rest))
    obtain ⟨token, after, hnext, hafter, hcontext⟩ := Lexer.exists_next_opening hl hrest
    rw [Lexeme.insideLiteral_closing rfl hw] at hafter hcontext
    rw [← List.append_assoc] at hr
    exact ⟨[], _, _, after, rfl, hr.next hnext, by simp, hafter.trans (drop_closing ..), hcontext⟩
  | @cons line lines hw hb =>
    obtain ⟨read, lexer, hr, hl, hrest, rfl⟩ := h.exists_reads line
    obtain ⟨token, after, hnext, hafter, hcontext⟩ := Lexer.exists_next_opening hl hrest
    have hinside : Lexeme.insideLiteral (lexer.approach.context.enterLiteral l) line =
        ⟨.string, line.length, lexer.approach.context.enterLiteral l⟩ := by
      simp [Lexeme.insideLiteral, Context.enterLiteral, hw]
    rw [hinside] at hafter hcontext
    dsimp only at hafter hcontext
    have hne : before ++ (l.opening ++ line) ≠ [] := by simp [Literal.opening]
    have hctx : (tokenizeLine ctx (before ++ l.opening ++ line)).2 =
        lexer.approach.context.enterLiteral l := by
      rw [List.append_assoc, (hr.next hnext).tokenizeLine_eq hne
        (by rw [hafter, List.drop_length]) (by rw [hcontext]; rfl), hcontext]
    rw [enclose_cons hb.ne_nil]
    refine Reaches.cons ?_
    rw [hctx]
    exact reaches_of_literal rfl hb rest

/-! ## The content -/

/-- What stands in a literal makes no difference to what is read of the rest of its last line,
    if the statement has no keyword where the literal opens, or if blank lines stand in both
    bodies or in neither. -/
theorem readRest_enclose_eq (ho : OpensAfter ctx before l opened) (hb : l.Encloses body)
    (hb' : l.Encloses body') (hblank : opened.locked → (HasBlankLine body ↔ HasBlankLine body'))
    (rest : Text) :
    readRest ctx rest (enclose (before ++ l.opening) (l.closing ++ rest) body) =
      readRest ctx rest (enclose (before ++ l.opening) (l.closing ++ rest) body') := by
  have h := ho.reaches hb rest
  have h' := ho.reaches hb' rest
  by_cases hlocked : opened.locked
  · simp only [hblank hlocked] at h
    exact h.readRest_eq h'
  · have hsame (b : List Text) : (if HasBlankLine b then (opened.enterLiteral l).startStatement
        else opened.enterLiteral l).leaveLiteral = (opened.enterLiteral l).leaveLiteral := by
      split
      · exact Context.leaveLiteral_startStatement hlocked
      · rfl
    rw [hsame] at h h'
    exact h.readRest_eq h'

/-- A literal that is the argument of a keyword. -/
theorem opensAfter_keyword : OpensAfter {} "print ".toList ⟨.double, 0⟩
    { promotable := false, locked := true } := by
  let start : Lexer := .ofLine ("print ".toList ++ (Literal.opening ⟨.double, 0⟩ ++ [])) {}
  have hnext : start.next = (some ⟨.keyword, 0, 5, by decide⟩, start.next.2) :=
    Prod.ext (by decide +kernel) rfl
  exact ⟨[], _, start.next.2, .next .start hnext, by decide +kernel, by decide +kernel,
    by decide +kernel⟩

/-- A blank line in the argument of a keyword makes the next word a keyword, too. -/
theorem readRest_enclose_ne :
    let before : Text := "print ".toList
    let l : Literal := ⟨.double, 0⟩
    let rest : Text := " + f x".toList
    let short : List Text := ["a".toList]
    let long : List Text := [[], [], []]
    (∃ opened, OpensAfter {} before l opened) ∧ l.Encloses short ∧ l.Encloses long ∧
      readRest {} rest (enclose (before ++ l.opening) (l.closing ++ rest) short) ≠
        readRest {} rest (enclose (before ++ l.opening) (l.closing ++ rest) long) :=
  ⟨⟨_, opensAfter_keyword⟩, .last (by decide +kernel),
    .cons (by decide +kernel) (.cons (by decide +kernel) (.last (by decide +kernel))),
    by decide +kernel⟩

/-- A body of three lines, with a quote that is escaped in it, reads like any other. -/
theorem readRest_enclose_eq_keyword :
    let before : Text := "print ".toList
    let l : Literal := ⟨.double, 0⟩
    let rest : Text := " + f x".toList
    readRest {} rest (enclose (before ++ l.opening) (l.closing ++ rest) ["a".toList]) =
      readRest {} rest (enclose (before ++ l.opening) (l.closing ++ rest)
        [[], "b\\\"".toList, []]) := by
  intro before l rest
  refine readRest_enclose_eq opensAfter_keyword (.last (by decide +kernel)) ?_
    (fun _ => by decide +kernel) rest
  exact .cons (by decide +kernel) (.cons (by decide +kernel) (.last (by decide +kernel)))

end Highlighter
