import Highlighter.Proofs.Document.Coherence
import Highlighter.Proofs.Lexer.Trace
import Highlighter.Summary
import Mathlib.Data.List.Basic
import Mathlib.Data.List.Pairwise

/-!
# How deep brackets are open

How many brackets are open at a place follows from the tokens before it: one more for each
opening bracket, one less for each closing bracket, but never less than none (`depthAfter`). No
other token has a bearing on it, nor the beginning of a line, so this goes on from token to token
(`TokenStep.LockEffect.depth_after`), over a line (`Lexer.depth_tokenizeLine`) and over all lines
of a document (`Document.depth_eq_depthAfter`).

A bracket that closes nothing is not counted, so the depth is no difference of two numbers. It is
one if no such bracket comes (`depthAfter_add`), as where brackets are balanced.
-/

namespace Highlighter

/-! ## Counting brackets -/

/-- The bracket that a token is, if it is one. -/
def Token.bracket? (line : Text) (token : Token) : Option Char :=
  if token.category = .bracket then (token.text? line).bind List.head? else none

/-- The brackets of lines, in order: those that are tokens of their own. -/
def bracketsOf (lines : List DocumentLine) : Text :=
  lines.flatMap fun line => line.tokens.filterMap (Token.bracket? line.text)

/-- How many brackets are open after some brackets, where `depth` are open before them. -/
def depthAfter (depth : Nat) (brackets : Text) : Nat :=
  brackets.foldl (fun depth c =>
    if isOpenBracket c then depth + 1
    else if isCloseBracket c then depth - 1
    else depth) depth

/-- Some brackets are balanced: none of them closes what was not opened before, and all that are
    opened are closed. -/
structure Balanced (brackets : Text) : Prop where
  opened : ∀ part, part <+: brackets →
    part.countP isCloseBracket ≤ part.countP isOpenBracket
  closed : brackets.countP isOpenBracket = brackets.countP isCloseBracket

variable {depth : Nat} {brackets : Text} {c : Char}

theorem depthAfter_append (depth : Nat) (brackets brackets' : Text) :
    depthAfter depth (brackets ++ brackets') = depthAfter (depthAfter depth brackets) brackets' :=
  List.foldl_append

theorem depthAfter_cons_of_isOpenBracket (h : isOpenBracket c) :
    depthAfter depth (c :: brackets) = depthAfter (depth + 1) brackets := by
  rw [depthAfter, List.foldl_cons, if_pos h]
  rfl

theorem depthAfter_cons_of_isCloseBracket (h : isCloseBracket c) :
    depthAfter depth (c :: brackets) = depthAfter (depth - 1) brackets := by
  rw [depthAfter, List.foldl_cons, if_neg (not_isOpenBracket_of_isCloseBracket h), if_pos h]
  rfl

/-- Where every bracket that closes closes one that is open, the depth is the difference of those
    that open and those that close. -/
theorem depthAfter_add (h : ∀ part, part <+: brackets →
      part.countP isCloseBracket ≤ depth + part.countP isOpenBracket) :
    depthAfter depth brackets + brackets.countP isCloseBracket =
      depth + brackets.countP isOpenBracket := by
  induction brackets generalizing depth with
  | nil => rfl
  | cons c brackets ih =>
    have hpart (part : Text) (hp : part <+: brackets) :=
      h (c :: part) (List.cons_prefix_cons.2 ⟨rfl, hp⟩)
    by_cases hopen : isOpenBracket c
    · have hclose : ¬isCloseBracket c := fun hc => not_isOpenBracket_of_isCloseBracket hc hopen
      have hrest := @ih (depth + 1) fun part hp => by
        have := hpart part hp
        rw [List.countP_cons_of_neg hclose, List.countP_cons_of_pos hopen] at this
        omega
      rw [depthAfter_cons_of_isOpenBracket hopen, List.countP_cons_of_neg hclose,
        List.countP_cons_of_pos hopen]
      omega
    by_cases hclose : isCloseBracket c
    · -- one bracket at least is open, so it is counted
      have hpos := hpart [] (List.nil_prefix ..)
      rw [List.countP_cons_of_pos hclose, List.countP_cons_of_neg hopen, List.countP_nil,
        List.countP_nil] at hpos
      have hrest := @ih (depth - 1) fun part hp => by
        have := hpart part hp
        rw [List.countP_cons_of_pos hclose, List.countP_cons_of_neg hopen] at this
        omega
      rw [depthAfter_cons_of_isCloseBracket hclose, List.countP_cons_of_pos hclose,
        List.countP_cons_of_neg hopen]
      omega
    · have hrest := @ih depth fun part hp => by
        have := hpart part hp
        rwa [List.countP_cons_of_neg hclose, List.countP_cons_of_neg hopen] at this
      rw [depthAfter, List.foldl_cons, if_neg hopen, if_neg hclose,
        List.countP_cons_of_neg hclose, List.countP_cons_of_neg hopen]
      exact hrest

theorem Balanced.depthAfter_eq_zero (h : Balanced brackets) : depthAfter 0 brackets = 0 := by
  have hsum := @depthAfter_add 0 _ (by simpa using h.opened)
  have := h.closed
  omega

/-! ## Tokens -/

namespace Token

variable {line : Text} {token : Token}

theorem bracket?_of_text? (hc : token.category = .bracket)
    (ht : token.text? line = some [c]) : token.bracket? line = some c := by
  rw [bracket?, if_pos hc, ht]
  rfl

theorem bracket?_of_category (h : token.category ≠ .bracket) : token.bracket? line = none :=
  if_neg h

end Token

/-- A token changes the depth only if it is a bracket. -/
theorem TokenStep.LockEffect.depth_after {step : TokenStep} (h : step.LockEffect) :
    step.after.depth =
      depthAfter step.before.depth (step.token.bracket? step.line).toList := by
  cases h with
  | opens ho _ hlocks =>
    obtain ⟨hcategory, c, hc, ht⟩ := ho
    rw [Token.bracket?_of_text? hcategory ht, Option.toList_some,
      depthAfter_cons_of_isOpenBracket hc, Context.depth, hlocks]
    rfl
  | closes hclose _ hlocks =>
    obtain ⟨hcategory, c, hc, ht⟩ := hclose
    rw [Token.bracket?_of_text? hcategory ht, Option.toList_some,
      depthAfter_cons_of_isCloseBracket hc, Context.depth, hlocks, Context.depth]
    cases step.before.locks <;> rfl
  | comma hcomma _ hlocks =>
    rw [Token.bracket?_of_category (by simp [hcomma.1]), Context.depth, hlocks]
    rfl
  | comment hc _ hlocks | keyword hc _ _ hlocks =>
    rw [Token.bracket?_of_category (by simp [hc]), Context.depth, hlocks]
    rfl
  | other hc _ _ hlocks =>
    rw [Token.bracket?_of_category (fun hb => hc (by simp [hb])), Context.depth, hlocks]
    rfl

/-- Along a run, the depth follows the brackets among the tokens. -/
theorem LockRun.length_final {start final : Locks} {steps : List TokenStep}
    (h : LockRun start steps final) : final.length =
      depthAfter start.length (steps.filterMap fun step => step.token.bracket? step.line) := by
  induction h with
  | nil => rfl
  | @cons step steps final he _ ih =>
    have hstep : step.after.locks.length = _ := he.depth_after
    rw [ih, hstep, ← depthAfter_append, List.filterMap_cons]
    cases step.token.bracket? step.line <;> rfl

namespace Lexer

/-- The brackets of the steps on a line are those of its tokens. -/
theorem filterMap_bracket?_trace (ctx : Context) (line : Text) :
    ((ofLine line ctx).trace.filterMap fun step => step.token.bracket? step.line) =
      (tokenizeLine ctx line).1.filterMap (Token.bracket? line) := by
  rw [← map_token_trace_ofLine, List.filterMap_map]
  refine List.filterMap_congr fun step hmem => ?_
  rw [line_of_mem_trace hmem]
  rfl

/-- Over a line, the depth follows the brackets among its tokens. -/
theorem depth_tokenizeLine (ctx : Context) (line : Text) :
    (tokenizeLine ctx line).2.depth =
      depthAfter ctx.depth ((tokenizeLine ctx line).1.filterMap (Token.bracket? line)) := by
  rw [← filterMap_bracket?_trace]
  exact (lockRun_trace_ofLine ctx line).length_final

/-- A token of a line that is a bracket opens or closes. -/
theorem isBracket_of_mem_tokenizeLine {ctx : Context} {line : Text} {token : Token}
    (h : token ∈ (tokenizeLine ctx line).1) (hc : token.category = .bracket) :
    token.IsOpenBracket line ∨ token.IsCloseBracket line := by
  rw [← map_token_trace_ofLine] at h
  obtain ⟨step, hmem, rfl⟩ := List.mem_map.1 h
  have hstep := ((lockRun_trace_ofLine ctx line).lockEffect hmem).of_bracket hc
  rwa [line_of_mem_trace hmem] at hstep

end Lexer

/-! ## Lines and documents -/

/-- Over lines read in order, the depth follows the brackets among their tokens. -/
theorem ReadFrom.depth_final {ctx final : Context} {lines : List DocumentLine}
    (h : ReadFrom ctx lines final) : final.depth = depthAfter ctx.depth (bracketsOf lines) := by
  induction h with
  | nil => rfl
  | @cons ctx final text rest _ ih =>
    rw [ih, Lexer.depth_tokenizeLine, bracketsOf, bracketsOf, List.flatMap_cons, depthAfter_append]

/-- The tokens of a line that was read in order are those of its text in some context. -/
theorem ReadFrom.exists_tokens_eq {ctx final : Context} {lines : List DocumentLine}
    {line : DocumentLine} (h : ReadFrom ctx lines final) (hmem : line ∈ lines) :
    ∃ before, line.tokens = (tokenizeLine before line.text).1 := by
  induction h with
  | nil => cases hmem
  | @cons ctx _ _ _ _ ih =>
    rcases List.mem_cons.1 hmem with rfl | hmem
    · exact ⟨ctx, rfl⟩
    · exact ih hmem

/-- No two tokens of a line have a place in common. -/
theorem CoversLine.disjoint {line : Text} {tokens : List Token} {token other : Token}
    (h : CoversLine line tokens) (ht : token ∈ tokens) (ho : other ∈ tokens) (hne : token ≠ other) :
    token.span.stop ≤ other.span.start ∨ other.span.stop ≤ token.span.start := by
  have hdisjoint : tokens.Pairwise fun token other =>
      token.span.stop ≤ other.span.start ∨ other.span.stop ≤ token.span.start :=
    h.ordered.imp Or.inl
  have hsymm : Std.Symm fun token other : Token =>
      token.span.stop ≤ other.span.start ∨ other.span.stop ≤ token.span.start :=
    ⟨fun _ _ => Or.symm⟩
  exact hdisjoint.forall ht ho hne

namespace Document

/-- How deep brackets are open in the document of a text, before each line and at its end, is
    what comes of counting the brackets among its tokens, each of which opens or closes; so at
    the end none is open if they are balanced. What stands in literals and comments is none of
    them. -/
theorem depth_eq_depthAfter (path source : Text) :
    let document := ofText source
    document.final.depth = depthAfter 0 (bracketsOf document.lines) ∧
    (Summary.ofSource path source).openBrackets = depthAfter 0 (bracketsOf document.lines) ∧
    (∀ i, (document.contextBefore i).depth =
      depthAfter 0 (bracketsOf (document.lines.take i))) ∧
    (Balanced (bracketsOf document.lines) → document.final.depth = 0) ∧
    ∀ line ∈ document.lines, ∀ token ∈ line.tokens, token.category = .bracket →
      (token.IsOpenBracket line.text ∨ token.IsCloseBracket line.text) ∧
      ∀ other ∈ line.tokens, other.category ∈ [.string, .comment] →
        token.span.stop ≤ other.span.start ∨ other.span.stop ≤ token.span.start := by
  intro document
  have hc : document.Coherent := coherent_ofText source
  have hfinal : document.final.depth = depthAfter 0 (bracketsOf document.lines) :=
    ReadFrom.depth_final hc
  refine ⟨hfinal, hfinal, fun i => (hc.readFrom_take i).1.depth_final, fun hb => ?_, ?_⟩
  · rw [hfinal, hb.depthAfter_eq_zero]
  · intro line hline token ht hbracket
    obtain ⟨before, htokens⟩ := ReadFrom.exists_tokens_eq hc hline
    rw [htokens] at ht ⊢
    refine ⟨Lexer.isBracket_of_mem_tokenizeLine ht hbracket, fun other ho hcategory => ?_⟩
    refine (Lexer.coversLine_tokenizeLine before line.text).disjoint ht ho ?_
    rintro rfl
    simp [hbracket] at hcategory

end Document

end Highlighter
