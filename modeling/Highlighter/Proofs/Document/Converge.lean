import Highlighter.Proofs.Document.Repaint
import Highlighter.Proofs.Lexer.Carried

/-!
# How soon an edit makes no difference

After the lines inserted, reading goes on until a context comes out as it was kept. If the two
contexts at the end of the lines inserted carry the same, and no literal is open there, then they
are the same to the line that follows (`Lexer.tokenizeLine_of_not_inLiteral`): after it at the
latest, reading stops (`count_relex_eq`).
-/

namespace Highlighter.Document

variable {dirty : Nat} {ctx c final : Context} {lines : List DocumentLine}

/-- Where reading may stop, after some of the lines have been read. -/
theorem mayStop_add (hd : dirty ≤ lines.length) (k : Nat) :
    MayStop ctx lines (dirty + k) ↔
      MayStop (contextAfter ctx ((lines.take dirty).map (·.text))) (lines.drop dirty) k := by
  have hlength : dirty + k = lines.length ↔ k = lines.length - dirty := by omega
  rw [MayStop, MayStop, List.take_add, List.map_append, contextAfter_append, List.getElem?_drop,
    List.length_drop, hlength]

/-- Reading stops after the dirty lines or one line later, if the lines after them were read in
    a context outside literals that carries the same as the one that comes out. -/
theorem count_relex_eq (ctx : Context) (hd : dirty < lines.length)
    (hkept : ReadFrom c (lines.drop dirty) final)
    (hc : c.CarriesSame (contextAfter ctx ((lines.take dirty).map (·.text))))
    (hl : ¬c.inLiteral) :
    (relex dirty ctx lines).count = dirty ∨ (relex dirty ctx lines).count = dirty + 1 := by
  have hstop : MayStop ctx lines (dirty + 1) := by
    rw [mayStop_add hd.le]
    generalize contextAfter ctx ((lines.take dirty).map (·.text)) = computed at hc ⊢
    obtain ⟨line, rest, hdrop⟩ :=
      List.exists_cons_of_ne_nil (mt List.drop_eq_nil_iff.1 (Nat.not_le_of_lt hd))
    rw [hdrop] at hkept ⊢
    cases hkept with
    | cons hrest =>
      rw [mayStop_succ, ← Lexer.tokenizeLine_of_not_inLiteral hc hl]
      cases hrest with
      | nil => exact .inl rfl
      | cons => exact mayStop_zero.2 rfl
  obtain ⟨⟨hle, -⟩, hmin⟩ := isLeast_count_relex ctx hd.le
  have hge : (relex dirty ctx lines).count ≤ dirty + 1 := hmin ⟨Nat.le_succ dirty, hstop⟩
  omega

/-- Only what contexts carry has a bearing on lines: contexts that carry the same give the same
    tokens on all lines and carry the same after them, and outside literals they are equal after
    one line. So an edit repaints at most one line after those inserted, if outside literals the
    context that comes out there carries the same as the one that was kept. -/
theorem carriesSame_converges :
    (∀ (c c' : Context) (texts : List Text), c.CarriesSame c' →
      tokensOfLines c texts = tokensOfLines c' texts ∧
      (contextAfter c texts).CarriesSame (contextAfter c' texts) ∧
      (¬c.inLiteral → ∀ line, (tokenizeLine c line).2 = (tokenizeLine c' line).2)) ∧
    ∀ (document : Document) (index remove : Nat) (insert : List Text) (edited : Edited),
      document.Reachable → document.splice index remove insert = .ok edited →
      index + insert.length < edited.document.lineCount →
      let computed := contextAfter (document.contextBefore index) insert
      let kept := document.contextBefore (index + remove)
      computed.literal = none → kept.literal = none → computed.locks = kept.locks →
      edited.repaint.stop = index + insert.length ∨
        edited.repaint.stop = index + insert.length + 1 := by
  constructor
  · intro c c' texts h
    obtain ⟨htokens, hafter⟩ := Lexer.tokensOfLines_eq h texts
    exact ⟨htokens, hafter, fun hl line => by rw [Lexer.tokenizeLine_of_not_inLiteral h hl]⟩
  · intro document index remove insert edited hr h hlt computed kept hcomputed hkept hlocks
    have htake : ((document.toRead index remove insert).take insert.length).map (·.text) =
        insert := by
      rw [List.map_take, map_text_toRead, List.take_left]
    have hdrop : (document.toRead index remove insert).drop insert.length =
        document.lines.drop (index + remove) := by
      rw [toRead, List.drop_left' (List.length_map _)]
    have hl : ¬kept.inLiteral := by simp [Context.inLiteral, hkept]
    have hsame : kept.CarriesSame computed :=
      ⟨hkept.trans hcomputed.symm, hlocks.symm, fun hin => absurd hin hl⟩
    obtain ⟨-, -, -, -, hstop⟩ := splice_eq_ok h
    rw [lineCount_splice h, Nat.add_lt_add_iff_left] at hlt
    have hcount := count_relex_eq (document.contextBefore index) hlt
      (hdrop ▸ (hr.coherent.readFrom_take (index + remove)).2) (by rwa [htake]) hl
    rw [hstop, spliced]
    omega

/-- A dot at the end of a line makes a difference to the context, but none to the next line. -/
theorem carriesSame_converges_dot :
    let quoted : Context := { literal := some ⟨.double, 0⟩ }
    let dotted : Context := { literal := some ⟨.double, 0⟩, afterDot := true }
    let texts : List Text := ["a\" f x".toList, "g".toList]
    tokensOfLines quoted texts = tokensOfLines dotted texts ∧
    ∃ edited, (ofText "x\ny\nz".toList).splice 0 1 ["x.".toList] = .ok edited ∧
      contextAfter {} ["x.".toList] ≠ (ofText "x\ny\nz".toList).contextBefore 1 ∧
      (edited.repaint.stop = 1 ∨ edited.repaint.stop = 2) := by
  intro quoted dotted texts
  obtain ⟨hsame, hsplice⟩ := carriesSame_converges
  obtain ⟨edited, h⟩ := exists_splice_eq_ok
    (show 0 + 1 ≤ (ofText "x\ny\nz".toList).lineCount by decide +kernel) ["x.".toList]
  have hcount : edited.document.lineCount = 3 := by
    rw [lineCount_splice h]
    decide +kernel
  refine ⟨(hsame quoted dotted texts ⟨rfl, rfl, fun _ => rfl⟩).1, edited, h, by decide +kernel, ?_⟩
  exact hsplice _ 0 1 _ edited (.ofText _) h (by rw [hcount]; decide) (by decide +kernel)
    (by decide +kernel) (by decide +kernel)

end Highlighter.Document
