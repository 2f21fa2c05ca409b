import Highlighter.Proofs.Reading
import Mathlib.Order.Bounds.Basic

/-!
# Reading lines again

What `Document.relex` does, for any lines, whether or not what is kept for them holds:

* it stops as soon as it may (`isLeast_count_relex`), i.e., after the dirty lines, at the
  end or before a line for which the context is kept that comes out (`MayStop`);
* it leaves the lines from there on as they are (`drop_lines_relex`), and so the context
  after the last line, unless it gets there (`final?_relex_eq_none`).

If what is kept for the lines that are not dirty follows from reading them in *some*
context, then it does not matter where reading stops: in the end all lines are as if
read from the context given, and so is the context after the last one
(`readFrom_relex`).
-/

namespace Highlighter.Document

variable {dirty : Nat} {ctx : Context} {line : DocumentLine} {lines rest : List DocumentLine}

/-! ### One line -/

theorem relex_nil (dirty : Nat) (ctx : Context) : relex dirty ctx [] = ⟨[], 0, some ctx⟩ := by
  cases dirty <;> rfl

/-- Reading stops before a line whose context is kept. -/
theorem relex_cons_stop (h : line.before = ctx) :
    relex 0 ctx (line :: rest) = ⟨line :: rest, 0, none⟩ := by
  simp [relex, h]

/-- Reading goes on with a line that is dirty, or whose context comes out otherwise. -/
theorem relex_cons_read (h : ¬(dirty = 0 ∧ line.before = ctx)) :
    relex dirty ctx (line :: rest) =
      let read := tokenizeLine ctx line.text
      let following := relex (dirty - 1) read.2 rest
      ⟨⟨line.text, ctx, read.1⟩ :: following.lines, following.count + 1, following.final?⟩ := by
  rw [relex, if_neg h]

/-! ### Any lines -/

/-- Reading may stop at the line `k`: there is none, or the context kept for it comes out. -/
def MayStop (ctx : Context) (lines : List DocumentLine) (k : Nat) : Prop :=
  k = lines.length ∨
    lines[k]?.map (·.before) = some (contextAfter ctx ((lines.take k).map (·.text)))

theorem mayStop_zero : MayStop ctx (line :: rest) 0 ↔ line.before = ctx := by
  simp [MayStop]

theorem mayStop_succ {k : Nat} :
    MayStop ctx (line :: rest) (k + 1) ↔ MayStop (tokenizeLine ctx line.text).2 rest k := by
  simp [MayStop]

/-- Reading keeps the texts. -/
theorem map_text_lines_relex (dirty : Nat) (ctx : Context) (lines : List DocumentLine) :
    (relex dirty ctx lines).lines.map (·.text) = lines.map (·.text) := by
  induction lines generalizing dirty ctx with
  | nil => rw [relex_nil]
  | cons line rest ih =>
    by_cases h : dirty = 0 ∧ line.before = ctx
    · obtain ⟨rfl, hb⟩ := h
      rw [relex_cons_stop hb]
    · rw [relex_cons_read h]
      exact congrArg (line.text :: ·) (ih _ _)

/-- The lines from where reading stops are left as they are. -/
theorem drop_lines_relex (dirty : Nat) (ctx : Context) (lines : List DocumentLine) :
    (relex dirty ctx lines).lines.drop (relex dirty ctx lines).count =
      lines.drop (relex dirty ctx lines).count := by
  induction lines generalizing dirty ctx with
  | nil => rw [relex_nil]
  | cons line rest ih =>
    by_cases h : dirty = 0 ∧ line.before = ctx
    · obtain ⟨rfl, hb⟩ := h
      rw [relex_cons_stop hb]
    · rw [relex_cons_read h]
      exact ih _ _

/-- No context comes out where reading stops before the last line. -/
theorem final?_relex_eq_none {dirty : Nat} {ctx : Context} {lines : List DocumentLine}
    (h : (relex dirty ctx lines).count < lines.length) :
    (relex dirty ctx lines).final? = none := by
  induction lines generalizing dirty ctx with
  | nil => exact absurd h (Nat.not_lt_zero _)
  | cons line rest ih =>
    by_cases hs : dirty = 0 ∧ line.before = ctx
    · obtain ⟨rfl, hb⟩ := hs
      rw [relex_cons_stop hb]
    · rw [relex_cons_read hs] at h ⊢
      exact ih (Nat.lt_of_succ_lt_succ h)

/-- Reading stops as soon as it may, after the dirty lines. -/
theorem isLeast_count_relex (ctx : Context) (h : dirty ≤ lines.length) :
    IsLeast {k | dirty ≤ k ∧ MayStop ctx lines k} (relex dirty ctx lines).count := by
  induction lines generalizing dirty ctx with
  | nil =>
    obtain rfl : dirty = 0 := Nat.le_zero.1 h
    rw [relex_nil]
    exact ⟨⟨Nat.le_refl _, .inl rfl⟩, fun k _ => Nat.zero_le k⟩
  | cons line rest ih =>
    by_cases hs : dirty = 0 ∧ line.before = ctx
    · obtain ⟨rfl, hb⟩ := hs
      rw [relex_cons_stop hb]
      exact ⟨⟨Nat.le_refl _, mayStop_zero.2 hb⟩, fun k _ => Nat.zero_le k⟩
    · rw [relex_cons_read hs]
      obtain ⟨⟨hd, hc⟩, hmin⟩ := ih (tokenizeLine ctx line.text).2 (Nat.sub_le_of_le_add h)
      refine ⟨⟨Nat.le_add_of_sub_le hd, mayStop_succ.2 hc⟩, fun k ⟨hk, hck⟩ => ?_⟩
      cases k with
      | zero =>
        -- reading would have stopped right here
        exact absurd ⟨Nat.le_zero.1 hk, mayStop_zero.1 hck⟩ hs
      | succ k => exact Nat.succ_le_succ (hmin ⟨Nat.sub_le_of_le_add hk, mayStop_succ.1 hck⟩)

/-- If what is kept for the lines after the dirty ones holds in some context, then what
    comes of reading them all again holds in the context where reading starts. -/
theorem readFrom_relex {c final : Context} (ctx : Context)
    (h : ReadFrom c (lines.drop dirty) final) :
    ReadFrom ctx (relex dirty ctx lines).lines ((relex dirty ctx lines).final?.getD final) := by
  induction lines generalizing dirty ctx c with
  | nil =>
    rw [relex_nil]
    exact .nil
  | cons line rest ih =>
    by_cases hs : dirty = 0 ∧ line.before = ctx
    · -- `ctx` is the context in which the lines have been read already
      obtain ⟨rfl, hb⟩ := hs
      rw [relex_cons_stop hb]
      cases h with
      | cons h =>
        obtain rfl := hb
        exact .cons h
    · rw [relex_cons_read hs]
      cases dirty with
      | zero =>
        cases h with
        | cons h => exact .cons (ih _ h)
      | succ n => exact .cons (ih _ h)

end Highlighter.Document
