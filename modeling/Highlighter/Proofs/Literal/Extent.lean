import Highlighter.Literal
import Mathlib.Order.Nat

/-!
# The extent of a literal

Where a literal ends, in closed form. Its text on a line is read from left to right:
the closing sequence is tried first, then the escape, and otherwise a character goes
by. Seen from the outside, a run of escape marks is cut into *blocks*, each an escape
with the mark that it escapes; if the run is one mark short of whole blocks, its last
escape takes the character after the run. So a closing sequence counts unless the run
directly before it is of that length (`ClosesAt`), and the literal ends after the first
that counts (`widthWithin?_eq_some_iff`).

The reader is followed by an invariant that says where in a block it is
(`InBlock`): the part of the current run that has been passed makes whole blocks, or a
block begun whose rest is to be taken along, or the run ends before its next escape is
complete.
-/

namespace Highlighter.Literal

variable {l : Literal} {c : Char} {passed text rest : Text} {taken n : Nat}

/-! ## Runs of escape marks -/

@[simp] theorem runLength_nil : runLength [] = 0 := rfl

@[simp] theorem runLength_cons_mark (text : Text) :
    runLength (escapeMark :: text) = runLength text + 1 := by
  simp [runLength]

theorem runLength_cons_of_ne (h : c ≠ escapeMark) : runLength (c :: text) = 0 := by
  simp [runLength, h]

theorem char_ne_escapeMark (q : Quote) : q.char ≠ escapeMark := by
  cases q <;> decide

/-- A text begins with the escape marks of its run, and no more. -/
theorem replicate_prefix_iff :
    List.replicate n escapeMark <+: text ↔ n ≤ runLength text := by
  induction text generalizing n with
  | nil => cases n <;> simp [List.replicate_succ]
  | cons c text ih =>
    cases n with
    | zero => simp
    | succ n =>
      by_cases h : c = escapeMark
      · rw [h, List.replicate_succ, List.cons_prefix_cons, runLength_cons_mark, ih]
        simp
      · rw [runLength_cons_of_ne h, List.replicate_succ, List.cons_prefix_cons]
        simp [Ne.symm h]

/-! ## Opening -/

/-- What opens the literal. -/
def opening (l : Literal) : Text :=
  List.replicate l.escapeRun escapeMark ++ [l.quote.char]

theorem length_opening (l : Literal) : l.opening.length = l.openingWidth := by
  simp [opening, openingWidth]

theorem runLength_opening (l : Literal) (body : Text) :
    runLength (l.opening ++ body) = l.escapeRun := by
  rw [opening, List.append_assoc]
  induction l.escapeRun with
  | zero => exact runLength_cons_of_ne (char_ne_escapeMark _)
  | succ n ih => rw [List.replicate_succ, List.cons_append, runLength_cons_mark, ih]

/-- A text opens the literal with whose opening it begins. -/
theorem open?_opening (l : Literal) (body : Text) : open? (l.opening ++ body) = some l := by
  rw [open?, runLength_opening, opening, List.append_assoc,
    List.drop_left' (List.length_replicate ..)]
  obtain ⟨_ | _, n⟩ := l <;> rfl

/-- The opening of a literal begins with an escape mark or with the quote. -/
theorem head_of_opening (h : c :: rest = l.opening ++ text) :
    c = escapeMark ∨ c = l.quote.char := by
  rw [opening] at h
  cases hn : l.escapeRun with
  | zero =>
    rw [hn] at h
    exact .inr (List.cons.inj h).1
  | succ n =>
    rw [hn] at h
    exact .inl (List.cons.inj h).1

theorem char_of_ofChar? {q : Quote} (h : Quote.ofChar? c = some q) : q.char = c := by
  rw [Quote.ofChar?] at h
  split_ifs at h with h₁ h₂
  · cases h
    exact h₁.symm
  · cases h
    exact h₂.symm

/-- Only the literal with whose opening a text begins is opened by it. -/
theorem open?_eq_some_iff : open? text = some l ↔ ∃ body, text = l.opening ++ body := by
  constructor
  · intro h
    obtain ⟨quote, hquote, rfl⟩ := Option.map_eq_some_iff.1 h
    obtain ⟨c, hc, hq⟩ := Option.bind_eq_some_iff.1 hquote
    obtain rfl : quote.char = c := char_of_ofChar? hq
    obtain ⟨after, hafter⟩ := replicate_prefix_iff.2 (Nat.le_refl (runLength text))
    generalize runLength text = run at hafter hc
    rw [← hafter, List.drop_left' (List.length_replicate ..)] at hc
    obtain ⟨body, rfl⟩ := List.head?_eq_some_iff.1 hc
    exact ⟨body, by rw [← hafter, opening, List.append_assoc]; rfl⟩
  · rintro ⟨body, rfl⟩
    exact open?_opening l body

/-! ## Closing -/

/-- The number of escape marks that take the next character into a literal with
    double quotes. -/
def escapeWidth (l : Literal) : Nat :=
  max l.escapeRun 1

theorem escapeWidth_pos (l : Literal) : 0 < l.escapeWidth :=
  Nat.lt_of_lt_of_le Nat.one_pos (Nat.le_max_right ..)

/-- The literal is closed by the closing sequence at a place of its text on a line: in a
    literal with double quotes, the run of escape marks directly before does not end with
    an escape that takes the quote. -/
def ClosesAt (l : Literal) (body : Text) (p : Nat) : Prop :=
  l.closing <+: body.drop p ∧
    (l.quote = .backtick ∨
      runLength (body.take p).reverse % (l.escapeWidth + 1) ≠ l.escapeWidth)

/-- In a literal with double quotes, an escape is begun where enough marks stand. -/
theorem takenAlong_double (h : l.quote = .double) (text : Text) :
    l.takenAlong text = if l.escapeWidth ≤ runLength text then l.escapeWidth else 0 := by
  have hmark : l.escape? = some (List.replicate l.escapeWidth escapeMark) := by
    rw [escape?, h]
    rfl
  rw [takenAlong, hmark]
  dsimp only
  rw [List.length_replicate]
  exact if_congr (List.isPrefixOf_iff_prefix.trans replicate_prefix_iff) rfl rfl

theorem takenAlong_backtick (h : l.quote = .backtick) (text : Text) : l.takenAlong text = 0 := by
  simp [takenAlong, escape?, h]

/-! ## Blocks -/

/-- How much of a block is passed, where the text passed is given nearest first. -/
def place (l : Literal) (passed : Text) : Nat :=
  runLength passed % (l.escapeWidth + 1)

theorem place_cons_mark (l : Literal) (passed : Text) :
    l.place (escapeMark :: passed) =
      if l.place passed = l.escapeWidth then 0 else l.place passed + 1 := by
  rw [place, place, runLength_cons_mark]
  split
  · exact Nat.succ_mod_succ_eq_zero_iff.2 ‹_›
  · have hlt : runLength passed % (l.escapeWidth + 1) < l.escapeWidth + 1 :=
      Nat.mod_lt _ (Nat.succ_pos _)
    rw [← Nat.mod_add_mod, Nat.mod_eq_of_lt (by omega)]

theorem place_cons_of_ne (h : c ≠ escapeMark) : l.place (c :: passed) = 0 := by
  rw [place, runLength_cons_of_ne h, Nat.zero_mod]

/-- Where the reader of a literal is, with a number of characters still to be taken
    along: in a literal without escapes, between blocks, among the marks at the end of a
    run that are too few for an escape, or inside a block. -/
inductive InBlock (l : Literal) (passed text : Text) : Nat → Prop
  | raw : l.quote = .backtick → InBlock l passed text 0
  | between : l.place passed = 0 → InBlock l passed text 0
  | tail : l.place passed + runLength text < l.escapeWidth → InBlock l passed text 0
  | inside {taken : Nat} : l.quote = .double → l.place passed + taken = l.escapeWidth →
    taken ≤ runLength text → InBlock l passed text (taken + 1)

/-- A character that is taken along keeps the reader in its block. -/
theorem InBlock.step_taken (h : InBlock l passed (c :: rest) (taken + 1)) :
    InBlock l (c :: passed) rest taken := by
  cases h with
  | inside hq hp ht =>
    by_cases hc : c = escapeMark
    · subst hc
      rw [runLength_cons_mark] at ht
      cases taken with
      | zero => exact .between ((place_cons_mark ..).trans (if_pos hp))
      | succ taken =>
        refine .inside hq ?_ (Nat.le_of_succ_le_succ ht)
        rw [place_cons_mark, if_neg (by omega)]
        omega
    · -- only the last character of a block may be no mark
      rw [runLength_cons_of_ne hc] at ht
      obtain rfl := Nat.le_zero.1 ht
      exact .between (place_cons_of_ne hc)

/-- A character that goes by begins a block, or does not. -/
theorem InBlock.step (h : InBlock l passed (c :: rest) 0) :
    InBlock l (c :: passed) rest (l.takenAlong (c :: rest)) := by
  have he := l.escapeWidth_pos
  cases hq : l.quote with
  | backtick =>
    rw [takenAlong_backtick hq]
    exact .raw hq
  | double =>
    rw [takenAlong_double hq]
    by_cases hc : c = escapeMark
    · subst hc
      have hplace : l.place passed = 0 ∨
          l.place passed + (runLength rest + 1) < l.escapeWidth := by
        rw [← runLength_cons_mark]
        cases h with
        | raw hq' => rw [hq] at hq'; cases hq'
        | between hp => exact .inl hp
        | tail hp => exact .inr hp
      have hnext : l.place (escapeMark :: passed) = l.place passed + 1 := by
        rw [place_cons_mark, if_neg (by omega)]
      rw [runLength_cons_mark]
      split
      · rw [← Nat.sub_add_cancel he]
        exact .inside hq (by omega) (by omega)
      · exact .tail (by omega)
    · rw [runLength_cons_of_ne hc, if_neg (by omega)]
      exact .between (place_cons_of_ne hc)

/-! ## The end -/

/-- The place of a closing sequence that counts, where the text passed is known. -/
def ClosesAfter (l : Literal) (passed text : Text) (p : Nat) : Prop :=
  l.closing <+: text.drop p ∧
    (l.quote = .backtick ∨ l.place ((text.take p).reverse ++ passed) ≠ l.escapeWidth)

theorem closesAt_iff {p : Nat} : l.ClosesAt text p ↔ l.ClosesAfter [] text p := by
  simp [ClosesAt, ClosesAfter, place]

theorem closesAfter_succ {p : Nat} :
    l.ClosesAfter passed (c :: rest) (p + 1) ↔ l.ClosesAfter (c :: passed) rest p := by
  simp [ClosesAfter]

/-- A closing sequence counts if the reader takes no character along there. -/
theorem closesAfter_zero (h : InBlock l passed text taken) :
    l.ClosesAfter passed text 0 ↔ taken = 0 ∧ l.closing <+: text := by
  have he := l.escapeWidth_pos
  have hrun : l.closing <+: text → runLength text = 0 := by
    rintro ⟨after, rfl⟩
    exact runLength_cons_of_ne (char_ne_escapeMark _)
  simp only [ClosesAfter, List.drop_zero, List.take_zero, List.reverse_nil, List.nil_append]
  cases h with
  | raw hq => simp [hq]
  | between hp => simp [hp, he.ne]
  | tail hp => simp [show l.place passed ≠ l.escapeWidth by omega]
  | inside hq hp ht =>
    simp only [hq, reduceCtorEq, false_or, Nat.succ_ne_zero, false_and, iff_false, not_and,
      not_not]
    intro hc
    have := hrun hc
    omega

/-- Where no closing sequence counts right here, the first one is one character further. -/
theorem isLeast_closesAfter_succ {p : Nat} (h : ¬l.ClosesAfter passed (c :: rest) 0) :
    IsLeast {p | l.ClosesAfter passed (c :: rest) p} (p + 1) ↔
      IsLeast {p | l.ClosesAfter (c :: passed) rest p} p := by
  constructor
  · rintro ⟨hp, hmin⟩
    exact ⟨closesAfter_succ.1 hp,
      fun q hq => Nat.le_of_succ_le_succ (hmin (closesAfter_succ.2 hq))⟩
  · rintro ⟨hp, hmin⟩
    refine ⟨closesAfter_succ.2 hp, fun q hq => ?_⟩
    cases q with
    | zero => exact absurd hq h
    | succ q => exact Nat.succ_le_succ (hmin (closesAfter_succ.1 hq))

/-- Where no closing sequence counts right here, the reader goes on by one character. -/
theorem InBlock.exists_step (h : InBlock l passed (c :: rest) taken)
    (hz : ¬l.ClosesAfter passed (c :: rest) 0) :
    ∃ taken', InBlock l (c :: passed) rest taken' ∧
      l.widthAfter? taken (c :: rest) = (l.widthAfter? taken' rest).map (· + 1) := by
  cases taken with
  | succ taken => exact ⟨taken, h.step_taken, rfl⟩
  | zero =>
    refine ⟨_, h.step, ?_⟩
    rw [widthAfter?, if_neg]
    intro hp
    exact hz ((closesAfter_zero h).2 ⟨rfl, List.isPrefixOf_iff_prefix.1 hp⟩)

/-- The width found is that up to the end of the first closing sequence that counts. -/
theorem widthAfter?_eq_some_iff {w : Nat} (h : InBlock l passed text taken) :
    l.widthAfter? taken text = some w ↔
      ∃ p, IsLeast {p | l.ClosesAfter passed text p} p ∧ p + l.closing.length = w := by
  induction text generalizing passed taken w with
  | nil =>
    have hnone : l.widthAfter? taken [] = none := by cases taken <;> rfl
    simp only [hnone, reduceCtorEq, false_iff, not_exists, not_and]
    rintro p ⟨⟨hp, -⟩, -⟩
    simp [closing] at hp
  | cons c rest ih =>
    by_cases hz : l.ClosesAfter passed (c :: rest) 0
    · obtain ⟨rfl, hp⟩ := (closesAfter_zero h).1 hz
      rw [widthAfter?, if_pos (List.isPrefixOf_iff_prefix.2 hp), Option.some.injEq]
      constructor
      · intro hw
        exact ⟨0, ⟨hz, fun _ _ => Nat.zero_le _⟩, by rw [Nat.zero_add, hw]⟩
      · rintro ⟨p, ⟨-, hmin⟩, hw⟩
        rw [← hw, Nat.le_zero.1 (hmin hz), Nat.zero_add]
    · obtain ⟨taken', h', hstep⟩ := h.exists_step hz
      rw [hstep, Option.map_eq_some_iff]
      constructor
      · rintro ⟨n, hn, rfl⟩
        obtain ⟨p, hp, rfl⟩ := (ih h').1 hn
        exact ⟨p + 1, (isLeast_closesAfter_succ hz).2 hp, Nat.succ_add ..⟩
      · rintro ⟨_ | p, hp, rfl⟩
        · exact absurd hp.1 hz
        · exact ⟨p + l.closing.length,
            (ih h').2 ⟨p, (isLeast_closesAfter_succ hz).1 hp, rfl⟩, (Nat.succ_add ..).symm⟩

/-- A literal that is open where a text begins ends in it after the first closing
    sequence that counts. -/
theorem widthWithin?_eq_some_iff {w : Nat} :
    l.widthWithin? text = some w ↔
      ∃ p, IsLeast {p | l.ClosesAt text p} p ∧ p + l.closing.length = w := by
  simp only [closesAt_iff]
  exact widthAfter?_eq_some_iff (.between (Nat.zero_mod _))

/-- A literal that is open where a text begins goes on beyond it if no closing sequence
    counts. -/
theorem widthWithin?_eq_none_iff : l.widthWithin? text = none ↔ ∀ p, ¬l.ClosesAt text p := by
  classical
  constructor
  · intro h p hp
    have hleast := Nat.isLeast_find ⟨p, hp⟩
    rw [widthWithin?_eq_some_iff.2 ⟨_, hleast, rfl⟩] at h
    cases h
  · intro h
    by_contra hne
    obtain ⟨w, hw⟩ := Option.ne_none_iff_exists'.1 hne
    obtain ⟨p, hp, -⟩ := widthWithin?_eq_some_iff.1 hw
    exact h p hp.1

/-! ## What comes after -/

/-- Whether a closing sequence counts is seen without what comes after it. -/
theorem closesAt_append {p : Nat} (hp : p + l.closing.length ≤ text.length) :
    l.ClosesAt (text ++ rest) p ↔ l.ClosesAt text p := by
  have hle : p ≤ text.length := Nat.le_of_add_right_le hp
  have hdrop : l.closing.length ≤ (text.drop p).length := by
    rw [List.length_drop]
    omega
  rw [ClosesAt, ClosesAt, List.drop_append_of_le_length hle, List.take_append_of_le_length hle,
    List.prefix_iff_eq_take, List.prefix_iff_eq_take, List.take_append_of_le_length hdrop]

/-- Whether a place is the first of its kind depends only on the places up to it. -/
theorem isLeast_of_iff {P Q : Nat → Prop} {p : Nat} (h : ∀ q ≤ p, P q ↔ Q q)
    (hp : IsLeast {q | P q} p) : IsLeast {q | Q q} p := by
  obtain ⟨hp, hmin⟩ := hp
  refine ⟨(h p le_rfl).1 hp, fun q hq => ?_⟩
  rcases le_total p q with hle | hle
  · exact hle
  · exact hmin ((h q hle).2 hq)

/-- Where a literal ends does not depend on what comes after its end. -/
theorem widthWithin?_append {w : Nat} (hw : w ≤ text.length) :
    l.widthWithin? (text ++ rest) = some w ↔ l.widthWithin? text = some w := by
  rw [widthWithin?_eq_some_iff, widthWithin?_eq_some_iff]
  refine exists_congr fun p => and_congr_left fun hp => ?_
  have hle : ∀ q ≤ p, l.ClosesAt (text ++ rest) q ↔ l.ClosesAt text q :=
    fun q hq => closesAt_append (by omega)
  exact ⟨isLeast_of_iff hle, isLeast_of_iff fun q hq => (hle q hq).symm⟩

end Highlighter.Literal
