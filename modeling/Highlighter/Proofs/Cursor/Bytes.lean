import Highlighter.Cursor.Bytes
import Highlighter.Proofs.Cursor
import Highlighter.Proofs.Text.Bytes

/-!
# What a number of bytes tells about characters

A cursor in bytes holds no character, and yet it never stands inside one: it is a view of the
characters of its line.

* Where it stands for a cursor in characters (`ByteCursor.ofCursor`), none of its functions is
  refused, and each does to bytes what its counterpart does to characters (`call_ofCursor`). All
  movements are movements by a number of characters (`exists_advanceBy_of_call`), so it goes on to
  stand for one (`exists_after_ofCursor`).
* What is looked up among bytes is what stands among the characters that remain, what is expected
  in bytes is passed in characters, and what has been passed since an earlier position can be cut
  off the line (`Views`). So it is after all calls (`views_after`).
-/

namespace Highlighter

/-! ## Parts of texts -/

namespace Text

variable {s t : Text}

/-- A part of a text that ends where its first part does is one of the first part. -/
theorem slice?_left {start : Nat} (h : start ≤ byteLength s) :
    slice? start (byteLength s) (s ++ t) = dropBytes? start s := by
  rw [slice?, if_pos h]
  fun_induction dropBytes? start s with
  | case1 s =>
    rw [dropBytes?.eq_1, Option.bind_some, Nat.sub_zero, takeBytes?_append]
  | case2 n => exact absurd h (Nat.not_succ_le_zero n)
  | case3 n c s hc ih =>
    rw [byteLength_cons] at h
    rw [List.cons_append, dropBytes?, if_pos hc, ← ih (by omega), byteLength_cons,
      show c.utf8Size + byteLength s - (n + 1) = byteLength s - (n + 1 - c.utf8Size) by omega]
  | case4 n c s hc => rw [List.cons_append, dropBytes?, if_neg hc, Option.bind_none]

end Text

namespace ByteCursor

/-- A cursor in characters, by the number of bytes before it. -/
def ofCursor (cursor : Cursor) : ByteCursor :=
  ⟨cursor.line, cursor.position⟩

/-- The cursor after a text that stands here. -/
def pass (cursor : ByteCursor) (text : Text) : ByteCursor :=
  { cursor with position := cursor.position + Text.byteLength text }

variable (cursor : Cursor)

/-! ## Questions -/

@[simp] theorem rest?_ofCursor : (ofCursor cursor).rest? = some cursor.rest :=
  cursor.dropBytes?_position

@[simp] theorem isAtEnd_ofCursor : (ofCursor cursor).isAtEnd = cursor.isAtEnd := by
  rw [isAtEnd, ofCursor, cursor.byteLength_line, Cursor.isAtEnd]
  cases hr : cursor.rest with
  | nil => exact decide_eq_true (Nat.le_refl _)
  | cons c rest =>
    have := Text.byteLength_pos (List.cons_ne_nil c rest)
    exact decide_eq_false (Nat.not_le_of_lt (Nat.lt_add_of_pos_right this))

/-- Looked up among bytes or among characters, a character ahead is the same. -/
@[simp] theorem peek?_ofCursor (offset : Nat) :
    (ofCursor cursor).peek? offset = some (cursor.peek offset) := by
  simp only [peek?, rest?_ofCursor, Option.bind_eq_bind, Option.bind_some]
  split
  next h =>
    rw [Bool.and_eq_true, decide_eq_true_eq] at h
    obtain ⟨b, hb, hc⟩ := Text.exists_byte_of_all_isAscii h.1 h.2
    rw [hb, Cursor.peek, hc]
    rfl
  next => rfl

@[simp] theorem startsWith?_ofCursor (expected : Text) :
    (ofCursor cursor).startsWith? expected = some (cursor.startsWith expected) := by
  rw [startsWith?, rest?_ofCursor, Option.map_some, Cursor.startsWith]
  congr 1
  rw [Bool.eq_iff_iff, List.isPrefixOf_iff_prefix, List.isPrefixOf_iff_prefix]
  exact Text.bytes_prefix_bytes

@[simp] theorem sliceFrom?_ofCursor (start : Nat) :
    (ofCursor cursor).sliceFrom? start = cursor.sliceFrom? start := by
  rw [sliceFrom?, Cursor.sliceFrom?, ofCursor, Cursor.line]
  split
  next h =>
    rw [cursor.position_eq_byteLength] at h ⊢
    exact Text.slice?_left h
  next h => exact if_neg h

/-! ## Movements -/

theorem ofCursor_advanceBy (count : Nat) :
    ofCursor (cursor.advanceBy count) = (ofCursor cursor).pass (cursor.rest.take count) := by
  rw [ofCursor, cursor.line_advanceBy, cursor.position_advanceBy]
  rfl

@[simp] theorem advance?_ofCursor :
    (ofCursor cursor).advance? = some (ofCursor cursor.advance) := by
  rw [advance?, rest?_ofCursor, Cursor.advance, ofCursor_advanceBy]
  cases cursor.rest <;> rfl

@[simp] theorem advanceBy?_ofCursor (count : Nat) :
    (ofCursor cursor).advanceBy? count = some (ofCursor (cursor.advanceBy count)) := by
  induction count generalizing cursor with
  | zero => rfl
  | succ count ih =>
    rw [advanceBy?, isAtEnd_ofCursor]
    split
    next h => rw [Cursor.advanceBy_of_rest_eq_nil (List.isEmpty_iff.1 h)]
    next => rw [advance?_ofCursor, Option.bind_some, ih, Cursor.advance,
        Cursor.advanceBy_advanceBy, Nat.add_comm]

@[simp] theorem skipToEnd_ofCursor : (ofCursor cursor).skipToEnd = ofCursor cursor.skipToEnd := by
  rw [Cursor.skipToEnd, ofCursor_advanceBy, List.take_length, skipToEnd, pass]
  exact congrArg (ByteCursor.mk cursor.line) cursor.byteLength_line

@[simp] theorem takeWhile?_ofCursor (isIn : Char → Bool) :
    (ofCursor cursor).takeWhile? isIn =
      some ((cursor.takeWhile isIn).1, ofCursor (cursor.takeWhile isIn).2) := by
  -- by the characters that remain, of which one is passed each time
  induction hr : cursor.rest generalizing cursor with
  | nil => rw [takeWhile?, isAtEnd_ofCursor]; simp [Cursor.isAtEnd, Cursor.takeWhile, hr]
  | cons c rest ih =>
    have hafter : cursor.advance.rest = rest := by
      rw [Cursor.advance, Cursor.rest_advanceBy, hr]
      rfl
    have hcount : cursor.advance.advanceBy (rest.takeWhile isIn).length =
        cursor.advanceBy ((rest.takeWhile isIn).length + 1) := by
      rw [Cursor.advance, Cursor.advanceBy_advanceBy, Nat.add_comm]
    rw [takeWhile?, isAtEnd_ofCursor, peek?_ofCursor, advance?_ofCursor]
    by_cases hc : isIn c
    · simp [Cursor.isAtEnd, Cursor.peek, Cursor.takeWhile, hr, hc, ih _ hafter, hafter, hcount]
    · simp [Cursor.isAtEnd, Cursor.peek, Cursor.takeWhile, hr, hc]

@[simp] theorem skipBlanks?_ofCursor :
    (ofCursor cursor).skipBlanks? = some (ofCursor cursor.skipBlanks) := by
  rw [skipBlanks?, takeWhile?_ofCursor]
  rfl

/-- Bytes are passed exactly if they are those of characters that stand here. -/
theorem matchText?_eq_pass (expected : Text) :
    (ofCursor cursor).matchText? expected =
      some (if cursor.startsWith expected then (true, (ofCursor cursor).pass expected)
        else (false, ofCursor cursor)) := by
  rw [matchText?, startsWith?_ofCursor, Option.bind_eq_bind, Option.bind_some, pass,
    ← Text.length_bytes]
  split <;> rfl

theorem matchText_eq_pass (expected : Text) :
    ((cursor.matchText expected).1, ofCursor (cursor.matchText expected).2) =
      if cursor.startsWith expected then (true, (ofCursor cursor).pass expected)
      else (false, ofCursor cursor) := by
  rw [Cursor.matchText]
  split
  next h =>
    have htake := List.prefix_iff_eq_take.1 (List.isPrefixOf_iff_prefix.1 h)
    rw [ofCursor_advanceBy, ← htake]
  next => rfl

@[simp] theorem matchText?_ofCursor (expected : Text) :
    (ofCursor cursor).matchText? expected =
      some ((cursor.matchText expected).1, ofCursor (cursor.matchText expected).2) := by
  rw [matchText?_eq_pass, matchText_eq_pass]

@[simp] theorem matchChar?_ofCursor (expected : Char) :
    (ofCursor cursor).matchChar? expected =
      some ((cursor.matchChar expected).1, ofCursor (cursor.matchChar expected).2) := by
  rw [matchChar?, isAtEnd_ofCursor, peek?_ofCursor, advance?_ofCursor, Cursor.matchChar,
    Cursor.matchText, Cursor.startsWith]
  cases hr : cursor.rest with
  | nil => simp [Cursor.isAtEnd, hr]
  | cons c rest =>
    by_cases hc : c = expected
    · simp [Cursor.isAtEnd, Cursor.peek, Cursor.advance, hr, hc]
    · simp [Cursor.isAtEnd, Cursor.peek, hr, hc, Ne.symm hc]

/-- Of some texts of one length, it does not matter which one stands here. -/
theorem matchAny?_ofCursor (texts : List Text) (length : Nat)
    (hlength : ∀ expected ∈ texts, expected.length = length) :
    (ofCursor cursor).matchAny? texts =
      some (if texts.any (·.isPrefixOf cursor.rest) then (true, ofCursor (cursor.advanceBy length))
        else (false, ofCursor cursor)) := by
  induction texts with
  | nil => rfl
  | cons expected others ih =>
    rw [matchAny?, matchText?_ofCursor, Cursor.matchText, Cursor.startsWith, List.any_cons]
    cases h : expected.isPrefixOf cursor.rest with
    | true =>
      rw [hlength expected List.mem_cons_self]
      rfl
    | false =>
      exact ih fun text hmem => hlength text (List.mem_cons_of_mem expected hmem)

/-! ## Calls -/

/-- A call does to bytes what it does to characters. -/
theorem call_ofCursor (c : Cursor.Call) :
    (ofCursor cursor).call c = ((cursor.call c).1, ofCursor (cursor.call c).2) := by
  cases c with
  | peek offset => rw [call, call?, peek?_ofCursor]; rfl
  | advance => rw [call, call?, advance?_ofCursor]; rfl
  | advanceBy count => rw [call, call?, advanceBy?_ofCursor]; rfl
  | skipToEnd => rw [call, call?, skipToEnd_ofCursor]; rfl
  | skipBlanks => rw [call, call?, skipBlanks?_ofCursor]; rfl
  | matchChar expected => rw [call, call?, matchChar?_ofCursor]; rfl
  | matchText expected => rw [call, call?, matchText?_ofCursor]; rfl
  | startsWith expected => rw [call, call?, startsWith?_ofCursor]; rfl
  | takeWhile isIn => rw [call, call?, takeWhile?_ofCursor]; rfl
  | sliceFrom start =>
    rw [call, call?, sliceFrom?_ofCursor, Cursor.call]
    cases cursor.sliceFrom? start <;> rfl
  | rest => rw [call, call?, rest?_ofCursor]; rfl
  | line => rfl

/-- A call moves a cursor by a number of characters. -/
theorem exists_advanceBy_of_call (c : Cursor.Call) :
    ∃ count, (cursor.call c).2 = cursor.advanceBy count := by
  have matchText (expected : Text) :
      ∃ count, (cursor.matchText expected).2 = cursor.advanceBy count := by
    unfold Cursor.matchText
    split
    · exact ⟨expected.length, rfl⟩
    · exact ⟨0, rfl⟩
  cases c with
  | advance => exact ⟨1, rfl⟩
  | advanceBy count => exact ⟨count, rfl⟩
  | skipToEnd => exact ⟨cursor.rest.length, rfl⟩
  | skipBlanks => exact ⟨(cursor.rest.takeWhile isBlank).length, rfl⟩
  | matchChar expected => exact matchText [expected]
  | matchText expected => exact matchText expected
  | takeWhile isIn => exact ⟨(cursor.rest.takeWhile isIn).length, rfl⟩
  | sliceFrom start =>
    refine ⟨0, ?_⟩
    rw [Cursor.call]
    cases cursor.sliceFrom? start <;> rfl
  | peek | startsWith | rest | line => exact ⟨0, rfl⟩

/-- The cursor after some calls. -/
def after (cursor : ByteCursor) : List Cursor.Call → ByteCursor
  | [] => cursor
  | c :: calls => (cursor.call c).2.after calls

/-- After all calls, a cursor in bytes stands for one in characters, further on in the line. -/
theorem exists_after_ofCursor (calls : List Cursor.Call) :
    ∃ count, (ofCursor cursor).after calls = ofCursor (cursor.advanceBy count) := by
  induction calls generalizing cursor with
  | nil => exact ⟨0, rfl⟩
  | cons c calls ih =>
    obtain ⟨m, hm⟩ := exists_advanceBy_of_call cursor c
    obtain ⟨n, hn⟩ := ih (cursor.advanceBy m)
    refine ⟨m + n, ?_⟩
    rw [after, call_ofCursor, hm, hn, Cursor.advanceBy_advanceBy]

/-! ## Views -/

/-- The cursor stands between two parts of its line, and shows the characters of the second: it
    looks them up, expects them and passes them one by one, and never is refused. -/
structure Views (cursor : ByteCursor) (passed rest : Text) : Prop where
  line_eq : cursor.line = passed ++ rest
  position_eq : cursor.position = Text.byteLength passed
  rest?_eq : cursor.rest? = some rest
  isAtEnd_iff : cursor.isAtEnd ↔ rest = []
  peek?_eq (offset : Nat) : cursor.peek? offset = some ((rest[offset]?).getD '\x00')
  advance?_eq : cursor.advance? = some (cursor.pass (rest.take 1))
  advanceBy?_eq (count : Nat) : cursor.advanceBy? count = some (cursor.pass (rest.take count))
  skipToEnd_eq : cursor.skipToEnd = cursor.pass rest
  skipBlanks?_eq : cursor.skipBlanks? = some (cursor.pass (rest.takeWhile isBlank))
  startsWith?_eq (expected : Text) : cursor.startsWith? expected = some (expected.isPrefixOf rest)
  matchText?_eq (expected : Text) : cursor.matchText? expected =
    some (if expected.isPrefixOf rest then (true, cursor.pass expected) else (false, cursor))
  matchChar?_eq (expected : Char) : cursor.matchChar? expected =
    some (if rest.head? = some expected then (true, cursor.pass [expected]) else (false, cursor))
  takeWhile?_eq (isIn : Char → Bool) : cursor.takeWhile? isIn =
    some ((rest.takeWhile isIn).length, cursor.pass (rest.takeWhile isIn))

theorem views_ofCursor : (ofCursor cursor).Views cursor.passed.reverse cursor.rest where
  line_eq := rfl
  position_eq := cursor.position_eq_byteLength
  rest?_eq := rest?_ofCursor cursor
  isAtEnd_iff := by rw [isAtEnd_ofCursor, Cursor.isAtEnd, List.isEmpty_iff]
  peek?_eq := peek?_ofCursor cursor
  advance?_eq := (advance?_ofCursor cursor).trans (congrArg some (ofCursor_advanceBy cursor 1))
  advanceBy?_eq count := by rw [advanceBy?_ofCursor, ofCursor_advanceBy]
  skipToEnd_eq := by rw [skipToEnd_ofCursor, Cursor.skipToEnd, ofCursor_advanceBy, List.take_length]
  skipBlanks?_eq := by
    rw [skipBlanks?_ofCursor, Cursor.skipBlanks, Cursor.takeWhile, ofCursor_advanceBy,
      (Text.take_length_takeWhile isBlank cursor.rest).1]
  startsWith?_eq expected := startsWith?_ofCursor cursor expected
  matchText?_eq expected := matchText?_eq_pass cursor expected
  matchChar?_eq expected := by
    have hhead : cursor.startsWith [expected] ↔ cursor.rest.head? = some expected := by
      rw [Cursor.startsWith, List.isPrefixOf_iff_prefix]
      cases cursor.rest <;> simp [eq_comm]
    rw [matchChar?_ofCursor, Cursor.matchChar, matchText_eq_pass, if_congr hhead rfl rfl]
  takeWhile?_eq isIn := by
    rw [takeWhile?_ofCursor, Cursor.takeWhile, ofCursor_advanceBy,
      (Text.take_length_takeWhile isIn cursor.rest).1]

theorem sliceFrom?_position (count : Nat) :
    (ofCursor (cursor.advanceBy count)).sliceFrom? cursor.position =
      some (cursor.rest.take count) := by
  rw [sliceFrom?, ofCursor, cursor.line_advanceBy]
  exact cursor.slice?_advanceBy count

/-- **A cursor in bytes is a view of the characters of its line.** After all calls, it stands
    between two parts of its line and shows the characters of the second (`Views`). Between any two
    moments of its way it goes on by characters, and what it has passed meanwhile can be cut off the
    line: together with what remains, it is what remained at the first of them. -/
theorem views_after (line : Text) (calls further : List Cursor.Call) :
    let earlier := (ofLine line).after calls
    let later := earlier.after further
    ∃ passed taken rest, line = passed ++ taken ++ rest ∧
      earlier.Views passed (taken ++ rest) ∧ later.Views (passed ++ taken) rest ∧
      earlier.position ≤ later.position ∧
      Text.dropBytes? earlier.position line = some (taken ++ rest) ∧
      later.sliceFrom? earlier.position = some taken := by
  intro earlier later
  obtain ⟨m, hm⟩ := exists_after_ofCursor (.ofLine line) calls
  obtain ⟨n, hn⟩ := exists_after_ofCursor ((Cursor.ofLine line).advanceBy m) further
  replace hn : later = ofCursor (((Cursor.ofLine line).advanceBy m).advanceBy n) := by
    rw [← hn, ← hm]
    rfl
  replace hm : earlier = ofCursor ((Cursor.ofLine line).advanceBy m) := hm
  generalize hc : (Cursor.ofLine line).advanceBy m = cursor at hm hn
  have hline : cursor.line = line := hc ▸ Cursor.line_advanceBy ..
  refine ⟨cursor.passed.reverse, cursor.rest.take n, cursor.rest.drop n, ?_, ?_, ?_, ?_, ?_, ?_⟩
  · rw [List.append_assoc, List.take_append_drop]
    exact hline.symm
  · rw [hm, List.take_append_drop]
    exact views_ofCursor cursor
  · have hviews := views_ofCursor (cursor.advanceBy n)
    rwa [Cursor.advanceBy, Cursor.passed_pass, List.reverse_append, List.reverse_reverse,
      Cursor.rest_pass, ← Cursor.advanceBy, ← hn] at hviews
  · rw [hm, hn]
    exact cursor.position_le_advanceBy n
  · rw [hm, List.take_append_drop, ← hline]
    exact cursor.dropBytes?_position
  · rw [hm, hn]
    exact sliceFrom?_position cursor n

/-- Beyond a character of two bytes, characters are counted. -/
example : (ofLine "aé\"".toList).peek? 2 = some '"' := by decide

end ByteCursor

end Highlighter
