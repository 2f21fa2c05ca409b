import Highlighter.Command
import Highlighter.Proofs.Text

/-!
# What a sink takes

A sink to which bytes are written in several parts takes what it would take if they were written at
once (`take_append`), and it has room for all of them if it has room for each part when its turn
comes (`fits_append`). Hence what a command has written is told by what it meant to write in all: a
new sink holds as much of that as it has room for (`written_takeText`).
-/

namespace Highlighter

namespace Sink

variable {sink : Sink} {room? : Option Nat}

/-- The bytes that a new sink takes, of those written to it. -/
def firstBytes (room? : Option Nat) (bytes : List UInt8) : List UInt8 :=
  match room? with
  | none => bytes
  | some room => bytes.take room

/-- A new sink has room for bytes. -/
def hasRoom (room? : Option Nat) (bytes : List UInt8) : Bool :=
  room?.all fun room => bytes.length ≤ room

theorem take_nil (sink : Sink) : sink.take [] = sink := by
  cases sink with
  | mk room? written => cases room? <;> simp [take]

theorem fits_nil (sink : Sink) : sink.fits [] := by
  cases sink with
  | mk room? written => cases room? <;> simp [fits]

theorem take_append (sink : Sink) (s t : List UInt8) :
    sink.take (s ++ t) = (sink.take s).take t := by
  cases sink with
  | mk room? written => cases room? <;> simp [take, List.take_append, Nat.sub_sub]

theorem fits_append (sink : Sink) (s t : List UInt8) :
    sink.fits (s ++ t) = (sink.fits s && (sink.take s).fits t) := by
  cases sink with
  | mk room? written =>
    cases room? with
    | none => rfl
    | some room =>
      simp only [fits, take, List.length_append, ← Bool.decide_and, decide_eq_decide]
      omega

/-- A sink that has refused something refuses all but nothing. -/
theorem fits_take (sink : Sink) {s t : List UInt8} (h : t ≠ [] ∨ sink.fits s) :
    (sink.take s).fits t = sink.fits (s ++ t) := by
  rw [fits_append]
  rcases h with h | h
  · cases sink with
    | mk room? written =>
      cases room? with
      | none => rfl
      | some room =>
        have := List.length_pos_of_ne_nil h
        simp only [fits, take, ← Bool.decide_and, decide_eq_decide]
        omega
  · rw [h, Bool.true_and]

/-- A sink that has refused something takes no more. -/
theorem take_take_of_not_fits {s : List UInt8} (h : ¬sink.fits s) (t : List UInt8) :
    (sink.take s).take t = sink.take s := by
  cases sink with
  | mk room? written =>
    cases room? with
    | none => exact absurd rfl h
    | some room =>
      have hroom : room < s.length := by simpa [fits] using h
      simp [take, Nat.sub_eq_zero_of_le (Nat.le_of_lt hroom)]

/-! ## Texts -/

theorem takeText_nil (sink : Sink) : sink.takeText [] = sink :=
  take_nil sink

theorem takeText_append (sink : Sink) (s t : Text) :
    sink.takeText (s ++ t) = (sink.takeText s).takeText t := by
  rw [takeText, takeText, takeText, Text.bytes_append, take_append]

theorem fitsText_append (sink : Sink) (s t : Text) :
    sink.fitsText (s ++ t) = (sink.fitsText s && (sink.takeText s).fitsText t) := by
  rw [fitsText, fitsText, fitsText, takeText, Text.bytes_append, fits_append]

theorem fitsText_takeText (sink : Sink) {s t : Text} (h : t ≠ [] ∨ sink.fitsText s) :
    (sink.takeText s).fitsText t = sink.fitsText (s ++ t) := by
  rw [takeText, fitsText, fitsText, Text.bytes_append]
  exact fits_take sink (h.imp_left Text.bytes_ne_nil)

theorem takeText_append_of_not_fitsText {s : Text} (h : ¬sink.fitsText s) (t : Text) :
    sink.takeText (s ++ t) = sink.takeText s := by
  rw [takeText_append]
  exact take_take_of_not_fits h (Text.bytes t)

theorem isOk_write (sink : Sink) (text : Text) (failure : IoError → Failure) :
    (sink.write text failure).2.isOk = sink.fitsText text := by
  rw [write]
  cases sink.fitsText text <;> rfl

theorem fitsText_eq_hasRoom (room? : Option Nat) (t : Text) :
    fitsText { room? } t = hasRoom room? (Text.bytes t) := by
  cases room? <;> rfl

theorem written_takeText (room? : Option Nat) (t : Text) :
    (takeText { room? } t).written = firstBytes room? (Text.bytes t) := by
  cases room? <;> rfl

end Sink

end Highlighter
