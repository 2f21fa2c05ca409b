import Highlighter.FileTree.IoError

/-!
# Sinks

Where output goes: a *sink* keeps the bytes written to it. It may have only so much
room; it then takes what fits, and refuses every byte after that. Writing nothing is
never refused.
-/

namespace Highlighter

/-- A stream that is written to. -/
structure Sink where
  /-- The number of bytes that it still takes, if there is a limit. -/
  room? : Option Nat := none
  /-- The bytes that it has taken. -/
  written : List UInt8 := []

namespace Sink

/-- What a sink has room for. -/
def fits (sink : Sink) (bytes : List UInt8) : Bool :=
  match sink.room? with
  | none => true
  | some room => bytes.length ≤ room

/-- The sink after bytes are written to it, of which it takes as many as it can. -/
def take (sink : Sink) (bytes : List UInt8) : Sink :=
  match sink.room? with
  | none => { sink with written := sink.written ++ bytes }
  | some room =>
    { room? := some (room - bytes.length), written := sink.written ++ bytes.take room }

/-- The sink after a text is written to it. -/
def takeText (sink : Sink) (text : Text) : Sink :=
  sink.take (Text.bytes text)

/-- A sink has room for a text. -/
def fitsText (sink : Sink) (text : Text) : Bool :=
  sink.fits (Text.bytes text)

end Sink

end Highlighter
