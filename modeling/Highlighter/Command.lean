import Highlighter.Failure
import Highlighter.Log
import Highlighter.Sink

/-!
# Commands

What is common to the commands of the program: a command has a name and a
description, and comes to an *outcome*, i.e., a result or a failure, with what it wrote
and what it told about its work.
-/

namespace Highlighter

/-- The commands of the program. -/
inductive CommandName where
  /-- Lists tokens. -/
  | list
  /-- Summarizes sources. -/
  | summarize
  /-- Writes a settings file. -/
  | setUp
deriving DecidableEq

namespace CommandName

/-- The commands, as they are introduced to users. -/
def all : List CommandName := [list, summarize, setUp]

/-- The name by which a command is called. -/
def label : CommandName → Text
  | list => "tokens".toList
  | summarize => "stats".toList
  | setUp => "init".toList

/-- What a command does, in a few words. -/
def description : CommandName → Text
  | list => "List tokens with their highlight categories".toList
  | summarize => "Summarize token kinds and unclosed constructs per file".toList
  | setUp => "Write a default ravt.toml".toList

/-- The record that a command begins with. -/
def opening (command : CommandName) : LogRecord :=
  ⟨.debug, "Running ".toList ++ command.label ++ ": ".toList ++ command.description⟩

end CommandName

/-- What comes of a command. -/
structure Outcome (α : Type) where
  result : Except Failure α
  sink : Sink
  log : Log

namespace Sink

/-- Writes a text; where the sink has no room for it, the command goes on with a
    failure. -/
def write (sink : Sink) (text : Text) (failure : IoError → Failure) :
    Sink × Except Failure Unit :=
  (sink.takeText text, if sink.fitsText text then .ok () else .error (failure .sinkFull))

end Sink

end Highlighter
