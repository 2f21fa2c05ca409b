import Highlighter.Text

/-!
# Errors of files and streams

Why a file cannot be found, read or written, or a stream not be written to.
-/

namespace Highlighter

/-- Why an operation on a file or stream fails. -/
inductive IoError where
  /-- A step of the path leads nowhere. -/
  | notFound
  | alreadyExists
  /-- A step of the path leads through a file. -/
  | notADirectory
  | isADirectory
  /-- The path, or a name in it, has more bytes than the system allows. -/
  | nameTooLong
  /-- The path holds a character that no name may hold. -/
  | invalidPath
  /-- The content is not the UTF-8 form of a text. -/
  | invalidText
  /-- The stream takes no more. -/
  | sinkFull
deriving DecidableEq

namespace IoError

/-- The number under which the system knows the error, if it is one of its own. -/
def code? : IoError → Option Nat
  | notFound => some 2
  | alreadyExists => some 17
  | notADirectory => some 20
  | isADirectory => some 21
  | nameTooLong => some 36
  | invalidPath | invalidText | sinkFull => none

/-- What is wrong, in words. -/
def description : IoError → Text
  | notFound => "No such file or directory".toList
  | alreadyExists => "File exists".toList
  | notADirectory => "Not a directory".toList
  | isADirectory => "Is a directory".toList
  | nameTooLong => "File name too long".toList
  | invalidPath => "file name contained an unexpected NUL byte".toList
  | invalidText => "stream did not contain valid UTF-8".toList
  | sinkFull => "sink full".toList

/-- The message of an error: what is wrong, and the system's number for it. -/
def message (e : IoError) : Text :=
  match e.code? with
  | some code => e.description ++ " (os error ".toList ++ Text.ofNat code ++ ")".toList
  | none => e.description

/-- The kind of an error, under which it is shown to developers. -/
def kind : IoError → Text
  | notFound => "NotFound".toList
  | alreadyExists => "AlreadyExists".toList
  | notADirectory => "NotADirectory".toList
  | isADirectory => "IsADirectory".toList
  | nameTooLong => "InvalidFilename".toList
  | invalidPath => "InvalidInput".toList
  | invalidText => "InvalidData".toList
  | sinkFull => "Other".toList

end IoError

end Highlighter
