import Highlighter.FileTree.IoError
import Highlighter.FileTree.Path
import Highlighter.Text.Quoted

/-!
# Failures

Why a command of the program fails. Failures are of five kinds, named in front of the
message.
-/

namespace Highlighter

/-- What a failure has to do with. -/
inductive FailureKind where
  | settings
  | fileOperation
  | validation
  | io
  | json
deriving DecidableEq

/-- Why a command fails. -/
inductive Failure where
  /-- A command is given no input. -/
  | noInput
  | inputMissing (path : Path)
  /-- An input is something other than a file. -/
  | inputNotFile (path : Path)
  | inputUnreadable (path : Path) (error : IoError)
  /-- The format asked for is none. -/
  | unknownFormat (name : Text)
  /-- The format in the settings is none. -/
  | unknownSettingsFormat (name : Text)
  /-- No worker may work. -/
  | noJobs
  | filesFailed (count : Nat)
  | targetNotDirectory (path : Path)
  | settingsExist (path : Path)
  | settingsMissing (path : Path)
  /-- The settings file does not say what settings can be. -/
  | settingsMalformed
  | io (error : IoError)
  /-- A listing in JSON cannot be written. -/
  | json (error : IoError)
deriving DecidableEq

namespace FailureKind

/-- What a kind of failure is called in front of messages. -/
def heading : FailureKind → Text
  | settings => "Configuration error".toList
  | fileOperation => "File operation failed".toList
  | validation => "Validation error".toList
  | io => "IO error".toList
  | json => "JSON error".toList

/-- The name of a kind of failure, under which it is shown to developers. -/
def name : FailureKind → Text
  | settings => "Config".toList
  | fileOperation => "FileOperation".toList
  | validation => "Validation".toList
  | io => "Io".toList
  | json => "Json".toList

end FailureKind

namespace Failure

/-- The kind of a failure. -/
def kind : Failure → FailureKind
  | noInput | unknownFormat _ | noJobs | targetNotDirectory _ | settingsExist _ => .validation
  | inputMissing _ | inputNotFile _ | inputUnreadable .. | filesFailed _ => .fileOperation
  | unknownSettingsFormat _ | settingsMissing _ | settingsMalformed => .settings
  | io _ => .io
  | json _ => .json

/-- What went wrong. -/
def detail : Failure → Text
  | noInput => "No input files specified".toList
  | inputMissing path => "Input path does not exist: ".toList ++ path
  | inputNotFile path => "Input path is not a file: ".toList ++ path
  | inputUnreadable path e => path ++ ": ".toList ++ e.message
  | unknownFormat format => "Unknown format: ".toList ++ format
  | unknownSettingsFormat format => "Invalid format in configuration: ".toList ++ format
  | noJobs => "Number of jobs must be at least 1".toList
  | filesFailed count => Text.ofNat count ++ " file(s) failed to process".toList
  | targetNotDirectory path => "Target path is not a directory: ".toList ++ path
  | settingsExist path => "Configuration file already exists: ".toList ++ path
  | settingsMissing path => "Configuration file not found: ".toList ++ path
  | settingsMalformed => "Failed to parse configuration".toList
  | io e | json e => e.message

/-- The message of a failure. -/
def message (failure : Failure) : Text :=
  failure.kind.heading ++ ": ".toList ++ failure.detail

/-- How an error of files and streams is shown to developers. -/
def showError (e : IoError) : Text :=
  match e.code? with
  | some code =>
    "Os \x7b code: ".toList ++ Text.ofNat code ++ ", kind: ".toList ++ e.kind
      ++ ", message: ".toList ++ Text.quoted e.description ++ " \x7d".toList
  | none =>
    "Error \x7b kind: ".toList ++ e.kind ++ ", message: ".toList ++ Text.quoted e.description
      ++ " \x7d".toList

/-- How a failure is shown to developers: its kind with what went wrong. -/
def debug (failure : Failure) : Text :=
  failure.kind.name ++ "(".toList
    ++ (match failure with
      | io e | json e => showError e
      | _ => Text.quoted failure.detail)
    ++ ")".toList

end Failure

end Highlighter
