import Highlighter.Command
import Highlighter.Listing
import Highlighter.Settings
import Highlighter.Source

/-!
# Listing the tokens of files

Every input is tried in turn, and the tokens of those that can be read are listed. An
input that cannot be read, or whose listing cannot be written, is counted as failed and
told about; it does not keep the others from being tried.
-/

namespace Highlighter

/-- What a listing is asked for. -/
structure ListRequest where
  inputs : List Path
  /-- The name of the format, if it is not left to the settings. -/
  format? : Option Text := none
  /-- Tokens of no category are left out, whatever the settings. -/
  skipUnclassified : Bool := false

namespace ListRequest

/-- The settings in force: those of the request over those given. -/
def settings (request : ListRequest) (given : ListSettings) : ListSettings :=
  { format := request.format?.getD given.format
    skipUnclassified := given.skipUnclassified || request.skipUnclassified }

/-- The format in force. -/
def format (request : ListRequest) (given : ListSettings) : Except Failure ListFormat :=
  match request.format? with
  | some name => (ListFormat.ofName? name).elim (.error (.unknownFormat name)) .ok
  | none =>
    (ListFormat.ofName? given.format).elim (.error (.unknownSettingsFormat given.format)) .ok

/-- How files are listed. -/
structure Manner where
  format : ListFormat
  skipUnclassified : Bool
  /-- The listing of a file is headed by its path. -/
  headed : Bool

/-- Writes the listing of a file. -/
def writeListing (manner : Manner) (path : Path) (records : List TokenRecord) (sink : Sink) :
    Sink × Except Failure Unit :=
  match manner.format with
  | .text =>
    sink.write ((if manner.headed then Listing.header path else []) ++ Listing.toText records) .io
  | .json =>
    match sink.write (Listing.toJson records) .json with
    | (after, .ok ()) => after.write ['\n'] .io
    | failed => failed

/-- Lists a file, and answers the number of tokens listed. -/
def listFile (tree : FileTree) (manner : Manner) (sink : Sink) (path : Path) :
    Sink × Except Failure Nat :=
  match readSource tree path with
  | .error e => (sink, .error e)
  | .ok source =>
    let records := (Document.ofText source).records manner.skipUnclassified
    match writeListing manner path records sink with
    | (after, .ok ()) => (after, .ok records.length)
    | (after, .error e) => (after, .error e)

/-- How far listing has come. -/
structure Progress where
  /-- The number of tokens listed. -/
  listed : Nat := 0
  /-- The number of files that failed. -/
  failed : Nat := 0
  sink : Sink
  log : Log := []

/-- Lists one more file. -/
def advance (tree : FileTree) (manner : Manner) (progress : Progress) (path : Path) : Progress :=
  match listFile tree manner progress.sink path with
  | (sink, .ok count) =>
    { progress with
      listed := progress.listed + count
      sink
      log := progress.log
        ++ [⟨.debug, path ++ ": ".toList ++ Text.ofNat count ++ " tokens".toList⟩] }
  | (sink, .error e) =>
    { progress with
      failed := progress.failed + 1
      sink
      log := progress.log
        ++ [⟨.error, "Failed to tokenize ".toList ++ path ++ ": ".toList ++ e.message⟩] }

/-- The record that a listing ends with, where more is told. -/
def closing (inputs : Nat) (progress : Progress) : LogRecord :=
  ⟨.info, "Listed ".toList ++ Text.ofNat progress.listed ++ " tokens from ".toList
    ++ Text.ofNat (inputs - progress.failed) ++ " file(s)".toList⟩

/-- Lists the tokens of all inputs, and answers the number of tokens listed. -/
def run (request : ListRequest) (verbose : Bool) (given : ListSettings) (tree : FileTree)
    (sink : Sink) : Outcome Nat :=
  match requireInput request.inputs with
  | .error e => ⟨.error e, sink, []⟩
  | .ok () =>
    match request.format given with
    | .error e => ⟨.error e, sink, []⟩
    | .ok format =>
      let manner : Manner :=
        { format
          skipUnclassified := (request.settings given).skipUnclassified
          headed := 1 < request.inputs.length && format == .text }
      let progress := request.inputs.foldl (advance tree manner) { sink }
      { result := (requireNoFailure progress.failed).map fun _ => progress.listed
        sink := progress.sink
        log := progress.log
          ++ if verbose then [closing request.inputs.length progress] else [] }

end ListRequest

end Highlighter
