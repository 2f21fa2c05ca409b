import Highlighter.Command
import Highlighter.Settings
import Highlighter.Source
import Highlighter.Summary

/-!
# Summarizing files

The inputs that can be read are summarized and reported on, in the order in which they
are given, however many workers share the work. An input that cannot be read is
counted as failed and told about; a report that cannot be written ends the command.
-/

namespace Highlighter

/-- What a summary is asked for. -/
structure SummaryRequest where
  inputs : List Path
  /-- The number of workers, if it is not left to the settings. -/
  jobs? : Option UInt32 := none

namespace SummaryRequest

/-- The settings in force: those of the request over those given. -/
def settings (request : SummaryRequest) (given : SummarySettings) : SummarySettings :=
  { jobs := request.jobs?.getD given.jobs }

/-- The summary of a file. -/
def summarize (tree : FileTree) (path : Path) : Except Failure Summary :=
  (readSource tree path).map (Summary.ofSource path)

/-- How far reporting has come. -/
structure Progress where
  /-- The summaries reported on. -/
  done : List Summary := []
  /-- The number of files that failed. -/
  failed : Nat := 0
  sink : Sink
  log : Log := []

/-- Reports on the files that are left, until one report cannot be written. -/
def reportAll (tree : FileTree) : Progress → List Path → Progress × Except Failure Unit
  | progress, [] => (progress, .ok ())
  | progress, path :: paths =>
    match summarize tree path with
    | .ok summary =>
      match progress.sink.write summary.report .io with
      | (sink, .ok ()) =>
        reportAll tree { progress with done := progress.done ++ [summary], sink } paths
      | (sink, .error e) => ({ progress with sink }, .error e)
    | .error e =>
      reportAll tree
        { progress with
          failed := progress.failed + 1
          log := progress.log
            ++ [⟨.error, "Failed to analyze ".toList ++ path ++ ": ".toList ++ e.message⟩] }
        paths

/-- The record that summaries begin with. -/
def opening (inputs : Nat) (jobs : UInt32) : LogRecord :=
  ⟨.debug, "Analyzing ".toList ++ Text.ofNat inputs ++ " file(s) on ".toList
    ++ Text.ofNat jobs.toNat ++ " thread(s)".toList⟩

/-- The record that summaries end with, where more is told. -/
def closing (progress : Progress) : LogRecord :=
  ⟨.info, "Analyzed ".toList ++ Text.ofNat progress.done.length ++ " file(s), ".toList
    ++ Text.ofNat ((progress.done.map Summary.total).foldr (· + ·) 0) ++ " tokens".toList⟩

/-- Reports on all inputs, and answers their summaries. -/
def run (request : SummaryRequest) (verbose : Bool) (given : SummarySettings) (tree : FileTree)
    (sink : Sink) : Outcome (List Summary) :=
  match requireInput request.inputs with
  | .error e => ⟨.error e, sink, []⟩
  | .ok () =>
    let jobs := (request.settings given).jobs
    if jobs = 0 then ⟨.error .noJobs, sink, []⟩
    else
      let start := opening request.inputs.length jobs
      match reportAll tree { sink } request.inputs with
      | (progress, .error e) => ⟨.error e, progress.sink, start :: progress.log⟩
      | (progress, .ok ()) =>
        { result := (requireNoFailure progress.failed).map fun _ => progress.done
          sink := progress.sink
          log := start :: progress.log ++ if verbose then [closing progress] else [] }

end SummaryRequest

end Highlighter
