import Highlighter.CommandLine

/-!
# The program

A call of the program, from its arguments to its exit code. It is understood or stopped
(`Invocation.ofArguments`); then the settings are loaded, and the command is carried out
with them. Nothing is told before the settings are known, since they say how much is to
be told.

The exit code is 0 if all went well, 1 after a failure and 2 for a call that was not
understood.
-/

namespace Highlighter

/-- What comes of a call of the program. -/
structure Run where
  exitCode : Nat
  /-- What is written to the standard output. -/
  output : List UInt8
  /-- What is told on the standard error. -/
  log : Log
  /-- What is told has colours. -/
  colored : Bool
  failure? : Option Failure
  tree : FileTree

namespace Program

/-- The name of the program. -/
def name : Text := "ravt".toList

/-- The version of the program. -/
def version : Text := "0.1.0".toList

/-- The line that answers a question for the version. -/
def versionLine (command? : Option CommandName) : Text :=
  name ++ (command?.elim [] fun command => '-' :: command.label) ++ ' ' :: version ++ ['\n']

/-- How the program is called. -/
def usage : Text :=
  "Tokenize and inspect Raven source files\n\nUsage: ravt [OPTIONS] <COMMAND>\n\nCommands:\n".toList
    ++ CommandName.all.flatMap fun command =>
      "  ".toList ++ command.label ++ "  ".toList ++ command.description ++ ['\n']

/-- How a flag is shown to developers. -/
def showFlag (b : Bool) : Text :=
  if b then "true".toList else "false".toList

/-- How settings are shown to developers. -/
def showSettings (settings : Settings) : Text :=
  "Config \x7b verbose: ".toList ++ showFlag settings.verbose
    ++ ", tokens: TokensConfig \x7b format: ".toList ++ Text.quoted settings.listing.format
    ++ ", skip_unclassified: ".toList ++ showFlag settings.listing.skipUnclassified
    ++ " \x7d, stats: StatsConfig \x7b jobs: ".toList
    ++ Text.ofNat settings.summary.jobs.toNat ++ " \x7d \x7d".toList

/-- What comes of a command: its failure, if any, with what it wrote and told, and the
    tree after it. -/
structure Performed where
  failure? : Option Failure
  output : List UInt8
  log : Log
  tree : FileTree

/-- The failure of a result. -/
def failureOf? {α : Type} : Except Failure α → Option Failure
  | .ok _ => none
  | .error e => some e

/-- Carries out a command, on a machine with a number of processors. -/
def perform (request : Request) (verbose : Bool) (settings : Settings) (cpus : UInt64)
    (tree : FileTree) : Performed :=
  match request with
  | .list request =>
    let outcome := request.run verbose settings.listing tree {}
    ⟨failureOf? outcome.result, outcome.sink.written, CommandName.opening .list :: outcome.log,
      tree⟩
  | .summarize request =>
    let outcome := request.run verbose settings.summary tree {}
    ⟨failureOf? outcome.result, outcome.sink.written,
      CommandName.opening .summarize :: outcome.log, tree⟩
  | .setUp request =>
    let setup := request.run verbose cpus tree
    ⟨failureOf? setup.result, [], CommandName.opening .setUp :: setup.log, setup.tree⟩

/-- The most detailed level that is listened to. -/
def mostDetailed (verbose : Bool) : Level :=
  if verbose then .debug else .info

/-- Carries out a call that was understood, with settings. -/
def carryOut (invocation : Invocation) (settings : Settings) (cpus : UInt64) (tree : FileTree) :
    Run :=
  let verbose := invocation.verbose || settings.verbose
  let performed := perform invocation.request verbose settings cpus tree
  let start : LogRecord :=
    ⟨.debug, "Using configuration: ".toList ++ showSettings settings⟩
  let log := Log.upTo (mostDetailed verbose) (start :: performed.log)
  { exitCode := if performed.failure?.isSome then 1 else 0
    output := performed.output
    log
    colored := !log.isEmpty && !invocation.noColor
    failure? := performed.failure?
    tree := performed.tree }

/-- Loads the settings, and carries out a call that was understood. -/
def execute (invocation : Invocation) (places : Places) (cpus : UInt64) (tree : FileTree) : Run :=
  match Settings.load cpus tree places invocation.settingsFile? with
  | .error e => ⟨1, [], [], false, some e, tree⟩
  | .ok settings => carryOut invocation settings cpus tree

/-- Carries out a call, on a machine with a number of processors. -/
def run (arguments : List Text) (environment : Variables) (places : Places) (cpus : UInt64)
    (tree : FileTree) : Run :=
  match Invocation.ofArguments arguments environment with
  | .ok invocation => execute invocation places cpus tree
  | .error .refused => ⟨2, [], [], false, none, tree⟩
  | .error (.version command?) => ⟨0, Text.bytes (versionLine command?), [], false, none, tree⟩
  | .error .help => ⟨0, Text.bytes usage, [], false, none, tree⟩

/-- The paths that a call may look at. -/
def paths (arguments : List Text) (environment : Variables) (places : Places) : List Path :=
  match Invocation.ofArguments arguments environment with
  | .error _ => []
  | .ok invocation =>
    (invocation.settingsFile?.elim (Settings.candidates places) fun path => [path])
      ++ match invocation.request with
        | .list request => request.inputs
        | .summarize request => request.inputs
        | .setUp request => [request.target, Path.join request.target Settings.fileName]

/-- What is told on the standard error after a call. -/
def messages (run : Run) : Text :=
  run.log.flatMap (LogRecord.line run.colored)
    ++ (run.failure?.elim [] fun e => "Error: ".toList ++ e.debug ++ ['\n'])
    ++ if run.exitCode = 2 then usage else []

end Program

end Highlighter
