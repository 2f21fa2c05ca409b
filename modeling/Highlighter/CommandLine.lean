import Highlighter.CommandLine.Option
import Highlighter.Listing.Request
import Highlighter.Settings.Setup
import Highlighter.Summary.Request

/-!
# The command line

What the program is called with: arguments, and variables of the environment. Arguments
are read one by one (`Arguments.add`): options, the command, and its inputs.

* An option is given at most once before the command and at most once after it. What is
  given after the command counts first, then what is given before it, then the
  environment.
* A value may stand in the argument of its option (`--format=json`, `-Fjson`,
  `-F=json`) or in the next one, if that does not look like an option. Letters of flags
  may be put together, with an option that takes a value at their end (`-vj2`).
* After `--` all arguments are inputs. A dash alone is an input too.
* Asking for help or for the version is answered at once; so is an argument that cannot
  be understood, with a refusal.

A variable of the environment is looked at wherever its option is not given, before the
command and after it, and must then have a value that the option could have.
-/

namespace Highlighter

/-- What a call asks for. -/
inductive Request where
  | list (request : ListRequest)
  | summarize (request : SummaryRequest)
  | setUp (request : SetupRequest)

/-- A call of the program that was understood. -/
structure Invocation where
  verbose : Bool
  noColor : Bool
  settingsFile? : Option Path
  request : Request

/-- Why a call is answered without doing anything. -/
inductive Stop where
  /-- An argument or a variable cannot be understood. -/
  | refused
  /-- The version was asked for, of the program or of one of its commands. -/
  | version (command? : Option CommandName)
  /-- Help was asked for. -/
  | help
deriving DecidableEq

/-- The variables of the environment that stand for options. -/
structure Variables where
  verbose? : Option Text := none
  config? : Option Text := none
  noColor? : Option Text := none

/-! ## Reading arguments -/

/-- Options with their values, which for flags are empty. -/
abbrev GivenOptions := List (CommandOption × Text)

/-- The arguments read so far. -/
structure Arguments where
  command? : Option CommandName := none
  /-- The options given before the command. -/
  outer : GivenOptions := []
  /-- The options given after the command. -/
  inner : GivenOptions := []
  inputs : List Path := []
  /-- An option whose value is the next argument. -/
  awaiting? : Option CommandOption := none
  /-- All arguments that follow are inputs. -/
  onlyInputs : Bool := false

namespace Arguments

/-- The options given so far on this side of the command. -/
def given (args : Arguments) : GivenOptions :=
  if args.command?.isNone then args.outer else args.inner

/-- Gives an option a value, which it may have and has not been given yet. -/
def give (args : Arguments) (option : CommandOption) (value : Text) : Except Stop Arguments :=
  if (args.given.lookup option).isSome || !option.accepts value then .error .refused
  else if args.command?.isNone then
    .ok { args with outer := args.outer ++ [(option, value)], awaiting? := none }
  else .ok { args with inner := args.inner ++ [(option, value)], awaiting? := none }

/-- Raises a flag. -/
def raise (args : Arguments) : CommandOption → Except Stop Arguments
  | .help => .error .help
  | .version => .error (.version args.command?)
  | flag => args.give flag []

/-- Reads an argument with a long name. -/
def addLong (args : Arguments) (argument : Text) : Except Stop Arguments :=
  let name := argument.takeWhile (· ≠ '=')
  let value? := if argument.contains '=' then some (argument.drop (name.length + 1)) else none
  match (CommandOption.within args.command?).find? (·.long == name), value? with
  | none, _ => .error .refused
  | some option, some value =>
    if option.takesValue then args.give option value else .error .refused
  | some option, none =>
    if option.takesValue then .ok { args with awaiting? := some option } else args.raise option

/-- Reads letters that were put together. -/
def addLetters (args : Arguments) : Text → Except Stop Arguments
  | [] => .ok args
  | c :: rest =>
    match (CommandOption.within args.command?).find? (·.letter? == some c) with
    | none => .error .refused
    | some option =>
      if option.takesValue then
        match rest with
        | [] => .ok { args with awaiting? := some option }
        | '=' :: value => args.give option value
        | value => args.give option value
      else
        match args.raise option with
        | .ok args => args.addLetters rest
        | .error stop => .error stop

/-- Takes an input, which a command must expect. -/
def addInput (args : Arguments) (path : Path) : Except Stop Arguments :=
  match args.command? with
  | some .list | some .summarize =>
    if path = [] then .error .refused else .ok { args with inputs := args.inputs ++ [path] }
  | some .setUp | none => .error .refused

/-- Reads an argument without dashes: the command, or an input of it. -/
def addWord (args : Arguments) (word : Text) : Except Stop Arguments :=
  match args.command? with
  | some _ => args.addInput word
  | none =>
    match CommandName.all.find? (·.label == word) with
    | some command => .ok { args with command? := some command }
    | none => .error (if word = "help".toList then .help else .refused)

/-- Reads the next argument. -/
def add (args : Arguments) (argument : Text) : Except Stop Arguments :=
  match args.awaiting? with
  | some option =>
    -- what looks like an option is none of the values
    if argument.head? = some '-' ∧ argument ≠ ['-'] then .error .refused
    else args.give option argument
  | none =>
    if args.onlyInputs then args.addInput argument
    else
      match argument with
      | ['-', '-'] => .ok { args with onlyInputs := true }
      | '-' :: '-' :: long => args.addLong long
      | '-' :: c :: letters => args.addLetters (c :: letters)
      | word => args.addWord word

/-! ## What arguments ask for -/

/-- The value of an option, wherever it is given. -/
def value? (args : Arguments) (option : CommandOption) : Option Text :=
  (args.inner.lookup option).or (args.outer.lookup option)

/-- A flag is raised. -/
def isRaised (args : Arguments) (flag : CommandOption) : Bool :=
  (args.value? flag).isSome

/-- An option is given before the command and after it. -/
def isGivenTwice (args : Arguments) (option : CommandOption) : Bool :=
  (args.inner.lookup option).isSome && (args.outer.lookup option).isSome

/-- A flag by a variable of the environment. -/
def flagOf? (text : Text) : Option Bool :=
  if text = "true".toList then some true
  else if text = "false".toList then some false
  else none

/-- A variable is looked at nowhere, or has a value that its option could have. -/
def admits (args : Arguments) (option : CommandOption) (isValue : Text → Bool) :
    Option Text → Bool
  | none => true
  | some text => args.isGivenTwice option || isValue text

/-- What a command asks for. -/
def request? (args : Arguments) : CommandName → Option Request
  | .list =>
    if args.inputs = [] then none
    else some (.list
      { inputs := args.inputs
        format? := args.value? .format
        skipUnclassified := args.isRaised .skipUnclassified })
  | .summarize =>
    if args.inputs = [] then none
    else some (.summarize
      { inputs := args.inputs
        jobs? := (args.value? .jobs).bind CommandOption.jobs? })
  | .setUp => some (.setUp { target? := args.value? .path, force := args.isRaised .force })

/-- What all arguments ask for, together with the environment. -/
def finish (args : Arguments) (environment : Variables) : Except Stop Invocation :=
  match args.awaiting?, args.command?.bind args.request? with
  | none, some request =>
    let isFlag := fun text => (flagOf? text).isSome
    if args.admits .verbose isFlag environment.verbose?
        && args.admits .config (CommandOption.accepts .config) environment.config?
        && args.admits .noColor isFlag environment.noColor? then
      .ok
        { verbose := args.isRaised .verbose || (environment.verbose?.bind flagOf?).getD false
          noColor := args.isRaised .noColor || (environment.noColor?.bind flagOf?).getD false
          settingsFile? := (args.value? .config).or environment.config?
          request }
    else .error .refused
  | _, _ => .error .refused

end Arguments

/-- What a call of the program asks for. -/
def Invocation.ofArguments (arguments : List Text) (environment : Variables) :
    Except Stop Invocation :=
  match arguments.foldlM Arguments.add {} with
  | .ok args => args.finish environment
  | .error stop => .error stop

end Highlighter
