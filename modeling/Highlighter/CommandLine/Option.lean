import Highlighter.Command
import Highlighter.FileTree.Path

/-!
# Options

The options of the command line. Some may be given before and after the command, others
belong to a command and are given after it. An option has a long name (`--config`) and
may have a letter (`-c`); it either takes a value or is only raised, as a flag.
-/

namespace Highlighter

/-- An option of the command line. -/
inductive CommandOption where
  /-- More is told about the work. -/
  | verbose
  /-- The settings file. -/
  | config
  /-- What is told has no colours. -/
  | noColor
  | help
  | version
  /-- The format of listings. -/
  | format
  /-- Tokens of no category are left out. -/
  | skipUnclassified
  /-- The number of workers. -/
  | jobs
  /-- The directory of a new settings file. -/
  | path
  /-- A settings file that is there is written over. -/
  | force
deriving DecidableEq

namespace CommandOption

/-- The long name of an option, after its two dashes. -/
def long : CommandOption → Text
  | verbose => "verbose".toList
  | config => "config".toList
  | noColor => "no-color".toList
  | help => "help".toList
  | version => "version".toList
  | format => "format".toList
  | skipUnclassified => "skip-unclassified".toList
  | jobs => "jobs".toList
  | path => "path".toList
  | force => "force".toList

/-- The letter of an option, after its dash. -/
def letter? : CommandOption → Option Char
  | verbose => some 'v'
  | config => some 'c'
  | help => some 'h'
  | version => some 'V'
  | format => some 'F'
  | jobs => some 'j'
  | path => some 'p'
  | force => some 'f'
  | noColor | skipUnclassified => none

/-- An option takes a value. -/
def takesValue : CommandOption → Bool
  | config | format | jobs | path => true
  | verbose | noColor | help | version | skipUnclassified | force => false

/-- The options that may be given everywhere. -/
def common : List CommandOption := [verbose, config, noColor, help, version]

/-- The options of a command. -/
def ofCommand : CommandName → List CommandOption
  | .list => [format, skipUnclassified]
  | .summarize => [jobs]
  | .setUp => [path, force]

/-- The options that may be given before the command, or after it. -/
def within : Option CommandName → List CommandOption
  | none => common
  | some command => common ++ ofCommand command

/-- A number of workers: decimal digits with or without sign, in 32 bits. -/
def jobs? (text : Text) : Option UInt32 :=
  let digits := match text with
    | '+' :: rest | '-' :: rest => rest
    | _ => text
  let n := digits.foldl (fun n c => 10 * n + (c.toNat - '0'.toNat)) 0
  if digits = [] ∨ !digits.all Char.isDigit then none
  else if text.head? = some '-' ∧ n ≠ 0 then none
  else if n < UInt32.size then some (UInt32.ofNat n)
  else none

/-- The values that an option may have. A path is not empty. -/
def accepts (option : CommandOption) (value : Text) : Bool :=
  match option with
  | config | path => value ≠ []
  | jobs => (jobs? value).isSome
  | _ => true

end CommandOption

end Highlighter
