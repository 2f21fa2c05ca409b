import Highlighter.Toml.Reader
import Highlighter.Toml.Writer

/-!
# Settings

What commands do where their arguments leave it open. Settings are kept in a file of
TOML:

```
verbose = false

[tokens]
format = "text"
skip_unclassified = false

[stats]
jobs = 8
```

Everything in such a file may be left out, and keys that are not settings do not
matter; but a setting must have a value of its type. A part may also be given as an
array of its settings, in their order.

What is left out has its default (`Settings.defaults`). By default there are as many
workers as the machine has processors, so settings are read with the number of these.

`Settings.write` and `Settings.ofText?` are the two directions.
-/

namespace Highlighter

/-- Settings of listings. -/
structure ListSettings where
  /-- The name of the format. -/
  format : Text := "text".toList
  /-- Tokens of no category are left out. -/
  skipUnclassified : Bool := false
deriving DecidableEq

/-- Settings of summaries. -/
structure SummarySettings where
  /-- The number of workers. -/
  jobs : UInt32
deriving DecidableEq

/-- Settings of the program. -/
structure Settings where
  /-- More is told about the work. -/
  verbose : Bool := false
  listing : ListSettings := {}
  summary : SummarySettings
deriving DecidableEq

/-! ## Defaults -/

namespace SummarySettings

/-- The number of workers for a number of processors: as many, or a few if they are too
    many to be counted in 32 bits. -/
def jobsFor (cpus : UInt64) : UInt32 :=
  if cpus.toNat < UInt32.size then cpus.toUInt32 else 4

/-- The settings of summaries on a machine with a number of processors. -/
def defaults (cpus : UInt64) : SummarySettings where
  jobs := jobsFor cpus

end SummarySettings

/-- The settings of the program on a machine with a number of processors. -/
def Settings.defaults (cpus : UInt64) : Settings where
  summary := .defaults cpus

/-! ## Reading -/

namespace Toml.Value

/-- The boolean that a value is. -/
def bool? : Value → Option Bool
  | boolean b => some b
  | _ => none

/-- The text that a value is. -/
def text? : Value → Option Text
  | string text => some text
  | _ => none

/-- The number of 32 bits that a value is. -/
def word? : Value → Option UInt32
  | integer n => if 0 ≤ n ∧ n.toNat < UInt32.size then some (UInt32.ofNat n.toNat) else none
  | _ => none

/-- The settings that a value gives for a part: its keys, or its items for them in
    order. A date has no keys that are settings. -/
def settings? (keys : List Text) : Value → Option (List (Option Value))
  | table _ entries => some (keys.map (Entries.find? entries))
  | array items => some ((List.range keys.length).map fun i => items[i]?)
  | tables rows => some ((List.range keys.length).map fun i => rows[i]?.map (table .headed))
  | dateTime _ => some (keys.map fun _ => none)
  | _ => none

end Toml.Value

/-- What a setting is: as its value says, if it has one of its type. -/
def settingOf? {α : Type} (read : Toml.Value → Option α) (default : α) :
    Option Toml.Value → Option α
  | none => some default
  | some value => read value

namespace ListSettings

/-- The names of the settings of listings. -/
def keys : List Text := ["format".toList, "skip_unclassified".toList]

/-- The settings of listings that a value gives. -/
def ofValue? (value : Toml.Value) : Option ListSettings := do
  let given ← value.settings? keys
  let format ← settingOf? Toml.Value.text? ({} : ListSettings).format (given[0]?.getD none)
  let skipUnclassified ←
    settingOf? Toml.Value.bool? ({} : ListSettings).skipUnclassified (given[1]?.getD none)
  return { format, skipUnclassified }

end ListSettings

namespace SummarySettings

/-- The names of the settings of summaries. -/
def keys : List Text := ["jobs".toList]

/-- The settings of summaries that a value gives. -/
def ofValue? (cpus : UInt64) (value : Toml.Value) : Option SummarySettings := do
  let given ← value.settings? keys
  let jobs ← settingOf? Toml.Value.word? (defaults cpus).jobs (given[0]?.getD none)
  return { jobs }

end SummarySettings

namespace Settings

/-- The settings that a table gives, on a machine with a number of processors. -/
def ofEntries? (cpus : UInt64) (entries : Toml.Entries) : Option Settings := do
  let verbose ←
    settingOf? Toml.Value.bool? (defaults cpus).verbose (entries.find? "verbose".toList)
  let listing ←
    settingOf? ListSettings.ofValue? (defaults cpus).listing (entries.find? "tokens".toList)
  let summary ←
    settingOf? (SummarySettings.ofValue? cpus) (defaults cpus).summary
      (entries.find? "stats".toList)
  return { verbose, listing, summary }

/-- The settings that a text of TOML gives, on a machine with a number of processors. -/
def ofText? (cpus : UInt64) (text : Text) : Option Settings :=
  (Toml.read? text).bind (ofEntries? cpus)

/-! ## Writing -/

/-- Settings as a text of TOML. -/
def write (settings : Settings) : Text :=
  Toml.writeEntry "verbose".toList (Toml.writeBool settings.verbose)
    ++ ['\n'] ++ Toml.writeHeader "tokens".toList
    ++ Toml.writeEntry "format".toList (Toml.writeString settings.listing.format)
    ++ Toml.writeEntry "skip_unclassified".toList
      (Toml.writeBool settings.listing.skipUnclassified)
    ++ ['\n'] ++ Toml.writeHeader "stats".toList
    ++ Toml.writeEntry "jobs".toList (Text.ofNat settings.summary.jobs.toNat)

end Settings

end Highlighter
