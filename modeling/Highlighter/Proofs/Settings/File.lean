import Highlighter.Proofs.FileTree
import Highlighter.Proofs.Toml.Statement
import Highlighter.Settings.File

/-!
# Saved settings load back

Settings are the same after they are saved to a file and loaded from it, whatever they are: the file
holds what is written for them (`readText_putFile`), and this says for every setting what it is
(`Settings.ofText?_write`), since strings, booleans and numbers are all read back from what is
written for them. Nothing is left to defaults, so it does not matter which machine they are loaded
on.

Whether settings can be saved is a matter of the files and directories that are there, not of what
they are (`Settings.isOk_save`).
-/

namespace Highlighter

namespace Settings

open Toml

/-! ## What is written -/

theorem isWritten_writeBool (b : Bool) : IsWritten (writeBool b) (.boolean b) where
  skipSpaces_eq _ := by cases b <;> rfl
  value?_eq rest := value?_writeBool b ('\n' :: rest)

theorem isWritten_writeString (text : Text) : IsWritten (writeString text) (.string text) where
  skipSpaces_eq rest := by
    obtain ⟨tail, htail | htail⟩ := exists_writeString_eq text <;> rw [htail] <;> rfl
  value?_eq := value?_writeString text

theorem isWritten_word (n : UInt32) : IsWritten (Text.ofNat n.toNat) (.integer n.toNat) where
  skipSpaces_eq rest := by
    obtain ⟨d, ds, hds, hd⟩ := Text.exists_ofNat_eq_cons n.toNat
    have hne (c : Char) (hc : c.isDigit = false) : d ≠ c := Text.ne_of_isDigit hd hc
    rw [hds]
    exact skipSpaces_cons (by simp [isSpace, hne ' ' (by decide), hne '\t' (by decide)]) _
  value?_eq := by
    have hlt := n.toNat_lt
    have hrange : inRange n.toNat := by
      simp only [inRange, Bool.and_eq_true, decide_eq_true_eq]
      have hmin : Int64.minValue.toInt = -2 ^ 63 := by decide
      have hmax : Int64.maxValue.toInt = 2 ^ 63 - 1 := by decide
      omega
    exact value?_ofNat hrange

/-- The statements that settings are written in. -/
def statements (settings : Settings) : List Statement :=
  [.assign ["verbose".toList] (.boolean settings.verbose),
    .table ["tokens".toList],
    .assign ["format".toList] (.string settings.listing.format),
    .assign ["skip_unclassified".toList] (.boolean settings.listing.skipUnclassified),
    .table ["stats".toList],
    .assign ["jobs".toList] (.integer settings.summary.jobs.toNat)]

theorem says_write (settings : Settings) : Says settings.write settings.statements := by
  have hkey (key : Text) (h : key ≠ [] ∧ key.all isKeyPart) : IsBareKey key :=
    ⟨h.1, fun c hc => List.all_eq_true.1 h.2 c hc⟩
  exact (((((((says_writeEntry (hkey _ (by decide)) (isWritten_writeBool settings.verbose)).append
    says_newline).append
    (says_writeHeader (hkey _ (by decide)))).append
    (says_writeEntry (hkey _ (by decide)) (isWritten_writeString settings.listing.format))).append
    (says_writeEntry (hkey _ (by decide))
      (isWritten_writeBool settings.listing.skipUnclassified))).append
    says_newline).append
    (says_writeHeader (hkey _ (by decide)))).append
    (says_writeEntry (hkey _ (by decide)) (isWritten_word settings.summary.jobs))

/-- The table that the statements of settings come to. -/
def entries (settings : Settings) : Entries :=
  [("verbose".toList, .boolean settings.verbose),
    ("tokens".toList, .table .headed
      [("format".toList, .string settings.listing.format),
        ("skip_unclassified".toList, .boolean settings.listing.skipUnclassified)]),
    ("stats".toList, .table .headed [("jobs".toList, .integer settings.summary.jobs.toNat)])]

theorem foldlM_statements (settings : Settings) : settings.statements.foldlM Draft.add {} =
    some { root := settings.entries, path := ["stats".toList] } :=
  rfl

theorem word?_toNat (n : UInt32) : Value.word? (.integer n.toNat) = some n := by
  rw [Value.word?, if_pos ⟨Int.natCast_nonneg _, n.toNat_lt⟩, Int.toNat_natCast, UInt32.ofNat_toNat]

theorem ofEntries?_entries (cpus : UInt64) (settings : Settings) :
    ofEntries? cpus settings.entries = some settings := by
  have hsummary : SummarySettings.ofValue? cpus (.table .headed
        [("jobs".toList, .integer settings.summary.jobs.toNat)]) =
      (Value.word? (.integer settings.summary.jobs.toNat)).bind fun jobs => some { jobs } := rfl
  -- of all settings only the number of jobs has to be in a range
  have hread : ofEntries? cpus settings.entries =
      (SummarySettings.ofValue? cpus (.table .headed
        [("jobs".toList, .integer settings.summary.jobs.toNat)])).bind fun summary =>
          some { settings with summary } := rfl
  rw [hread, hsummary, word?_toNat, Option.bind_some, Option.bind_some]

/-- What is written for settings says what they are, on any machine. -/
theorem ofText?_write (cpus : UInt64) (settings : Settings) :
    ofText? cpus settings.write = some settings := by
  rw [ofText?, (says_write settings).read?_eq rfl, foldlM_statements, Option.map_some,
    Option.bind_some, ofEntries?_entries]

/-! ## Saving and loading -/

variable {cpus : UInt64} {tree after : FileTree} {path : Path} {settings : Settings}

/-- The tree in which settings are saved: the directories are made that their path leads through. -/
def withParents (tree : FileTree) (path : Path) : FileTree × Except IoError Unit :=
  (Path.parent? path).elim (tree, .ok ()) tree.makeDirectories

theorem putFile_of_save (h : save tree path settings = (after, .ok ())) :
    (withParents tree path).1.putFile path (Text.bytes settings.write) = .ok after := by
  rw [save] at h
  split at h
  next => cases h
  next before hparents =>
    rw [withParents, hparents]
    split at h
    next written hput =>
      obtain ⟨rfl, -⟩ := Prod.mk.inj h
      exact hput
    next => cases h

theorem loadFile_of_save (h : save tree path settings = (after, .ok ())) :
    loadFile cpus after path = .ok settings := by
  have hput := putFile_of_save h
  have hexists : after.pathExists path := by
    rw [FileTree.pathExists, FileTree.resolve_putFile hput]
    rfl
  rw [loadFile, FileTree.readText_putFile hput]
  simp [hexists, ofText?_write]

theorem isOk_save (tree : FileTree) (path : Path) (settings other : Settings) :
    (save tree path settings).2.isOk = (save tree path other).2.isOk := by
  rw [save, save]
  split
  next => rfl
  next before _ =>
    have hput := before.isOk_putFile path (Text.bytes settings.write) (Text.bytes other.write)
    cases h : before.putFile path (Text.bytes settings.write) <;>
      cases h' : before.putFile path (Text.bytes other.write) <;>
      rw [h, h'] at hput <;>
      first | rfl | cases hput

/-- Saved settings load back, whatever they are and on any machine: what is written for them says
    what they are, and the file that they are saved to has them; so settings that were loaded from a
    file, even on another machine, are the same after they are saved and loaded again. Saving is not
    refused to any settings where it is not refused to all. -/
theorem loads_back_saved (cpus : UInt64) (settings : Settings) :
    ofText? cpus settings.write = some settings ∧
      (∀ tree path after, save tree path settings = (after, .ok ()) →
        loadFile cpus after path = .ok settings) ∧
      (∀ cpus' tree source path after, loadFile cpus' tree source = .ok settings →
        save tree path settings = (after, .ok ()) →
          loadFile cpus after path = loadFile cpus' tree source) ∧
      ∀ tree path other, (save tree path settings).2.isOk = (save tree path other).2.isOk :=
  ⟨ofText?_write cpus settings, fun _ _ _ hsave => loadFile_of_save hsave,
    fun _ _ _ _ _ hload hsave => (loadFile_of_save hsave).trans hload.symm,
    fun tree path other => isOk_save tree path settings other⟩

/-- The name of the format may hold quotes of both kinds, a control and line ends. -/
theorem loads_back_saved_quotes :
    let settings : Settings :=
      { verbose := true
        listing := { format := "\"\"\"'''\\\x00\r\né".toList, skipUnclassified := true }
        summary := { jobs := 4294967295 } }
    let saved := save ⟨[], []⟩ fileName settings
    let again := save saved.1 fileName settings
    saved = (saved.1, .ok ()) ∧ loadFile 8 saved.1 fileName = .ok settings ∧
      again = (again.1, .ok ()) ∧ loadFile 8 again.1 fileName = loadFile 2 saved.1 fileName := by
  intro settings saved again
  have hsaved : saved = (saved.1, .ok ()) := rfl
  have hload (cpus : UInt64) := (loads_back_saved cpus settings).2.1 ⟨[], []⟩ fileName _ hsaved
  have hagain : again = (again.1, .ok ()) := rfl
  exact ⟨hsaved, hload 8, hagain,
    (loads_back_saved 8 settings).2.2.1 2 saved.1 fileName fileName _ (hload 2) hagain⟩

end Settings

end Highlighter
