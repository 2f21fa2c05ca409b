import Highlighter.Proofs.FileTree.Growth
import Highlighter.Proofs.Settings.File
import Highlighter.Settings.Setup

/-!
# Setting up writes over nothing

A run either is refused, and then it has made directories at most, or writes the settings file,
and then nothing else has changed (`SetupRequest.Outcome`, with one case for each). The tree is
prepared before it is looked at, but this makes directories only, so that the file that is
looked for in the prepared tree is there in the tree before the run, or not, as well; and where the
target is a directory, the path leads to the same location when it is looked at and when it is
written (`FileTree.locate_join`). So a run that is not forced writes only where no file was.

A file stays a file, whatever runs and writes come after (`SetupEvent.exists_file_applyAll`), and
paths to it still lead there. So once the settings file is written, every run for the same
directory that is not forced is refused, and leaves the file as it is, whatever has been written
to it since (`SetupRequest.run_writes_over_nothing`).
-/

namespace Highlighter

variable {tree after : FileTree} {location : Location} {path : Path} {settings : Settings}

/-! ## What is written -/

namespace FileTree

/-- A file was written where no directory was, and besides only directories are new. -/
structure Wrote (tree after : FileTree) (location : Location) (content : List UInt8) : Prop where
  current : after.current = tree.current
  notDirectory : tree.find? location ≠ some .directory
  content : after.find? location = some (.file content)
  elsewhere : ∀ other, other ≠ location → tree.KeepsAt after other

variable {content : List UInt8}

/-- A file is written after directories were made. -/
theorem Grows.wrote_put (h : tree.Grows after) (hfind : after.find? location ≠ some .directory)
    (content : List UInt8) : tree.Wrote (after.put location (.file content)) location content where
  current := h.current
  notDirectory hdirectory := hfind (h.find?_eq hdirectory)
  content := by rw [find?_put _ _ _ _ (ne_nil_of_find?_ne hfind), if_pos rfl]
  elsewhere other hne := by
    rw [KeepsAt, find?_put _ _ _ _ (ne_nil_of_find?_ne hfind), if_neg hne]
    exact h.keepsAt other

theorem Wrote.keepsDirectories (h : tree.Wrote after location content) :
    tree.KeepsDirectories after where
  current := h.current
  find? other hdirectory := by
    have hne : other ≠ location := by
      rintro rfl
      exact h.notDirectory hdirectory
    exact (h.elsewhere other hne).find?_eq hdirectory

end FileTree

open FileTree

namespace Settings

theorem grows_withParents (tree : FileTree) (path : Path) :
    tree.Grows (withParents tree path).1 := by
  rw [withParents]
  cases Path.parent? path with
  | none => exact .refl tree
  | some parent => exact grows_makeDirectories tree parent

/-- Settings that are not saved have made directories at most. -/
theorem grows_of_save_error {e : Failure} (h : save tree path settings = (after, .error e)) :
    tree.Grows after := by
  have hgrows := grows_withParents tree path
  rw [save] at h
  split at h
  next before _ hparents =>
    rw [withParents, hparents] at hgrows
    cases h
    exact hgrows
  next before hparents =>
    rw [withParents, hparents] at hgrows
    split at h
    next => cases h
    next => cases h; exact hgrows

end Settings

/-! ## One run -/

namespace SetupRequest

/-- The path of the settings file. -/
def settingsPath (request : SetupRequest) : Path :=
  Path.join request.target Settings.fileName

theorem isName_fileName : IsName Settings.fileName where
  not_slash := by decide
  not_special := by decide
  length := by decide

/-- Whether it succeeds or not, preparing the target makes directories at most. -/
theorem grows_prepare {target : Path} {result : Except Failure Unit} {log : Log}
    (h : prepare tree target = (after, result, log)) : tree.Grows after := by
  rw [prepare] at h
  split at h
  next =>
    cases h
    exact grows_makeDirectories tree target
  next =>
    split at h <;> cases h <;> exact .refl tree

/-- A target that is prepared is a directory, unless its path is empty. -/
theorem isDirectory_of_prepare {target : Path} {log : Log}
    (h : prepare tree target = (after, .ok (), log)) (hne : target ≠ []) :
    after.isDirectory target := by
  rw [prepare] at h
  split at h
  next =>
    obtain ⟨rfl, hresult⟩ := Prod.mk.inj h
    refine isDirectory_of_makeDirectories hne ?_
    cases hmade : (tree.makeDirectories target).2 with
    | ok => rfl
    | error e =>
      rw [hmade] at hresult
      cases hresult
  next =>
    split at h
    next => cases h
    next hdirectory =>
      obtain ⟨rfl, -⟩ := Prod.mk.inj h
      simpa using hdirectory

/-- In the prepared tree, the settings file is looked for at the location to which it is
    written. -/
theorem locate_settingsPath {prepared : FileTree} {log : Log} {request : SetupRequest}
    (h : prepare tree request.target = (prepared, .ok (), log))
    (hlocate : (Settings.withParents prepared request.settingsPath).1.locate request.settingsPath =
      .ok location) :
    prepared.locate request.settingsPath = .ok location := by
  by_cases hne : request.target = []
  · -- the file is in the working directory, for which no directory is made
    have hpath : request.settingsPath = Settings.fileName := by
      rw [settingsPath, hne]
      rfl
    rw [hpath] at hlocate ⊢
    exact hlocate
  · exact locate_join (isDirectory_of_prepare h hne) isName_fileName
      (Settings.grows_withParents ..).keepsDirectories hlocate

/-- What a run comes to. -/
inductive Outcome (request : SetupRequest) (cpus : UInt64) (tree : FileTree) (setup : Setup) :
    Prop
  /-- It is refused, and has made directories at most. -/
  | refused {e : Failure} :
    setup.result = .error e → tree.Grows setup.tree → Outcome request cpus tree setup
  /-- It has written the defaults of the machine, and only where no file was unless it is
      forced. -/
  | written {location : Location} :
    setup.result = .ok request.settingsPath →
      setup.tree.locate request.settingsPath = .ok location →
      tree.Wrote setup.tree location (Text.bytes (Settings.defaults cpus).write) →
      (∀ cpus', Settings.loadFile cpus' setup.tree request.settingsPath = .ok (.defaults cpus)) →
      (request.force = false →
        tree.pathExists request.settingsPath = false ∧ tree.find? location = none) →
      Outcome request cpus tree setup

theorem outcome_run (request : SetupRequest) (verbose : Bool) (cpus : UInt64) (tree : FileTree) :
    Outcome request cpus tree (request.run verbose cpus tree) := by
  rw [run]
  split
  next prepared e log hprepare => exact .refused rfl (grows_prepare hprepare)
  next prepared log hprepare =>
    have hgrows := grows_prepare hprepare
    change Outcome request cpus tree
      (if prepared.pathExists request.settingsPath && !request.force then _ else _)
    by_cases hrefused : (prepared.pathExists request.settingsPath && !request.force)
    · rw [if_pos hrefused]
      exact .refused rfl hgrows
    rw [if_neg hrefused]
    rcases hsave : Settings.save prepared request.settingsPath (.defaults cpus) with ⟨after, e | ⟨⟩⟩
    · simp only [settingsPath] at hsave
      rw [hsave]
      exact .refused rfl (hgrows.trans (Settings.grows_of_save_error hsave))
    · have hload (cpus' : UInt64) := @Settings.loadFile_of_save cpus' _ _ _ _ hsave
      obtain ⟨location, hlocate, hfind, rfl⟩ := exists_of_putFile (Settings.putFile_of_save hsave)
      have hparents := Settings.grows_withParents prepared request.settingsPath
      simp only [settingsPath] at hsave
      rw [hsave]
      refine .written rfl ((keepsDirectories_put hfind _).locateBy hlocate)
        ((hgrows.trans hparents).wrote_put hfind _) hload fun hforce => ?_
      -- what is not there when the file is looked for was not there before the run
      have hlooked : prepared.pathExists request.settingsPath = false := by
        simpa [hforce] using hrefused
      have hnone : prepared.find? location = none := by
        rw [pathExists_of_locate (locate_settingsPath hprepare hlocate)] at hlooked
        simpa using hlooked
      exact ⟨hgrows.pathExists_eq_false hlooked, hgrows.find?_eq_none hnone⟩

end SetupRequest

/-! ## Many runs -/

/-- What may happen to a tree: a run, on a machine with a number of processors, or that a file is
    written to by anyone. -/
inductive SetupEvent where
  | run (request : SetupRequest) (verbose : Bool) (cpus : UInt64)
  | write (path : Path) (content : List UInt8)

namespace SetupEvent

/-- The tree after an event; a write that fails leaves it as it was. -/
def apply (tree : FileTree) : SetupEvent → FileTree
  | run request verbose cpus => (request.run verbose cpus tree).tree
  | write path content =>
    match tree.putFile path content with
    | .ok after => after
    | .error _ => tree

/-- The tree after events. -/
def applyAll (tree : FileTree) (events : List SetupEvent) : FileTree :=
  events.foldl apply tree

/-- An event makes directories at most, or it writes a file besides. -/
theorem grows_or_wrote_apply (tree : FileTree) (e : SetupEvent) :
    tree.Grows (apply tree e) ∨ ∃ location content, tree.Wrote (apply tree e) location content := by
  cases e with
  | run request verbose cpus =>
    cases request.outcome_run verbose cpus tree with
    | refused _ hgrows => exact .inl hgrows
    | written _ _ hwrote _ _ => exact .inr ⟨_, _, hwrote⟩
  | write path content =>
    rw [apply]
    split
    next hput =>
      obtain ⟨location, -, hfind, rfl⟩ := exists_of_putFile hput
      exact .inr ⟨location, content, (Grows.refl tree).wrote_put hfind content⟩
    next => exact .inl (.refl tree)

theorem keepsDirectories_apply (tree : FileTree) (e : SetupEvent) :
    tree.KeepsDirectories (apply tree e) := by
  rcases grows_or_wrote_apply tree e with hgrows | ⟨_, _, hwrote⟩
  · exact hgrows.keepsDirectories
  · exact hwrote.keepsDirectories

/-- A file stays a file, though its content may change. -/
theorem exists_file_apply {content : List UInt8} (h : tree.find? location = some (.file content))
    (e : SetupEvent) : ∃ content', (apply tree e).find? location = some (.file content') := by
  rcases grows_or_wrote_apply tree e with hgrows | ⟨written, content', hwrote⟩
  · exact ⟨content, hgrows.find?_eq h⟩
  · by_cases heq : location = written
    · exact ⟨content', heq ▸ hwrote.content⟩
    · exact ⟨content, (hwrote.elsewhere location heq).find?_eq h⟩

theorem keepsDirectories_applyAll (tree : FileTree) (events : List SetupEvent) :
    tree.KeepsDirectories (applyAll tree events) := by
  induction events generalizing tree with
  | nil => exact .refl tree
  | cons e events ih => exact (keepsDirectories_apply tree e).trans (ih _)

theorem exists_file_applyAll {content : List UInt8}
    (h : tree.find? location = some (.file content)) (events : List SetupEvent) :
    ∃ content', (applyAll tree events).find? location = some (.file content') := by
  induction events generalizing tree content with
  | nil => exact ⟨content, h⟩
  | cons e events ih =>
    obtain ⟨_, hfile⟩ := exists_file_apply h e
    exact ih hfile

end SetupEvent

namespace SetupRequest

/-- A run changes no directory. -/
theorem keepsDirectories_run (request : SetupRequest) (verbose : Bool) (cpus : UInt64)
    (tree : FileTree) : tree.KeepsDirectories (request.run verbose cpus tree).tree :=
  SetupEvent.keepsDirectories_apply tree (.run request verbose cpus)

/-- Where the path of the settings file leads to a file, a run that is not forced is refused and
    leaves the file as it is. -/
theorem refused_of_file {request : SetupRequest} {verbose : Bool} {cpus : UInt64}
    {content : List UInt8} (hforce : request.force = false)
    (hfile : tree.find? location = some (.file content))
    (hlocate : (request.run verbose cpus tree).tree.locate request.settingsPath = .ok location) :
    (∃ e, (request.run verbose cpus tree).result = .error e) ∧
      (request.run verbose cpus tree).tree.find? location = some (.file content) := by
  cases request.outcome_run verbose cpus tree with
  | refused hresult hgrows => exact ⟨⟨_, hresult⟩, hgrows.find?_eq hfile⟩
  | written _ hwritten _ _ hunforced =>
    obtain rfl := Except.ok.inj (hlocate.symm.trans hwritten)
    rw [(hunforced hforce).2] at hfile
    cases hfile

/-- A run that is refused makes directories at most. One that succeeds writes the defaults of its
    machine, which load back on any machine, and only where no file was unless it is forced; and
    whatever runs and writes come after, a run for the same directory that is not forced is refused
    then, on whatever machine, and leaves the file as it is. -/
theorem run_writes_over_nothing (request : SetupRequest) (verbose : Bool) (cpus : UInt64)
    (tree : FileTree) :
    let setup := request.run verbose cpus tree
    (∀ e, setup.result = .error e → tree.Grows setup.tree) ∧
    ∀ path, setup.result = .ok path → path = request.settingsPath ∧
      ∃ location, setup.tree.locate path = .ok location ∧
        tree.Wrote setup.tree location (Text.bytes (Settings.defaults cpus).write) ∧
        (∀ cpus', Settings.loadFile cpus' setup.tree path = .ok (.defaults cpus)) ∧
        (request.force = false → tree.pathExists path = false ∧ tree.find? location = none) ∧
        ∀ (events : List SetupEvent) (later : SetupRequest) (verbose' : Bool) (cpus' : UInt64),
          let meanwhile := SetupEvent.applyAll setup.tree events
          let again := later.run verbose' cpus' meanwhile
          later.force = false →
          (later.target = request.target ∨ again.tree.locate later.settingsPath = .ok location) →
            (∃ e, again.result = .error e) ∧
            ∃ content, meanwhile.find? location = some (.file content) ∧
              again.tree.find? location = some (.file content) := by
  intro setup
  cases request.outcome_run verbose cpus tree with
  | refused hresult hgrows =>
    refine ⟨fun _ _ => hgrows, fun _ hpath => ?_⟩
    cases hresult.symm.trans hpath
  | @written location hresult hlocate hwrote hload hunforced =>
    refine ⟨fun _ h => ?_, fun path hpath => ?_⟩
    · cases hresult.symm.trans h
    obtain rfl := Except.ok.inj (hresult.symm.trans hpath)
    refine ⟨rfl, location, hlocate, hwrote, hload, hunforced, ?_⟩
    intro events later verbose' cpus' meanwhile again hforce hsame
    obtain ⟨content, hfile⟩ := SetupEvent.exists_file_applyAll hwrote.content events
    -- the path leads to the file as long as the directories stay on the way to it
    have hagain : again.tree.locate later.settingsPath = .ok location := by
      rcases hsame with htarget | hagain
      · have hkeeps := (SetupEvent.keepsDirectories_applyAll setup.tree events).trans
          (later.keepsDirectories_run verbose' cpus' meanwhile)
        rw [settingsPath, htarget]
        exact hkeeps.locateBy hlocate
      · exact hagain
    obtain ⟨herror, hkept⟩ := refused_of_file hforce hfile hagain
    exact ⟨herror, content, hfile, hkept⟩

/-- In an empty tree, the directory is made; after the file was edited, a second run is refused,
    on a machine with fewer processors. -/
theorem run_writes_over_nothing_edited :
    let request : SetupRequest := { target? := some "new".toList }
    let path : Path := "new/ravt.toml".toList
    let edited : List UInt8 := [35]
    let setup := request.run false 8 ⟨[], []⟩
    let meanwhile := SetupEvent.applyAll setup.tree [.write path edited]
    let again := request.run false 2 meanwhile
    setup.result = .ok path ∧ Settings.loadFile 2 setup.tree path = .ok { summary := ⟨8⟩ } ∧
      meanwhile.contentOf path = .ok edited ∧
      (∃ e, again.result = .error e) ∧ again.tree.find? ["new".toList, "ravt.toml".toList] =
        some (.file edited) := by
  intro request path edited setup meanwhile again
  have hresult : setup.result = .ok path := by decide +kernel
  have hcontent : meanwhile.contentOf path = .ok edited := by decide +kernel
  obtain ⟨-, hwritten⟩ := run_writes_over_nothing request false 8 ⟨[], []⟩
  obtain ⟨-, location, hlocate, -, hload, -, hlater⟩ := hwritten path hresult
  have hlocation : setup.tree.locate path = .ok ["new".toList, "ravt.toml".toList] := by
    decide +kernel
  obtain rfl := Except.ok.inj (hlocate.symm.trans hlocation)
  obtain ⟨herror, content, hfile, hkept⟩ :=
    hlater [.write path edited] request false 2 rfl (.inl rfl)
  have hedited : meanwhile.find? ["new".toList, "ravt.toml".toList] = some (.file edited) := by
    decide +kernel
  exact ⟨hresult, hload 2, hcontent, herror, hkept.trans (hfile.symm.trans hedited)⟩

end SetupRequest

end Highlighter
