import Highlighter.Proofs.FileTree
import Mathlib.Data.List.TakeWhile

/-!
# Directories that are made

Making directories changes nothing that is there: it only puts directories where nothing was
(`Grows`), and this also where it fails halfway (`grows_makeDirectories`). Where it succeeds, the
path leads to a directory (`isDirectory_of_makeDirectories`).

Where a path leads to a directory, the path of a name in it (`Path.join`) is located already,
whether or not something of that name is there (`locate_join`).
-/

namespace Highlighter

namespace Path

theorem steps_append_slash (path : Path) (name : Text) :
    steps (path ++ '/' :: name) = steps path ++ steps name := by
  rw [steps, steps, steps, Text.splitOn_eq_splitOn, Text.splitOn_eq_splitOn,
    Text.splitOn_eq_splitOn]
  exact List.splitOn_append_cons_self path name

/-- The steps that an entry is not located by are all empty. -/
theorem exists_steps_eq_append (path : Path) :
    ∃ empties, steps path = entrySteps path ++ empties ∧ ∀ s ∈ empties, s = [] := by
  refine ⟨((steps path).reverse.takeWhile (· = [])).reverse, ?_, fun s hs => ?_⟩
  · rw [entrySteps, ← List.reverse_append, List.takeWhile_append_dropWhile, List.reverse_reverse]
  · simpa using List.mem_takeWhile_imp (List.mem_reverse.1 hs)

end Path

namespace FileTree

variable {tree after : FileTree} {location stop : Location} {path target : Path} {name : Text}
  {s t : List Text} {entry : Entry}

/-! ## What a path leads to -/

theorem resolve_eq_ok_iff :
    tree.resolve path = .ok entry ↔
      ∃ location, tree.locate path = .ok location ∧ tree.find? location = some entry := by
  rw [resolve]
  cases tree.locate path with
  | error e => simp
  | ok location =>
    cases h : tree.find? location <;> simp [h]

theorem pathExists_iff :
    tree.pathExists path ↔
      ∃ location entry, tree.locate path = .ok location ∧ tree.find? location = some entry := by
  have hok : tree.pathExists path ↔ ∃ entry, tree.resolve path = .ok entry := by
    rw [pathExists]
    cases tree.resolve path <;> simp [Except.isOk, Except.toBool]
  rw [hok, exists_comm]
  exact exists_congr fun entry => resolve_eq_ok_iff

theorem pathExists_of_locate (h : tree.locate path = .ok location) :
    tree.pathExists path = (tree.find? location).isSome := by
  rw [pathExists, resolve, h]
  dsimp only
  cases tree.find? location <;> rfl

theorem isDirectory_iff :
    tree.isDirectory path ↔
      ∃ location, tree.locate path = .ok location ∧ tree.find? location = some .directory := by
  rw [← resolve_eq_ok_iff, isDirectory]
  split <;> simp_all

/-! ## Growth -/

/-- What was at a location has not changed; where nothing was, a directory may be. -/
def KeepsAt (tree after : FileTree) (location : Location) : Prop :=
  after.find? location = tree.find? location ∨
    tree.find? location = none ∧ after.find? location = some .directory

theorem KeepsAt.find?_eq (h : tree.KeepsAt after location)
    (hfind : tree.find? location = some entry) : after.find? location = some entry := by
  rcases h with heq | ⟨hnone, -⟩
  · rw [heq, hfind]
  · rw [hnone] at hfind
    cases hfind

/-- Nothing that was there has changed, and only directories are new. -/
structure Grows (tree after : FileTree) : Prop where
  current : after.current = tree.current
  keepsAt : ∀ location, tree.KeepsAt after location

namespace Grows

theorem refl (tree : FileTree) : tree.Grows tree :=
  ⟨rfl, fun _ => .inl rfl⟩

theorem find?_eq (h : tree.Grows after) (hfind : tree.find? location = some entry) :
    after.find? location = some entry :=
  (h.keepsAt location).find?_eq hfind

theorem trans {between : FileTree} (h : tree.Grows between) (h' : between.Grows after) :
    tree.Grows after where
  current := h'.current.trans h.current
  keepsAt location := by
    rcases h.keepsAt location with heq | ⟨hnone, hnew⟩
    · rw [KeepsAt, ← heq]
      exact h'.keepsAt location
    · exact .inr ⟨hnone, h'.find?_eq hnew⟩

theorem keepsDirectories (h : tree.Grows after) : tree.KeepsDirectories after :=
  ⟨h.current, fun _ => h.find?_eq⟩

/-- What is not there later was not there before. -/
theorem pathExists_eq_false (h : tree.Grows after) (hafter : after.pathExists path = false) :
    tree.pathExists path = false := by
  by_contra hexists
  obtain ⟨location, entry, hlocate, hfind⟩ := pathExists_iff.1 (by simpa using hexists)
  have hlater : after.pathExists path :=
    pathExists_iff.2 ⟨location, entry, h.keepsDirectories.locateBy hlocate, h.find?_eq hfind⟩
  rw [hafter] at hlater
  cases hlater

theorem find?_eq_none (h : tree.Grows after) (hafter : after.find? location = none) :
    tree.find? location = none := by
  rcases h.keepsAt location with heq | ⟨hnone, -⟩
  · exact heq.symm.trans hafter
  · exact hnone

end Grows

theorem grows_put_directory (h : tree.find? location = none) :
    tree.Grows (tree.put location .directory) where
  current := rfl
  keepsAt other := by
    have hne : location ≠ [] := ne_nil_of_find?_ne (h ▸ (Option.some_ne_none _).symm)
    rw [KeepsAt, find?_put _ _ _ _ hne]
    split
    next heq => exact .inr ⟨heq ▸ h, rfl⟩
    next => exact .inl rfl

/-! ## Making directories -/

theorem exists_of_makeDirectory (h : tree.makeDirectory path = .ok after) :
    ∃ location, tree.locateEntry path = .ok location ∧ tree.find? location = none ∧
      after = tree.put location .directory := by
  rw [makeDirectory] at h
  split at h
  next => cases h
  next location hlocate =>
    split at h
    next => cases h
    next =>
      split at h
      next => cases h
      next hfind => exact ⟨location, hlocate, hfind, (Except.ok.inj h).symm⟩

theorem grows_ensureDirectory (tree : FileTree) (path : Path) :
    tree.Grows (tree.ensureDirectory path).1 := by
  rw [ensureDirectory]
  split
  next hmake =>
    obtain ⟨location, -, hfind, rfl⟩ := exists_of_makeDirectory hmake
    exact grows_put_directory hfind
  next => exact .refl tree

theorem grows_makeDirectoriesWithin (tree : FileTree) (height : Nat) (path : Path) :
    tree.Grows (tree.makeDirectoriesWithin height path).1 := by
  fun_induction makeDirectoriesWithin tree height path with
  | case1 => exact .refl tree
  | case2 path _ parent height _ _ between hparent ih =>
    rw [hparent] at ih
    exact ih.trans (grows_ensureDirectory between path)
  | case3 path _ parent height _ _ after e hparent ih =>
    rwa [hparent] at ih
  | case4 height path => exact grows_ensureDirectory tree path

/-- Whether it succeeds or not, making directories changes nothing that is there. -/
theorem grows_makeDirectories (tree : FileTree) (path : Path) :
    tree.Grows (tree.makeDirectories path).1 :=
  grows_makeDirectoriesWithin ..

/-! ## The directory that is made -/

theorem follow_append_eq_ok_iff :
    tree.follow location (s ++ t) = .ok stop ↔
      ∃ between, tree.follow location s = .ok between ∧ tree.follow between t = .ok stop := by
  induction s generalizing location with
  | nil => simp [follow]
  | cons name names ih =>
    rw [List.cons_append, follow, follow]
    cases tree.step location name with
    | ok next => exact ih
    | error e => simp

/-- An empty step is taken in a directory, and stays there. -/
theorem follow_of_forall_eq_nil (h : tree.find? location = some .directory)
    (hs : ∀ name ∈ s, name = []) : tree.follow location s = .ok location := by
  induction s with
  | nil => rfl
  | cons name names ih =>
    obtain ⟨rfl, hnames⟩ := List.forall_mem_cons.1 hs
    have hstep : tree.step location [] = .ok location := by
      rw [step, h]
      rfl
    rw [follow, hstep]
    exact ih hnames

theorem eq_of_follow_empty (h : tree.follow location [[]] = .ok stop) : stop = location := by
  rw [follow, step] at h
  split at h
  next next hstep =>
    split at hstep
    next => cases hstep
    next => cases hstep
    next =>
      rw [if_pos (.inl rfl)] at hstep
      exact ((Except.ok.inj hstep).trans (Except.ok.inj h)).symm
  next => cases h

theorem isDirectory_of_makeDirectory (h : tree.makeDirectory path = .ok after) :
    after.isDirectory path := by
  obtain ⟨location, hlocate, hfind, rfl⟩ := exists_of_makeDirectory h
  have hdirectory : (tree.put location .directory).find? location = some .directory := by
    have hne : location ≠ [] := ne_nil_of_find?_ne (hfind ▸ (Option.some_ne_none _).symm)
    rw [find?_put _ _ _ _ hne, if_pos rfl]
  have hentry := (grows_put_directory hfind).keepsDirectories.locateBy hlocate
  obtain ⟨hallowed, hfollow⟩ := locateBy_eq_ok_iff.1 hentry
  obtain ⟨empties, hsteps, hempties⟩ := Path.exists_steps_eq_append path
  refine isDirectory_iff.2 ⟨location, locateBy_eq_ok_iff.2 ⟨hallowed, ?_⟩, hdirectory⟩
  rw [hsteps, follow_append_eq_ok_iff]
  exact ⟨location, hfollow, follow_of_forall_eq_nil hdirectory hempties⟩

theorem isDirectory_of_ensureDirectory (h : (tree.ensureDirectory path).2 = .ok ()) :
    (tree.ensureDirectory path).1.isDirectory path := by
  rw [ensureDirectory] at h ⊢
  split at h
  next hmake => exact isDirectory_of_makeDirectory hmake
  next =>
    split at h
    next hdirectory => exact hdirectory
    next => cases h

theorem isDirectory_of_makeDirectoriesWithin {height : Nat} (hne : path ≠ [])
    (h : (tree.makeDirectoriesWithin height path).2 = .ok ()) :
    (tree.makeDirectoriesWithin height path).1.isDirectory path := by
  revert h
  fun_cases makeDirectoriesWithin tree height path with
  | case1 => exact absurd rfl hne
  | case2 => exact isDirectory_of_ensureDirectory
  | case3 =>
    intro h
    cases h
  | case4 => exact isDirectory_of_ensureDirectory

/-- Where making directories succeeds, the path leads to a directory. -/
theorem isDirectory_of_makeDirectories (hne : path ≠ [])
    (h : (tree.makeDirectories path).2 = .ok ()) : (tree.makeDirectories path).1.isDirectory path :=
  isDirectory_of_makeDirectoriesWithin hne h

/-! ## A name in a directory -/

/-- A name that may be given to an entry of a directory. -/
structure IsName (name : Text) : Prop where
  not_slash : '/' ∉ name
  not_special : name ≠ [] ∧ name ≠ ['.'] ∧ name ≠ ['.', '.']
  length : Text.byteLength name ≤ nameLimit

theorem step_of_isName (h : tree.find? location = some .directory) (hn : IsName name) :
    tree.step location name = .ok (location ++ [name]) := by
  obtain ⟨hnil, hdot, hdots⟩ := hn.not_special
  rw [step, h]
  dsimp only
  rw [if_neg (not_or.2 ⟨hnil, hdot⟩), if_neg hdots, if_neg (Nat.not_lt_of_le hn.length)]

theorem steps_eq_of_isName (h : IsName name) : Path.steps name = [name] := by
  rw [Path.steps, Text.splitOn_eq_splitOn]
  exact List.splitOn_eq_singleton h.not_slash

theorem isAbsolute_join (hne : target ≠ []) :
    Path.isAbsolute (Path.join target name) = Path.isAbsolute target := by
  obtain ⟨c, rest, rfl⟩ := List.exists_cons_of_ne_nil hne
  rw [Path.join]
  split <;> rfl

/-- The steps to a name in a directory lead there from wherever those to the directory do. -/
theorem follow_join {start directory : Location} (hne : target ≠ [])
    (h : tree.follow start (Path.steps target) = .ok directory)
    (hd : tree.find? directory = some .directory) (hn : IsName name) :
    tree.follow start (Path.steps (Path.join target name)) = .ok (directory ++ [name]) := by
  have hname : tree.follow directory [name] = .ok (directory ++ [name]) := by
    rw [follow, step_of_isName hd hn]
    rfl
  rw [Path.join]
  split
  next hslash =>
    -- the empty step behind the slash has been taken already
    obtain ⟨rest, rfl⟩ : ∃ rest, target = rest ++ ['/'] := by
      have hlast : target.getLast? = some '/' := by simpa [hne] using hslash
      exact ⟨_, (List.dropLast_append_getLast? _ hlast).symm⟩
    rw [Path.steps_append_slash, follow_append_eq_ok_iff] at h
    obtain ⟨between, hrest, hempty⟩ := h
    obtain rfl := eq_of_follow_empty hempty
    rw [List.append_assoc, List.singleton_append, Path.steps_append_slash, steps_eq_of_isName hn,
      follow_append_eq_ok_iff]
    exact ⟨_, hrest, hname⟩
  next =>
    rw [Path.steps_append_slash, steps_eq_of_isName hn, follow_append_eq_ok_iff]
    exact ⟨directory, h, hname⟩

/-- Where a path leads to a directory, a name in it is located now if it is later. -/
theorem locate_join (hd : tree.isDirectory target) (hn : IsName name)
    (hafter : tree.KeepsDirectories after)
    (h : after.locate (Path.join target name) = .ok location) :
    tree.locate (Path.join target name) = .ok location := by
  obtain ⟨directory, hlocate, hfind⟩ := isDirectory_iff.1 hd
  obtain ⟨⟨-, hne, -⟩, hfollow⟩ := locateBy_eq_ok_iff.1 hlocate
  -- what the path itself has to fulfil does not depend on the tree
  obtain ⟨hallowed, -⟩ := locateBy_eq_ok_iff.1 h
  have hjoin : tree.locate (Path.join target name) = .ok (directory ++ [name]) := by
    refine locateBy_eq_ok_iff.2 ⟨hallowed, ?_⟩
    rw [isAbsolute_join hne]
    exact follow_join hne hfollow hfind hn
  rw [hjoin, ← h]
  exact (hafter.locateBy hjoin).symm

end FileTree

end Highlighter
