import Highlighter.Proofs.Listing.Writing
import Highlighter.Proofs.Source
import Mathlib.Algebra.Ring.Nat

/-!
# Listing files one after the other

A run takes its inputs in turn and writes to one sink. Of an input with a text in the tree it means
to write the listing, of any other nothing (`share`); what it means to write in all are the *shares*
of its inputs, one after the other. All this is told by the tree and not by what reading answers,
which agrees with it (`exists_listFile_eq`).

What has happened after some of the inputs depends only on their shares (`Progress.Accounts`):

* the sink has taken the shares, as far as it has room;
* an input is *listed* if it can be read and there is room for the shares up to its own
  (`isListed`), and those that are not are the ones that failed;
* if none has failed, all tokens of the inputs are counted.

This is kept by one more input (`Progress.Accounts.advance`), and so the result of a run follows
from what its inputs are (`attemptsAll_run`). It matters here that a sink which has refused
something refuses every later listing too, although it would take an empty one: where there are
several inputs, no listing is empty (`share_ne_nil`), since it has a header or is in JSON.
-/

namespace Highlighter

namespace ListRequest

/-! ## Shares -/

section

variable (tree : FileTree) (manner : Manner)

/-- The records of an input, of which there are none if it cannot be read. -/
def recordsOf (path : Path) : List TokenRecord :=
  (tree.textAt? path).elim [] fun source =>
    (Document.ofText source).records manner.skipUnclassified

/-- What is meant to be written for an input. -/
def share (path : Path) : Text :=
  if isReadable tree path then listing manner path (recordsOf tree manner path) else []

/-- What is meant to be written for inputs. -/
def shares (inputs : List Path) : Text :=
  inputs.flatMap (share tree manner)

/-- The input at a place is listed: it can be read, and there is room for what is meant to be
    written up to it. -/
def isListed (room? : Option Nat) (inputs : List Path) (i : Nat) : Bool :=
  (inputs[i]?).any (isReadable tree)
    && Sink.hasRoom room? (Text.bytes (shares tree manner (inputs.take (i + 1))))

/-- How far listing has come before the input at a place. -/
def progressAt (room? : Option Nat) (inputs : List Path) (i : Nat) : Progress :=
  (inputs.take i).foldl (advance tree manner) { sink := { room? } }

end

variable {tree : FileTree} {manner : Manner} {room? : Option Nat} {path : Path}
  {inputs : List Path} {i : Nat}

/-- Where several inputs are listed, something is written for each that can be read. -/
theorem share_ne_nil (h : manner.format = .json ∨ manner.headed) (hread : isReadable tree path) :
    share tree manner path ≠ [] := by
  rw [share, if_pos hread]
  cases hformat : manner.format with
  | text =>
    rw [listing_of_text hformat, if_pos (h.resolve_left (by simp [hformat])), Listing.header]
    simp
  | json =>
    rw [listing_of_json hformat]
    simp

theorem shares_take_succ (h : inputs[i]? = some path) :
    shares tree manner (inputs.take (i + 1)) =
      shares tree manner (inputs.take i) ++ share tree manner path := by
  rw [List.take_add_one, h, shares, shares, List.flatMap_append, Option.toList_some,
    List.flatMap_singleton]

/-! ## One more input -/

section

variable (tree manner)

/-- A sink has room for the listing of an input, which can be read. -/
def canList (sink : Sink) (path : Path) : Bool :=
  isReadable tree path && sink.fitsText (share tree manner path)

/-- A file is listed whenever it can be; the sink takes what it can of the listing in any case. -/
theorem exists_listFile_eq (sink : Sink) (path : Path) : ∃ e, listFile tree manner sink path =
    (sink.takeText (share tree manner path),
      if canList tree manner sink path then .ok (recordsOf tree manner path).length
      else .error e) := by
  cases hread : readSource tree path with
  | error e =>
    have hnot := isReadable_of_readSource_error hread
    exact ⟨e, by simp [listFile, hread, share, canList, hnot, Sink.takeText_nil]⟩
  | ok source =>
    have hreadable := isReadable_of_readSource_ok hread
    have hrecords : recordsOf tree manner path =
        (Document.ofText source).records manner.skipUnclassified := by
      rw [recordsOf, textAt?_of_readSource_ok hread, Option.elim_some]
    rw [canList, hreadable, Bool.true_and, share, if_pos hreadable, ← isOk_writeListing,
      ← writeListing_fst, listFile, hread]
    dsimp only
    rw [← hrecords]
    rcases writeListing manner path (recordsOf tree manner path) sink with ⟨after, _ | _⟩
    case error e => exact ⟨e, rfl⟩
    case ok => exact ⟨.noInput, rfl⟩

/-- One more input is counted by its tokens or as failed. -/
theorem exists_advance_eq (progress : Progress) (path : Path) : ∃ log,
    advance tree manner progress path =
      if canList tree manner progress.sink path then
        { progress with
          listed := progress.listed + (recordsOf tree manner path).length
          sink := progress.sink.takeText (share tree manner path)
          log }
      else
        { progress with
          failed := progress.failed + 1
          sink := progress.sink.takeText (share tree manner path)
          log } := by
  obtain ⟨e, he⟩ := exists_listFile_eq tree manner progress.sink path
  rw [advance, he]
  split
  next heq =>
    split at heq
    next hcan =>
      cases heq
      exact ⟨_, (if_pos hcan).symm⟩
    next => cases heq
  next heq =>
    split at heq
    next => cases heq
    next hcan =>
      cases heq
      exact ⟨_, (if_neg hcan).symm⟩

end

/-- Refused bytes are never caught up with: an input can be listed when its turn comes if all that
    is meant to be written up to it fits. -/
theorem canList_takeText (h : manner.format = .json ∨ manner.headed ∨ inputs.length ≤ 1)
    (hpath : inputs[i]? = some path) :
    canList tree manner (Sink.takeText { room? } (shares tree manner (inputs.take i))) path =
      isListed tree manner room? inputs i := by
  rw [isListed, hpath, canList, Option.any_some, ← Sink.fitsText_eq_hasRoom,
    shares_take_succ hpath]
  cases hread : isReadable tree path with
  | false => rfl
  | true =>
    rw [Bool.true_and, Bool.true_and, Sink.fitsText_takeText]
    rcases or_assoc.2 h with h | h
    · exact .inl (share_ne_nil h hread)
    · -- the only input comes first
      obtain ⟨hlt, -⟩ := List.getElem?_eq_some_iff.1 hpath
      have hzero : i = 0 := by omega
      rw [hzero, List.take_zero]
      exact .inr (Sink.fits_nil _)

/-! ## All inputs -/

/-- Listing has come as far as it should before the input at a place. -/
structure Progress.Accounts (tree : FileTree) (manner : Manner) (room? : Option Nat)
    (inputs : List Path) (i : Nat) (progress : Progress) : Prop where
  sink_eq : progress.sink = Sink.takeText { room? } (shares tree manner (inputs.take i))
  failed_eq : progress.failed = (List.range i).countP fun k => !isListed tree manner room? inputs k
  listed_eq : progress.failed = 0 →
    progress.listed = ((inputs.take i).map fun path => (recordsOf tree manner path).length).sum

theorem accounts_zero :
    Progress.Accounts tree manner room? inputs 0 { sink := { room? } } where
  sink_eq := (Sink.takeText_nil _).symm
  failed_eq := rfl
  listed_eq _ := rfl

theorem Progress.Accounts.advance {progress : Progress}
    (h : manner.format = .json ∨ manner.headed ∨ inputs.length ≤ 1)
    (hpath : inputs[i]? = some path) (hi : progress.Accounts tree manner room? inputs i) :
    (advance tree manner progress path).Accounts tree manner room? inputs (i + 1) := by
  obtain ⟨log, hlog⟩ := exists_advance_eq tree manner progress path
  rw [hi.sink_eq, canList_takeText h hpath, ← Sink.takeText_append,
    ← shares_take_succ hpath] at hlog
  have hcount : (List.range (i + 1)).countP (fun k => !isListed tree manner room? inputs k) =
      progress.failed + if isListed tree manner room? inputs i then 0 else 1 := by
    rw [List.range_succ, List.countP_append, ← hi.failed_eq, List.countP_singleton]
    cases isListed tree manner room? inputs i <;> rfl
  rw [hlog]
  split
  next hlisted =>
    rw [if_pos hlisted] at hcount
    refine ⟨rfl, hcount.symm, fun hfailed => ?_⟩
    rw [hi.listed_eq hfailed, List.take_add_one, hpath]
    simp
  next hlisted =>
    rw [if_neg hlisted] at hcount
    exact ⟨rfl, hcount.symm, fun hfailed => absurd hfailed (Nat.succ_ne_zero _)⟩

theorem accounts_progressAt (tree : FileTree) (room? : Option Nat)
    (h : manner.format = .json ∨ manner.headed ∨ inputs.length ≤ 1) (hi : i ≤ inputs.length) :
    (progressAt tree manner room? inputs i).Accounts tree manner room? inputs i := by
  induction i with
  | zero => exact accounts_zero
  | succ i ih =>
    have hpath : inputs[i]? = some inputs[i] := List.getElem?_eq_getElem hi
    have hstep : progressAt tree manner room? inputs (i + 1) =
        advance tree manner (progressAt tree manner room? inputs i) inputs[i] := by
      rw [progressAt, List.take_add_one, hpath, List.foldl_append]
      rfl
    rw [hstep]
    exact (ih (Nat.le_of_lt hi)).advance h hpath

/-- When its turn comes, an input is listed or fails as it should. -/
theorem isOk_listFile_progressAt (h : manner.format = .json ∨ manner.headed ∨ inputs.length ≤ 1)
    (hpath : inputs[i]? = some path) :
    (listFile tree manner (progressAt tree manner room? inputs i).sink path).2.isOk =
      isListed tree manner room? inputs i := by
  obtain ⟨hlt, -⟩ := List.getElem?_eq_some_iff.1 hpath
  obtain ⟨e, he⟩ := exists_listFile_eq tree manner (progressAt tree manner room? inputs i).sink path
  rw [he, (accounts_progressAt tree room? h (Nat.le_of_lt hlt)).sink_eq, canList_takeText h hpath]
  cases isListed tree manner room? inputs i <;> rfl

theorem Progress.Accounts.result_eq {progress : Progress}
    (h : progress.Accounts tree manner room? inputs inputs.length) :
    ((requireNoFailure progress.failed).map fun _ => progress.listed) =
      if ∀ i < inputs.length, isListed tree manner room? inputs i then
        .ok (inputs.map fun path => (recordsOf tree manner path).length).sum
      else
        .error (.filesFailed
          ((List.range inputs.length).countP fun i => !isListed tree manner room? inputs i)) := by
  have hzero : progress.failed = 0 ↔
      ∀ i < inputs.length, isListed tree manner room? inputs i := by
    rw [h.failed_eq, List.countP_eq_zero]
    simp
  rw [requireNoFailure]
  split
  next hnone =>
    rw [if_pos (hzero.1 hnone), h.listed_eq hnone, List.take_length]
    rfl
  next hsome =>
    rw [if_neg (mt hzero.2 hsome), h.failed_eq]
    rfl

/-! ## A run -/

/-- The manner in which the inputs of a request are listed. -/
def mannerOf (request : ListRequest) (given : ListSettings) (format : ListFormat) : Manner where
  format := format
  skipUnclassified := given.skipUnclassified || request.skipUnclassified
  headed := 1 < request.inputs.length && format == .text

/-- All inputs are attempted, with a sink of some room, and all that fail are accounted for. -/
structure AttemptsAll (tree : FileTree) (manner : Manner) (inputs : List Path)
    (room? : Option Nat) (outcome : Outcome Nat) : Prop where
  /-- What is written are the listings of the inputs that can be read, up to the room. -/
  written : outcome.sink.written = Sink.firstBytes room? (Text.bytes (shares tree manner inputs))
  /-- When its turn comes, an input is listed if it can be read and all listings up to its own fit,
      and fails otherwise. -/
  attempted : ∀ i path, inputs[i]? = some path →
    (listFile tree manner (progressAt tree manner room? inputs i).sink path).2.isOk =
      isListed tree manner room? inputs i
  /-- The tokens of all inputs are counted if all are listed, and else the inputs that are not. -/
  result : outcome.result =
    if ∀ i < inputs.length, isListed tree manner room? inputs i then
      .ok (inputs.map fun path => (recordsOf tree manner path).length).sum
    else
      .error (.filesFailed
        ((List.range inputs.length).countP fun i => !isListed tree manner room? inputs i))

variable {request : ListRequest} {given : ListSettings} {format : ListFormat}

theorem format_eq_ok (h : ListFormat.ofName? (request.format?.getD given.format) = some format) :
    request.format given = .ok format := by
  rw [ListRequest.format]
  split <;> simp_all

theorem exists_format_eq_error
    (h : ListFormat.ofName? (request.format?.getD given.format) = none) :
    ∃ e, request.format given = .error e := by
  rw [ListRequest.format]
  split <;> simp_all

theorem several_or_le_one (request : ListRequest) (given : ListSettings) (format : ListFormat) :
    (request.mannerOf given format).format = .json ∨ (request.mannerOf given format).headed ∨
      request.inputs.length ≤ 1 := by
  cases format with
  | json => exact .inl rfl
  | text =>
    simp only [mannerOf, Bool.and_eq_true, decide_eq_true_eq]
    rcases Nat.lt_or_ge 1 request.inputs.length with h | h
    · exact .inr (.inl ⟨h, rfl⟩)
    · exact .inr (.inr h)

theorem run_eq (verbose : Bool) (tree : FileTree) (room? : Option Nat)
    (hinputs : request.inputs ≠ []) (hformat : request.format given = .ok format) :
    let progress := progressAt tree (request.mannerOf given format) room? request.inputs
      request.inputs.length
    (request.run verbose given tree { room? }).sink = progress.sink ∧
      (request.run verbose given tree { room? }).result =
        (requireNoFailure progress.failed).map fun _ => progress.listed := by
  have hinput : requireInput request.inputs = .ok () := if_neg (by simpa using hinputs)
  rw [run, hinput, progressAt, List.take_length]
  dsimp only
  rw [hformat]
  exact ⟨rfl, rfl⟩

theorem attemptsAll_run (verbose : Bool) (tree : FileTree) (room? : Option Nat)
    (hinputs : request.inputs ≠ []) (hformat : request.format given = .ok format) :
    AttemptsAll tree (request.mannerOf given format) request.inputs room?
      (request.run verbose given tree { room? }) := by
  have hseveral := several_or_le_one request given format
  obtain ⟨hsink, hresult⟩ := run_eq verbose tree room? hinputs hformat
  have haccounts := accounts_progressAt tree room? hseveral (Nat.le_refl _)
  refine ⟨?_, fun i path => isOk_listFile_progressAt hseveral, ?_⟩
  · rw [hsink, haccounts.sink_eq, List.take_length, Sink.written_takeText]
  · rw [hresult, haccounts.result_eq]

/-- A run attempts all of its inputs, whatever happens to some of them, and its result accounts for
    every one that failed. With no input, or a format that is none, nothing is attempted. -/
theorem run_attempts_every_input (request : ListRequest) (verbose : Bool) (given : ListSettings)
    (tree : FileTree) (room? : Option Nat) :
    (∀ format, request.inputs ≠ [] →
      ListFormat.ofName? (request.format?.getD given.format) = some format →
      AttemptsAll tree (request.mannerOf given format) request.inputs room?
        (request.run verbose given tree { room? })) ∧
    (request.inputs = [] ∨ ListFormat.ofName? (request.format?.getD given.format) = none →
      (∃ e, (request.run verbose given tree { room? }).result = .error e) ∧
        (request.run verbose given tree { room? }).sink.written = []) := by
  refine ⟨fun format hinputs hformat =>
    attemptsAll_run verbose tree room? hinputs (format_eq_ok hformat), fun h => ?_⟩
  by_cases hinputs : request.inputs = []
  · rw [run, requireInput, if_pos (by simp [hinputs])]
    exact ⟨⟨_, rfl⟩, rfl⟩
  · obtain ⟨e, he⟩ := exists_format_eq_error (h.resolve_left hinputs)
    rw [run, requireInput, if_neg (by simpa using hinputs), he]
    exact ⟨⟨_, rfl⟩, rfl⟩

/-- Of two inputs one is missing, and there is no room for all of the listing of the other; and
    without any, nothing is written at all. -/
theorem run_attempts_every_input_cut_off :
    let request : ListRequest := { inputs := ["b".toList, "a".toList] }
    let none : ListRequest := { inputs := [] }
    let tree : FileTree := ⟨[(["a".toList], .file (Text.bytes "x".toList))], []⟩
    (request.inputs ≠ [] ∧ ListFormat.ofName? (request.format?.getD "text".toList) = some .text ∧
      (request.run false {} tree { room? := some 5 }).sink.written = Text.bytes "==> a".toList ∧
      (request.run false {} tree { room? := some 5 }).result = .error (.filesFailed 2)) ∧
    none.inputs = [] ∧ (none.run false {} tree { room? := some 5 }).sink.written = [] := by
  intro request none tree
  have hattempts := (run_attempts_every_input request false {} tree (some 5)).1 .text
    (by decide) (by decide)
  refine ⟨⟨by decide, by decide, ?_, ?_⟩, rfl, ?_⟩
  · rw [hattempts.written]
    decide
  · rw [hattempts.result]
    decide
  · exact ((run_attempts_every_input none false {} tree (some 5)).2 (.inl rfl)).2

end ListRequest

end Highlighter
