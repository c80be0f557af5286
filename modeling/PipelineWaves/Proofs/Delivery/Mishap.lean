import PipelineWaves.Program.Generation
import PipelineWaves.Proofs.Files.Change

/-!
# Calls with mishaps

A tree on which calls fail for reasons of their own. A plan says which calls
meet a mishap and what a call has done of its work by then: some of the
directories of a chain are made, a file has some contents, a rename has done
nothing. The calls that only put back or clean up are spared. Every call ends as
the tree has it or with what a mishap leaves.
-/

set_option autoImplicit false

namespace PipelineWaves

/-- What a call has done of its work when it fails. -/
structure Mishap where
  fault : FileFault
  /-- How many directories of a chain are not made, the innermost first. -/
  unmade : Nat
  /-- What a file holds if its writing has begun. -/
  written : Option ByteArray

/-- A tree with the number of calls so far that a mishap may have met. -/
structure Watched where
  files : Files
  turn : Nat

namespace Mishap

def meeting (plan : Nat → Option Mishap) (call : FileCall Unit)
    (part : Mishap → FileCall Unit) : Attempt Watched FileFault Unit :=
  Attempt.of fun watched =>
    match plan watched.turn with
    | none =>
        let (result, after) := call.outcome watched.files
        (result, ⟨after, watched.turn + 1⟩)
    | some mishap =>
        (.error mishap.fault, ⟨watched.files.afterCall (part mishap), watched.turn + 1⟩)

def sparing (call : FileCall Unit) : Attempt Watched FileFault Unit :=
  call.within Watched.files fun watched after => ⟨after, watched.turn⟩

/-- The directories that are made before a chain breaks off. -/
def directoriesMade (path : FilePath) (mishap : Mishap) : FileCall Unit :=
  Files.createChain ((Files.chainAbove path.components.length path).drop mishap.unmade)

def textBegun (path : FilePath) (mishap : Mishap) : FileCall Unit :=
  match mishap.written with
  | some contents => Files.writeBytes path contents
  | none => pure ()

end Mishap

/-- Calls that fail as planned, except those that remove and those that put back a backup. -/
def FileCalls.unreliable (plan : Nat → Option Mishap) (backups : FilePath) :
    FileCalls Watched where
  isPresent watched path := watched.files.isPresent path
  isFile watched path := watched.files.isFile path
  createDirectories path :=
    Mishap.meeting plan (Files.createDirectories path) (Mishap.directoriesMade path)
  writeText path text := Mishap.meeting plan (Files.writeText path text) (Mishap.textBegun path)
  rename old new :=
    if backups.pieces.isPrefixOf old.pieces then Mishap.sparing (Files.rename old new)
    else Mishap.meeting plan (Files.rename old new) fun _ => pure ()
  removeFile path := Mishap.sparing (Files.removeFile path)
  removeTree path := Mishap.sparing (Files.removeTree path)

namespace Mishap

section Endings

variable {plan : Nat → Option Mishap} {call : FileCall Unit} {part : Mishap → FileCall Unit}
  {well badly : Files → Prop} {watched : Watched}

theorem ends_meeting (ends : call.Ends watched.files (fun _ => well) badly)
    (broken : ∀ mishap, badly (watched.files.afterCall (part mishap))) :
    (meeting plan call part).Ends watched (fun _ after => well after.files)
      fun after => badly after.files := by
  cases met : plan watched.turn with
  | some mishap =>
      have outcome : (meeting plan call part).outcome watched = (.error mishap.fault,
          ⟨watched.files.afterCall (part mishap), watched.turn + 1⟩) := by
        rw [meeting, Attempt.of, Attempt.outcome, met]
      exact Attempt.ends_of_error outcome (broken mishap)
  | none =>
      have outcome : (meeting plan call part).outcome watched =
          ((call.outcome watched.files).1,
            ⟨(call.outcome watched.files).2, watched.turn + 1⟩) := by
        rw [meeting, Attempt.of, Attempt.outcome, met]
      refine ends.cases (fun result after ended holds => ?_) fun fault after ended holds => ?_
      · rw [ended] at outcome
        exact Attempt.ends_of_ok outcome holds
      · rw [ended] at outcome
        exact Attempt.ends_of_error outcome holds

theorem ends_sparing (ends : call.Ends watched.files (fun _ => well) badly) :
    (sparing call).Ends watched (fun _ after => well after.files)
      fun after => badly after.files := by
  have outcome : (sparing call).outcome watched =
      ((call.outcome watched.files).1, ⟨(call.outcome watched.files).2, watched.turn⟩) := rfl
  refine ends.cases (fun result after ended holds => ?_) fun fault after ended holds => ?_
  · rw [ended] at outcome
    exact Attempt.ends_of_ok outcome holds
  · rw [ended] at outcome
    exact Attempt.ends_of_error outcome holds

end Endings

end Mishap

namespace Files

variable {files : Files}

def Writes (path : FilePath) (text : String) (files after : Files) : Prop :=
  ∃ location executable, files.spot? path = some location ∧
    (files.stands location = none → executable = false) ∧
    files.Changes after location (some (.file text.toUTF8 executable))

/-- Nothing happens, or a file with any contents is written at the spot of a path. -/
def Begins (path : FilePath) (files after : Files) : Prop :=
  after = files ∨ ∃ location contents executable, files.spot? path = some location ∧
    files.Changes after location (some (.file contents executable))

def Renames (old new : FilePath) (files after : Files) : Prop :=
  ∃ source target, files.spot? old = some source ∧ files.spot? new = some target ∧
    files.Moves after source target

def Clears (path : FilePath) (files after : Files) : Prop :=
  after.here = files.here ∧ ∀ location, after.stands location =
    match files.spot? path with
    | none => files.stands location
    | some gone => if gone <+: location then none else files.stands location

theorem ends_accepted {call : FileCall Unit} {well : Files → Prop}
    (accepted : files.Accepts call) (holds : well (files.afterCall call)) :
    call.Ends files (fun _ => well) fun _ => False :=
  Attempt.ends_of_ok (Prod.ext accepted rfl) holds

theorem ends_changing {step : Files → Except FileFault Files} {well : Files → Prop}
    (taken : files.Accepts (changing step) → well (files.afterCall (changing step))) :
    (changing step).Ends files (fun _ => well) fun after => after = files := by
  by_cases accepted : files.Accepts (changing step)
  · exact Attempt.ends_of_ok (Prod.ext accepted rfl) (taken accepted)
  · have unchanged := changing_refused accepted
    constructor
    · intro result after ended
      exact absurd (by rw [Accepts, ended]) accepted
    · intro fault after ended
      rwa [afterCall, ended] at unchanged

end Files

namespace FileCalls

variable {plan : Nat → Option Mishap} {backups path : FilePath} {watched : Watched}

/-- What every directory made for a path leaves true stays true, however the call ends. -/
theorem unreliable_create_directories {holds : Files → Prop}
    (plain : ∀ files, holds files → files.IsPlain)
    (made : ∀ above : FilePath, above.pieces <+: path.pieces → ∀ files after, holds files →
      Files.Makes above files after → holds after)
    (before : holds watched.files) :
    ((unreliable plan backups).createDirectories path).Ends watched
      (fun _ after => holds after.files) fun after => holds after.files := by
  have kept : holds (watched.files.afterCall (Files.createDirectories path)) := by
    rw [Files.afterCall, Files.createDirectories]
    split
    · exact before
    · exact Files.create_directories_keeps plain made before (List.Subset.refl _)
  have natural : (Files.createDirectories path).Ends watched.files (fun _ => holds) holds :=
    Attempt.ends_either kept
  exact Mishap.ends_meeting natural fun mishap =>
    Files.create_directories_keeps plain made before (List.drop_subset _ _)

variable (plain : watched.files.IsPlain)
include plain

theorem unreliable_write_text (noSlash : (Files.lastName path).slash = false) (text : String) :
    ((unreliable plan backups).writeText path text).Ends watched
      (fun _ after => Files.Writes path text watched.files after.files)
      fun after => Files.Begins path watched.files after.files := by
  have natural : (Files.writeText path text).Ends watched.files
      (fun _ => Files.Writes path text watched.files) (Files.Begins path watched.files) :=
    (Files.ends_changing fun accepted => Files.write_bytes_ok plain noSlash accepted).weaken
      (fun _ _ => id) fun _ => .inl
  refine Mishap.ends_meeting natural fun mishap => ?_
  rw [Mishap.textBegun]
  split
  · rename_i contents begun
    by_cases accepted : watched.files.Accepts (Files.writeBytes path contents)
    · obtain ⟨location, executable, spot, _, change⟩ :=
        Files.write_bytes_ok plain noSlash accepted
      exact .inr ⟨location, contents, executable, spot, change⟩
    · exact .inl (Files.changing_refused accepted)
  · exact .inl rfl

variable {old new : FilePath}

theorem unreliable_rename
    (short : ∀ name, (Files.lastName old).name = some name →
      name.utf8ByteSize ≤ Walk.longestName) :
    ((unreliable plan backups).rename old new).Ends watched
      (fun _ after => Files.Renames old new watched.files after.files)
      fun after => after.files = watched.files := by
  have natural : (Files.rename old new).Ends watched.files
      (fun _ => Files.Renames old new watched.files) fun after => after = watched.files :=
    Files.ends_changing fun accepted => Files.rename_ok plain short accepted
  simp only [unreliable]
  split
  · exact Mishap.ends_sparing natural
  · exact Mishap.ends_meeting natural fun _ => rfl

theorem unreliable_put_back (isBackup : backups.pieces.isPrefixOf old.pieces = true)
    (noSlash : (Files.lastName old).slash = false)
    (newNoSlash : (Files.lastName new).slash = false) {source target : Location}
    {contents : ByteArray} {executable : Bool}
    (spot : watched.files.spot? old = some source)
    (newSpot : watched.files.spot? new = some target)
    (isFile : watched.files.stands source = some (.file contents executable))
    (vacant : watched.files.stands target = none) :
    ((unreliable plan backups).rename old new).Ends watched
      (fun _ after => watched.files.Moves after.files source target) fun _ => False := by
  have accepted := Files.rename_accepted plain noSlash newNoSlash spot newSpot isFile vacant
  obtain ⟨_, _, sameSpot, sameNewSpot, moved⟩ :=
    Files.rename_ok plain (fun _ => Files.short_of_spot spot) accepted
  rw [spot] at sameSpot
  rw [newSpot] at sameNewSpot
  cases sameSpot
  cases sameNewSpot
  have natural : (Files.rename old new).Ends watched.files
      (fun _ after => watched.files.Moves after source target) fun _ => False :=
    Files.ends_accepted accepted moved
  simp only [unreliable, isBackup, if_true]
  exact Mishap.ends_sparing natural

theorem unreliable_remove_file (noSlash : (Files.lastName path).slash = false)
    {location : Location} {contents : ByteArray} {executable : Bool}
    (spot : watched.files.spot? path = some location)
    (isFile : watched.files.stands location = some (.file contents executable)) :
    ((unreliable plan backups).removeFile path).Ends watched
      (fun _ after => watched.files.Changes after.files location none) fun _ => False := by
  obtain ⟨accepted, removed⟩ := Files.remove_file_accepted plain noSlash spot isFile
  have natural : (Files.removeFile path).Ends watched.files
      (fun _ after => watched.files.Changes after location none) fun _ => False :=
    Files.ends_accepted accepted removed
  exact Mishap.ends_sparing natural

theorem unreliable_remove_tree (noSlash : (Files.lastName path).slash = false) {name : String}
    (last : (Files.lastName path).name = some name) :
    ((unreliable plan backups).removeTree path).Ends watched
      (fun _ after => Files.Clears path watched.files after.files)
      fun after => Files.Clears path watched.files after.files := by
  have cleared : Files.Clears path watched.files
      (watched.files.afterCall (Files.removeTree path)) := by
    rw [Files.remove_tree_outcome plain noSlash last]
    cases spot : watched.files.spot? path with
    | none => exact ⟨rfl, fun location => by rw [spot]⟩
    | some gone =>
        obtain ⟨above, name, _, _, _, _, rfl⟩ := Files.spot_iff.1 spot
        dsimp only
        split
        · rename_i vacant
          refine ⟨rfl, fun location => ?_⟩
          rw [spot]
          dsimp only
          split
          · rename_i inside
            exact Files.vacant_below vacant inside
          · rfl
        · refine ⟨rfl, fun location => ?_⟩
          rw [spot]
          exact Files.stands_remove (by simp) location
  have natural : (Files.removeTree path).Ends watched.files
      (fun _ => Files.Clears path watched.files) (Files.Clears path watched.files) :=
    Attempt.ends_either cleared
  exact Mishap.ends_sparing natural

end FileCalls

end PipelineWaves
