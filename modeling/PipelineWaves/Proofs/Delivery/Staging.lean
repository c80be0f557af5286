import PipelineWaves.Proofs.Delivery.Site

/-!
# Staged files

What every call of a delivery keeps: directories stay, everything inside stands
below the spot of the staging directory, and outside every file is as it was
except at the slots where files have been replaced. While files are staged no
slot is taken, and in the end the staging directory holds just those files.
-/

set_option autoImplicit false

namespace PipelineWaves

namespace Delivery

/-- The place of a replaced file, and whether what it replaced was saved. -/
structure Slot where
  file : ProgramFile
  location : Location
  saved : Bool

namespace Site

variable (site : Site)

def replaced (slot : Slot) : Replaced :=
  ⟨site.target slot.file, if slot.saved then some (site.backup slot.file) else none⟩

/-- What was at a slot before is in its backup; without a backup there was no file. -/
structure Backs (before files : Files) (slot : Slot) : Prop where
  target : files.spot? (site.target slot.file) = some slot.location
  saved : slot.saved = true → ∃ place contents,
    files.spot? (site.backup slot.file) = some place ∧
      files.fileAt? place = some contents ∧ before.fileAt? slot.location = some contents
  unsaved : slot.saved = false → before.fileAt? slot.location = none

/-- What the staging name is in lies below the staging directory. -/
def IsConfined (files : Files) : Prop :=
  ∀ location, files.stands location ≠ none → site.name ∈ location →
    ∃ root rest, files.spot? site.staging = some root ∧ site.name ∉ rest ∧
      location = root ++ rest

/-- Directories have stayed, and everything inside is confined. -/
structure IsOrderly (before files : Files) : Prop where
  plain : files.IsPlain
  keeps : before.Keeps files
  confined : site.IsConfined files

/-- Outside, every file is as it was before except at the slots. -/
structure Keeps (before files : Files) (slots : List Slot) : Prop extends
    site.IsOrderly before files where
  backed : ∀ slot ∈ slots, site.Backs before files slot
  outside : ∀ location, site.name ∉ location → (∀ slot ∈ slots, slot.location ≠ location) →
    files.fileAt? location = before.fileAt? location

def HasStaged (files : Files) (file : ProgramFile) : Prop :=
  ∃ root, files.spot? site.staging = some root ∧
    files.fileAt? (root ++ file.path.pieces) = some (file.contents.toUTF8, false)

/-- The staging directory holds the written files and no others. -/
structure Holds (files : Files) (written : List ProgramFile) : Prop where
  each : ∀ file ∈ written, site.HasStaged files file
  only : ∀ location, site.name ∈ location → files.fileAt? location ≠ none →
    ∃ file ∈ written, ∃ root, files.spot? site.staging = some root ∧
      location = root ++ file.path.pieces

variable {site} {before files after : Files} {slots : List Slot}

section Steps

variable (sound : site.IsSound) (unnamed : site.name ∉ before.here)
include sound unnamed

theorem IsOrderly.step (orderly : site.IsOrderly before files) (plain : after.IsPlain)
    (keeps : files.Keeps after)
    (spots : ∀ location, after.stands location ≠ none → files.stands location = none →
      ∃ path, site.IsLocal path ∧ files.spot? path = some location) :
    site.IsOrderly before after := by
  refine ⟨plain, orderly.keeps.trans keeps, fun location something member => ?_⟩
  have here : site.name ∉ files.here := by
    rw [orderly.keeps.here]
    exact unnamed
  have inside : ∃ root rest, files.spot? site.staging = some root ∧ site.name ∉ rest ∧
      location = root ++ rest := by
    by_cases vacant : files.stands location = none
    · obtain ⟨path, isLocal, spot⟩ := spots location something vacant
      exact sound.spot_inside here isLocal spot member
    · exact orderly.confined location vacant member
  obtain ⟨root, rest, spot, free, split⟩ := inside
  exact ⟨root, rest, keeps.spot spot, free, split⟩

theorem IsOrderly.changes (orderly : site.IsOrderly before files) {path : FilePath}
    {location : Location} {standing : Option Standing} (isLocal : site.IsLocal path)
    (spot : files.spot? path = some location)
    (change : files.Changes after location standing)
    (noLink : ∀ target, standing ≠ some (.link target)) : site.IsOrderly before after := by
  refine orderly.step sound unnamed (change.plain orderly.plain noLink) change.keeps ?_
  intro place something vacant
  by_cases same : place = location
  · exact ⟨path, isLocal, same ▸ spot⟩
  · rw [change.stands_elsewhere same] at something
    exact absurd vacant something

theorem IsOrderly.moves (orderly : site.IsOrderly before files) {path : FilePath}
    {source target : Location} {contents : ByteArray} {executable : Bool}
    (isLocal : site.IsLocal path) (spot : files.spot? path = some target)
    (moves : files.Moves after source target)
    (isFile : files.stands source = some (.file contents executable)) :
    site.IsOrderly before after := by
  refine orderly.step sound unnamed (moves.plain isFile orderly.plain) (moves.keeps isFile) ?_
  intro place something vacant
  by_cases same : place = target
  · exact ⟨path, isLocal, same ▸ spot⟩
  · have notSource : place ≠ source := by
      rintro rfl
      rw [vacant] at isFile
      cases isFile
    rw [moves.stands_elsewhere isFile notSource same] at something
    exact absurd vacant something

omit sound unnamed in
theorem Backs.kept {slot : Slot} (backs : site.Backs before files slot)
    (keeps : files.Keeps after)
    (same : ∀ place, files.spot? (site.backup slot.file) = some place →
      after.fileAt? place = files.fileAt? place) : site.Backs before after slot := by
  refine ⟨keeps.spot backs.target, fun saved => ?_, backs.unsaved⟩
  obtain ⟨place, contents, spot, held, original⟩ := backs.saved saved
  exact ⟨place, contents, keeps.spot spot, by rw [same place spot, held], original⟩

theorem Keeps.makes (kept : site.Keeps before files slots) {path : FilePath}
    (isLocal : site.IsLocal path) (makes : Files.Makes path files after) :
    site.Keeps before after slots := by
  obtain ⟨location, spot, vacant, change⟩ := id makes
  refine ⟨kept.toIsOrderly.changes sound unnamed isLocal spot change (by simp), ?_, ?_⟩
  · intro slot member
    exact (kept.backed slot member).kept change.keeps fun place _ => makes.file_at place
  · intro place free apart
    rw [makes.file_at, kept.outside place free apart]

end Steps

omit before in
theorem Holds.makes {written : List ProgramFile} (holds : site.Holds files written)
    {path : FilePath} (makes : Files.Makes path files after) : site.Holds after written := by
  obtain ⟨_, _, _, change⟩ := id makes
  constructor
  · intro file member
    obtain ⟨root, spot, contents⟩ := holds.each file member
    exact ⟨root, change.keeps.spot spot, by rw [makes.file_at, contents]⟩
  · intro place inside something
    rw [makes.file_at] at something
    obtain ⟨file, member, root, spot, split⟩ := holds.only place inside something
    exact ⟨file, member, root, change.keeps.spot spot, split⟩

variable {plan : Nat → Option Mishap} {watched : Watched}

abbrev calls (site : Site) (plan : Nat → Option Mishap) : FileCalls Watched :=
  FileCalls.unreliable plan site.backups

theorem IsSound.create_parent_ends (sound : site.IsSound) {holds : Files → Prop}
    (plain : ∀ files, holds files → files.IsPlain)
    (made : ∀ files after, holds files → ∀ above, site.IsLocal above →
      Files.Makes above files after → holds after)
    {path : FilePath} (isLocal : site.IsLocal path) (before : holds watched.files) :
    (createParent (site.calls plan) path).Ends watched
      (fun _ after => holds after.files) fun after => holds after.files := by
  rw [createParent]
  cases above : path.parent? with
  | none => exact Attempt.ends_pure before
  | some parent =>
      have parentLocal := sound.local_of_parent isLocal above
      refine Attempt.Ends.mapFailure (FileCalls.unreliable_create_directories plain ?_ before)
      intro outer inFront files after holds makes
      exact made files after holds outer (sound.local_of_front parentLocal inFront) makes

section Stage

variable (sound : site.IsSound) (unnamed : site.name ∉ before.here)
include sound unnamed

theorem Keeps.writes (kept : site.Keeps before files []) {file : ProgramFile}
    (takes : site.Takes file) {location : Location} {contents : ByteArray} {executable : Bool}
    (spot : files.spot? (site.staged file) = some location)
    (change : files.Changes after location (some (.file contents executable))) :
    site.Keeps before after [] := by
  have staged := sound.staged_local takes
  refine ⟨kept.toIsOrderly.changes sound unnamed staged spot change (by simp), by simp, ?_⟩
  intro place free _
  obtain ⟨root, rootSpot, rfl⟩ := sound.staged_spot takes spot
  have apart : place ≠ root ++ file.path.pieces := by
    rintro rfl
    exact free (List.mem_append_left _ (sound.name_in_root rootSpot))
  rw [change.file_elsewhere apart, kept.outside place free (by simp)]

omit sound unnamed in
theorem Holds.vacant {written : List ProgramFile} (holds : site.Holds files written)
    (plain : files.IsPlain) {file : ProgramFile} {root : Location}
    (apart : ∀ earlier ∈ written, earlier.path.pieces ≠ file.path.pieces)
    (inside : site.name ∈ root ++ file.path.pieces)
    (rootSpot : files.spot? site.staging = some root)
    (free : files.stands (root ++ file.path.pieces) ≠ some .directory) :
    files.stands (root ++ file.path.pieces) = none := by
  cases standing : files.stands (root ++ file.path.pieces) with
  | none => rfl
  | some node =>
      cases node with
      | directory => exact absurd standing free
      | link target => exact absurd standing (plain.noLink _ target)
      | file contents executable =>
          -- A file inside is one of those written, and two of them never share a place.
          have something := Files.file_at_of_file standing
          obtain ⟨earlier, member, _, earlierSpot, split⟩ :=
            holds.only _ inside (by simp [something])
          rw [rootSpot, Option.some_inj] at earlierSpot
          rw [← earlierSpot, List.append_cancel_left_eq] at split
          exact absurd split.symm (apart earlier member)

omit unnamed in
theorem Holds.writes {written : List ProgramFile} (kept : site.Keeps before files [])
    (holds : site.Holds files written) {file : ProgramFile} (takes : site.Takes file)
    (apart : ∀ earlier ∈ written, earlier.path.pieces ≠ file.path.pieces)
    (writes : Files.Writes (site.staged file) file.contents files after) :
    site.Holds after (written ++ [file]) := by
  obtain ⟨location, executable, spot, unset, change⟩ := writes
  obtain ⟨root, rootSpot, rfl⟩ := sound.staged_spot takes spot
  have inside : site.name ∈ root ++ file.path.pieces :=
    List.mem_append_left _ (sound.name_in_root rootSpot)
  have vacant := holds.vacant kept.plain apart inside rootSpot change.free
  constructor
  · intro other member
    refine ⟨root, change.keeps.spot rootSpot, ?_⟩
    rcases List.mem_append.1 member with earlier | new
    · obtain ⟨_, otherSpot, contents⟩ := holds.each other earlier
      rw [rootSpot, Option.some_inj] at otherSpot
      have differs : root ++ other.path.pieces ≠ root ++ file.path.pieces := by
        rw [Ne, List.append_cancel_left_eq]
        exact apart other earlier
      rw [change.file_elsewhere differs, otherSpot, contents]
    · rw [List.mem_singleton] at new
      rw [new, Files.file_at_of_file change.stands_at, unset vacant]
  · intro place member something
    by_cases same : place = root ++ file.path.pieces
    · exact ⟨file, by simp, root, change.keeps.spot rootSpot, same⟩
    · rw [change.file_elsewhere same] at something
      obtain ⟨earlier, isEarlier, place, spot, split⟩ := holds.only place member something
      exact ⟨earlier, by simp [isEarlier], place, change.keeps.spot spot, split⟩

theorem stage_parent_ends {written : List ProgramFile} {file : ProgramFile}
    (takes : site.Takes file) (kept : site.Keeps before watched.files [])
    (holds : site.Holds watched.files written) :
    (createParent (site.calls plan) (site.staged file)).Ends watched
      (fun _ after => site.Keeps before after.files [] ∧ site.Holds after.files written)
      fun after => site.Keeps before after.files [] :=
  (sound.create_parent_ends
    (fun files (both : site.Keeps before files [] ∧ site.Holds files written) => both.1.plain)
    (fun _ _ both _ isLocal makes =>
      ⟨both.1.makes sound unnamed isLocal makes, both.2.makes makes⟩)
    (sound.staged_local takes) ⟨kept, holds⟩).weaken (fun _ _ => id) fun _ => And.left

theorem stage_text_ends {written : List ProgramFile} {file : ProgramFile}
    (takes : site.Takes file) (apart : ∀ earlier ∈ written, earlier.path.pieces ≠ file.path.pieces)
    (kept : site.Keeps before watched.files []) (holds : site.Holds watched.files written) :
    (reportedAt (site.staged file)
      ((site.calls plan).writeText (site.staged file) file.contents)).Ends watched
      (fun _ after => site.Keeps before after.files [] ∧
        site.Holds after.files (written ++ [file]))
      fun after => site.Keeps before after.files [] := by
  have noSlash := Files.joined_no_slash sound.staging_text takes.inner
  refine Attempt.Ends.mapFailure
    ((FileCalls.unreliable_write_text kept.plain noSlash file.contents).weaken ?_ ?_)
  · intro _ after writes
    obtain ⟨_, _, spot, _, change⟩ := id writes
    exact ⟨kept.writes sound unnamed takes spot change,
      holds.writes sound kept takes apart writes⟩
  · rintro after (same | ⟨_, _, _, spot, change⟩)
    · rwa [same]
    · exact kept.writes sound unnamed takes spot change

/-- Staging changes nothing outside; when it succeeds, just the given files are staged. -/
theorem stage_ends {written rest : List ProgramFile}
    (takes : ∀ file ∈ rest, site.Takes file)
    (apart : (written ++ rest).Pairwise fun first second =>
      first.path.pieces ≠ second.path.pieces)
    (kept : site.Keeps before watched.files []) (holds : site.Holds watched.files written) :
    (stage (site.calls plan) site.staging rest).Ends watched
      (fun _ after => site.Keeps before after.files [] ∧
        site.Holds after.files (written ++ rest))
      fun after => site.Keeps before after.files [] := by
  induction rest generalizing written watched with
  | nil => exact Attempt.ends_pure ⟨kept, by rwa [List.append_nil]⟩
  | cons file rest induction =>
      have taken := takes file List.mem_cons_self
      have apartFile : ∀ earlier ∈ written, earlier.path.pieces ≠ file.path.pieces :=
        fun earlier member => (List.pairwise_append.1 apart).2.2 earlier member file
          List.mem_cons_self
      have split : written ++ file :: rest = (written ++ [file]) ++ rest := by simp
      rw [split] at apart ⊢
      rw [stage]
      refine (stage_parent_ends sound unnamed taken kept holds).bind fun _ made both => ?_
      refine (stage_text_ends sound unnamed taken apartFile both.1 both.2).bind
        fun _ stagedNow both => ?_
      exact induction (fun other member => takes other (List.mem_cons_of_mem _ member)) apart
        both.1 both.2

end Stage

end Site

end Delivery

end PipelineWaves
