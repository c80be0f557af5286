import PipelineWaves.Proofs.Delivery.Mishap

/-!
# Where deliveries take place

The paths of a delivery. The staging directory has a name that no other path of
the delivery has, so a location belongs to the staging directory exactly when
that name is in it: what the delivery does to a path without the name happens
outside, and everything else happens below the spot of the staging directory.
-/

set_option autoImplicit false

namespace PipelineWaves

namespace Delivery

/-- A directory to deliver into, the directory beside it and the name to stage under. -/
structure Site where
  parent : FilePath
  directory : FilePath
  name : String

namespace Site

variable (site : Site)

def staging : FilePath := site.parent.join ⟨site.name⟩

def backups : FilePath := site.staging.join backupName

def staged (file : ProgramFile) : FilePath := site.staging.join file.path

def backup (file : ProgramFile) : FilePath := site.backups.join file.path

def target (file : ProgramFile) : FilePath := site.directory.join file.path

/-- The staging directory has one name, which is neither dots nor a name of the other paths. -/
structure IsSound : Prop where
  parentText : site.parent.text ≠ ""
  plainName : FilePath.IsInner ⟨site.name⟩
  oneName : FilePath.pieces ⟨site.name⟩ = [site.name]
  notBackups : site.name ≠ backupName.text
  notInParent : site.name ∉ site.parent.pieces
  notInDirectory : site.name ∉ site.directory.pieces

/-- A file whose names are plain, short and free for use in the staging directory. -/
structure Takes (file : ProgramFile) : Prop where
  inner : file.path.IsInner
  short : ∀ piece ∈ file.path.pieces, piece.utf8ByteSize ≤ Walk.longestName
  fresh : site.name ∉ file.path.pieces
  notBackup : file.path.pieces.head? ≠ some backupName.text

/-- A path that does not name the staging directory, or that leads plainly into it. -/
def IsLocal (path : FilePath) : Prop :=
  site.name ∉ path.pieces ∨ ∃ rest, path.pieces = site.staging.pieces ++ rest ∧
    site.name ∉ rest ∧ ∀ piece ∈ rest, piece ≠ "" ∧ piece ≠ "." ∧ piece ≠ ".."

variable {site} (sound : site.IsSound)
include sound

theorem IsSound.staging_pieces :
    ∃ front, site.staging.pieces = front ++ [site.name] ∧ site.name ∉ front := by
  obtain ⟨front, parent, joined⟩ :=
    FilePath.pieces_join sound.parentText (FilePath.inner_relative sound.plainName)
  refine ⟨front, by rw [staging, joined, sound.oneName], fun member => sound.notInParent ?_⟩
  rcases parent with same | same
  · rw [same]
    exact member
  · rw [same]
    exact List.mem_append_left _ member

theorem IsSound.staging_text : site.staging.text ≠ "" :=
  FilePath.join_text_ne_nil sound.parentText (FilePath.inner_relative sound.plainName)

theorem IsSound.name_ne : site.name ≠ "" ∧ site.name ≠ "." ∧ site.name ≠ ".." :=
  sound.plainName site.name (by simp [sound.oneName])

theorem IsSound.staging_ends : site.staging.pieces.getLast? ≠ some "" := by
  obtain ⟨front, spelled, _⟩ := sound.staging_pieces
  rw [spelled, List.getLast?_concat]
  simp [sound.name_ne.1]

theorem IsSound.backups_pieces :
    site.backups.pieces = site.staging.pieces ++ [backupName.text] := by
  have name : backupName.pieces = [backupName.text] := by decide
  rw [backups, FilePath.pieces_join_of_named sound.staging_text (by decide) sound.staging_ends, name]

theorem IsSound.backups_text : site.backups.text ≠ "" :=
  FilePath.join_text_ne_nil sound.staging_text (by decide)

theorem IsSound.staging_last : (Files.lastName site.staging).name = some site.name := by
  obtain ⟨front, spelled, _⟩ := sound.staging_pieces
  have visible : [site.name].filter (fun piece => piece ≠ "") = [site.name] := by
    simp [sound.name_ne.1]
  refine Files.last_name_some.2 ⟨?_, sound.name_ne.2⟩
  rw [FilePath.names, spelled, List.filter_append, visible, List.getLast?_concat]

theorem IsSound.staging_no_slash : (Files.lastName site.staging).slash = false :=
  Files.joined_no_slash sound.parentText sound.plainName

section File

variable {file : ProgramFile} (takes : site.Takes file)
include takes

theorem IsSound.staged_pieces :
    (site.staged file).pieces = site.staging.pieces ++ file.path.pieces :=
  FilePath.pieces_join_of_named sound.staging_text (FilePath.inner_relative takes.inner)
    sound.staging_ends

theorem IsSound.backup_pieces :
    (site.backup file).pieces = site.staging.pieces ++ backupName.text :: file.path.pieces := by
  have ends : site.backups.pieces.getLast? ≠ some "" := by
    rw [sound.backups_pieces, List.getLast?_concat]
    decide
  rw [backup, FilePath.pieces_join_of_named sound.backups_text
    (FilePath.inner_relative takes.inner) ends, sound.backups_pieces, List.append_assoc,
    List.singleton_append]

theorem IsSound.is_backup :
    site.backups.pieces.isPrefixOf (site.backup file).pieces = true := by
  rw [sound.backup_pieces takes, sound.backups_pieces, List.isPrefixOf_iff_prefix,
    List.prefix_append_right_inj]
  exact List.prefix_append [backupName.text] _

theorem IsSound.name_not_in_target : site.name ∉ (site.target file).pieces := by
  by_cases empty : site.directory.text = ""
  · rw [target, FilePath.join, empty]
    simpa using takes.fresh
  · obtain ⟨front, same, joined⟩ :=
      FilePath.pieces_join empty (FilePath.inner_relative takes.inner)
    rw [target, joined, List.mem_append, not_or]
    refine ⟨fun member => sound.notInDirectory ?_, takes.fresh⟩
    rcases same with same | same
    · exact same ▸ member
    · exact same ▸ List.mem_append_left _ member

omit sound in
theorem Takes.short_last {base : FilePath} (nonempty : base.text ≠ "") {name : String}
    (last : (Files.lastName (base.join file.path)).name = some name) :
    name.utf8ByteSize ≤ Walk.longestName := by
  obtain ⟨_, same, member⟩ := Files.joined_last nonempty takes.inner
  rw [last, Option.some_inj] at same
  exact takes.short name (same ▸ member)

end File

theorem IsSound.local_of_front {path above : FilePath} (isLocal : site.IsLocal path)
    (inFront : above.pieces <+: path.pieces) : site.IsLocal above := by
  rcases isLocal with free | ⟨rest, split, freeRest, plainRest⟩
  · exact .inl fun member => free (inFront.subset member)
  · rw [split] at inFront
    rcases List.prefix_or_prefix_of_prefix inFront (List.prefix_append _ rest) with outer | inner
    · obtain ⟨front, spelled, freeFront⟩ := sound.staging_pieces
      rw [spelled, List.prefix_concat_iff] at outer
      rcases outer with whole | short
      · exact .inr ⟨[], by rw [whole, spelled, List.append_nil], by simp, by simp⟩
      · exact .inl fun member => freeFront (short.subset member)
    · obtain ⟨more, whole⟩ := inner
      rw [← whole, List.prefix_append_right_inj] at inFront
      exact .inr ⟨more, whole.symm, fun member => freeRest (inFront.subset member),
        fun piece member => plainRest piece (inFront.subset member)⟩

theorem IsSound.local_of_parent {path parent : FilePath} (isLocal : site.IsLocal path)
    (above : path.parent? = some parent) : site.IsLocal parent := by
  rcases FilePath.parent_pieces above with nameless | inFront
  · refine .inl fun member => ?_
    have inNames : site.name ∈ parent.names :=
      List.mem_filter.2 ⟨member, by simp [sound.name_ne.1]⟩
    rw [nameless] at inNames
    exact List.not_mem_nil inNames
  · exact sound.local_of_front isLocal inFront

section LocalFile

variable {file : ProgramFile} (takes : site.Takes file)
include takes

theorem IsSound.staged_local : site.IsLocal (site.staged file) :=
  .inr ⟨file.path.pieces, sound.staged_pieces takes, takes.fresh, takes.inner⟩

theorem IsSound.backup_local : site.IsLocal (site.backup file) := by
  refine .inr ⟨_, sound.backup_pieces takes, ?_, ?_⟩
  · rw [List.mem_cons, not_or]
    exact ⟨sound.notBackups, takes.fresh⟩
  · intro piece member
    rcases List.mem_cons.1 member with rfl | inFile
    · decide
    · exact takes.inner piece inFile

theorem IsSound.target_local : site.IsLocal (site.target file) :=
  .inl (sound.name_not_in_target takes)

end LocalFile

section Spots

variable {files : Files} (unnamed : site.name ∉ files.here)
include unnamed

omit sound in
theorem origin_outside (path : FilePath) : site.name ∉ files.origin path := by
  rw [Files.origin]
  split
  · exact List.not_mem_nil
  · exact unnamed

omit sound in
theorem spot_outside {path : FilePath} {location : Location}
    (free : site.name ∉ path.pieces) (spot : files.spot? path = some location) :
    site.name ∉ location := by
  intro member
  rcases Files.spot_names spot member with inOrigin | inNames
  · exact origin_outside unnamed path inOrigin
  · exact free (List.mem_of_mem_filter inNames)

/-- The spot of a local path is outside, or it is below the spot of the staging directory. -/
theorem IsSound.spot_inside {path : FilePath} {location : Location} (isLocal : site.IsLocal path)
    (spot : files.spot? path = some location) (member : site.name ∈ location) :
    ∃ root rest, files.spot? site.staging = some root ∧ site.name ∉ rest ∧
      location = root ++ rest := by
  rcases isLocal with free | ⟨rest, split, freeRest, plainRest⟩
  · exact absurd member (spot_outside unnamed free spot)
  · obtain ⟨root, rootSpot, rfl⟩ := Files.spot_of_front split plainRest sound.staging_last spot
    exact ⟨root, rest, rootSpot, freeRest, rfl⟩

end Spots

theorem IsSound.name_in_root {files : Files} {root : Location}
    (spot : files.spot? site.staging = some root) : site.name ∈ root := by
  obtain ⟨above, name, _, last, _, _, rfl⟩ := Files.spot_iff.1 spot
  rw [sound.staging_last] at last
  cases last
  exact List.mem_append_right _ List.mem_cons_self

section FileSpots

variable {files : Files} {file : ProgramFile} (takes : site.Takes file) {location : Location}
include takes

theorem IsSound.staged_spot (spot : files.spot? (site.staged file) = some location) :
    ∃ root, files.spot? site.staging = some root ∧ location = root ++ file.path.pieces :=
  Files.spot_of_front (sound.staged_pieces takes) takes.inner sound.staging_last spot

theorem IsSound.backup_spot (spot : files.spot? (site.backup file) = some location) :
    ∃ root, files.spot? site.staging = some root ∧
      location = root ++ backupName.text :: file.path.pieces := by
  refine Files.spot_of_front (sound.backup_pieces takes) ?_ sound.staging_last spot
  intro piece member
  rcases List.mem_cons.1 member with rfl | inFile
  · decide
  · exact takes.inner piece inFile

omit sound in
theorem target_spot (nonempty : site.directory.text ≠ "")
    (spot : files.spot? (site.target file) = some location) :
    ∃ place, files.leads (files.origin site.directory) site.directory.names = some place ∧
      location = place ++ file.path.pieces := by
  have sameOrigin : files.origin (site.target file) = files.origin site.directory := by
    rw [Files.origin, Files.origin, target,
      FilePath.absolute_join nonempty (FilePath.inner_relative takes.inner)]
  rw [← sameOrigin]
  exact Files.leads_of_names (Files.joined_names nonempty takes.inner) file.path.pieces_ne_nil
    (fun name member => (takes.inner name member).2) spot

end FileSpots

section ApartFiles

variable {files : Files} {file other : ProgramFile} (takes : site.Takes file)
  (otherTakes : site.Takes other) {location place : Location}
  (apart : file.path.pieces ≠ other.path.pieces)
include takes otherTakes apart

theorem IsSound.backups_apart (spot : files.spot? (site.backup file) = some location)
    (otherSpot : files.spot? (site.backup other) = some place) : location ≠ place := by
  obtain ⟨root, rootSpot, rfl⟩ := sound.backup_spot takes spot
  obtain ⟨_, otherRoot, rfl⟩ := sound.backup_spot otherTakes otherSpot
  rw [rootSpot, Option.some_inj] at otherRoot
  simpa [otherRoot] using apart

omit sound in
theorem targets_apart (nonempty : site.directory.text ≠ "")
    (spot : files.spot? (site.target file) = some location)
    (otherSpot : files.spot? (site.target other) = some place) : location ≠ place := by
  obtain ⟨above, lead, rfl⟩ := target_spot takes nonempty spot
  obtain ⟨_, otherLead, rfl⟩ := target_spot otherTakes nonempty otherSpot
  rw [lead, Option.some_inj] at otherLead
  simpa [otherLead] using apart

end ApartFiles

theorem IsSound.staged_not_backup {files : Files} {file other : ProgramFile}
    (takes : site.Takes file) (otherTakes : site.Takes other) {root location : Location}
    (rootSpot : files.spot? site.staging = some root)
    (spot : files.spot? (site.backup other) = some location) :
    root ++ file.path.pieces ≠ location := by
  obtain ⟨_, otherRoot, rfl⟩ := sound.backup_spot otherTakes spot
  rw [rootSpot, Option.some_inj] at otherRoot
  rw [otherRoot, Ne, List.append_cancel_left_eq]
  intro same
  exact takes.notBackup (by rw [same, List.head?_cons])

theorem IsSound.name_in_backup {files : Files} {file : ProgramFile} (takes : site.Takes file)
    {location : Location} (spot : files.spot? (site.backup file) = some location) :
    site.name ∈ location := by
  obtain ⟨root, rootSpot, rfl⟩ := sound.backup_spot takes spot
  exact List.mem_append_left _ (sound.name_in_root rootSpot)

end Site

end Delivery

end PipelineWaves
