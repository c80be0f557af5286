import PipelineWaves.Proofs.Delivery.Staging

/-!
# Replaced files

Files are replaced one by one. At every slot taken so far the new file stands,
and what was there before is in its backup; the other files wait in the staging
directory. Undoing one slot leaves what held before it was taken, so undoing all
of them, the latest first, leaves every file outside as it was.
-/

set_option autoImplicit false

namespace PipelineWaves

namespace Delivery

namespace Site

/-- Every slot holds the file that took it. -/
def Filled (files : Files) (slots : List Slot) : Prop :=
  ∀ slot ∈ slots, files.fileAt? slot.location = some (slot.file.contents.toUTF8, false)

variable (site : Site)

/-- Every file to come is staged. -/
def Waits (files : Files) (rest : List ProgramFile) : Prop :=
  ∀ file ∈ rest, site.HasStaged files file

/-- Different files have taken the slots or are still waiting. -/
structure InProgress (before files : Files) (slots : List Slot) (rest : List ProgramFile) :
    Prop extends site.Keeps before files slots where
  takes : ∀ file ∈ slots.map Slot.file ++ rest, site.Takes file
  apart : (slots.map Slot.file ++ rest).Pairwise fun first second =>
    first.path.pieces ≠ second.path.pieces
  waits : site.Waits files rest

/-- A slot is taken whose file still waits. -/
structure Parked (before files : Files) (slot : Slot) (slots : List Slot)
    (rest : List ProgramFile) : Prop extends site.InProgress before files (slot :: slots) rest where
  filled : Filled files slots
  next : site.HasStaged files slot.file

variable {site} {before files after : Files} {slots : List Slot} {slot : Slot}
  {file : ProgramFile} {rest : List ProgramFile}

namespace InProgress

theorem takes_slot (progress : site.InProgress before files slots rest) (member : slot ∈ slots) :
    site.Takes slot.file :=
  progress.takes _ (List.mem_append_left _ (List.mem_map_of_mem member))

theorem takes_next (progress : site.InProgress before files slots (file :: rest)) :
    site.Takes file :=
  progress.takes _ (List.mem_append_right _ List.mem_cons_self)

theorem apart_next (progress : site.InProgress before files slots (file :: rest))
    (member : slot ∈ slots) : slot.file.path.pieces ≠ file.path.pieces :=
  (List.pairwise_append.1 progress.apart).2.2 _ (List.mem_map_of_mem member) _
    List.mem_cons_self

theorem apart_head (progress : site.InProgress before files (slot :: slots) rest) {other : Slot}
    (member : other ∈ slots) : other.file.path.pieces ≠ slot.file.path.pieces :=
  fun same => (List.pairwise_cons.1 progress.apart).1 other.file
    (List.mem_append_left _ (List.mem_map_of_mem member)) same.symm

theorem drop_rest (progress : site.InProgress before files slots rest) :
    site.InProgress before files slots [] := by
  refine ⟨progress.toKeeps, fun file member => ?_, ?_, by simp [Waits]⟩
  · rw [List.append_nil] at member
    exact progress.takes file (List.mem_append_left _ member)
  · rw [List.append_nil]
    exact (List.pairwise_append.1 progress.apart).1

end InProgress

section Steps

variable (sound : site.IsSound) (nonempty : site.directory.text ≠ "")
  (unnamed : site.name ∉ before.here)

section Outside

include sound unnamed

theorem InProgress.outside_spot (progress : site.InProgress before files slots rest)
    (takes : site.Takes file) {location : Location}
    (spot : files.spot? (site.target file) = some location) : site.name ∉ location := by
  have here : site.name ∉ files.here := by
    rw [progress.keeps.here]
    exact unnamed
  exact spot_outside here (sound.name_not_in_target takes) spot

theorem InProgress.outside_slot (progress : site.InProgress before files slots rest)
    (member : slot ∈ slots) : site.name ∉ slot.location :=
  progress.outside_spot sound unnamed (progress.takes_slot member)
    (progress.backed slot member).target

theorem InProgress.makes (progress : site.InProgress before files slots rest) {path : FilePath}
    (isLocal : site.IsLocal path) (makes : Files.Makes path files after) :
    site.InProgress before after slots rest := by
  refine ⟨progress.toKeeps.makes sound unnamed isLocal makes, progress.takes, progress.apart, ?_⟩
  intro file member
  obtain ⟨_, _, _, change⟩ := id makes
  obtain ⟨root, spot, contents⟩ := progress.waits file member
  exact ⟨root, change.keeps.spot spot, by rw [makes.file_at, contents]⟩

omit sound unnamed in
theorem Filled.makes (filled : Filled files slots) {path : FilePath}
    (makes : Files.Makes path files after) : Filled after slots :=
  fun slot member => by rw [makes.file_at, filled slot member]

end Outside

section Apart

include nonempty

theorem InProgress.slot_apart (progress : site.InProgress before files slots (file :: rest))
    {location : Location} (spot : files.spot? (site.target file) = some location)
    (member : slot ∈ slots) : slot.location ≠ location :=
  targets_apart (progress.takes_slot member) progress.takes_next (progress.apart_next member)
    nonempty (progress.backed slot member).target spot

theorem InProgress.head_apart (progress : site.InProgress before files (slot :: slots) rest)
    {other : Slot} (member : other ∈ slots) : other.location ≠ slot.location :=
  targets_apart (progress.takes_slot (List.mem_cons_of_mem _ member))
    (progress.takes_slot List.mem_cons_self) (progress.apart_head member) nonempty
    (progress.backed other (List.mem_cons_of_mem _ member)).target
    (progress.backed slot List.mem_cons_self).target

end Apart

/-- Taking a slot changes the order of the files only. -/
theorem Keeps.advance (kept : site.Keeps before after (slot :: slots))
    (progress : site.InProgress before files slots (slot.file :: rest))
    (waits : site.Waits after rest) :
    site.InProgress before after (slot :: slots) rest := by
  have order : (slots.map Slot.file ++ slot.file :: rest).Perm
      ((slot :: slots).map Slot.file ++ rest) := List.perm_middle
  refine ⟨kept, fun file member => progress.takes file (order.mem_iff.2 member), ?_, waits⟩
  exact (order.pairwise_iff fun apart => Ne.symm apart).1 progress.apart

theorem InProgress.tail (progress : site.InProgress before files (slot :: slots) rest)
    (kept : site.Keeps before after slots) : site.InProgress before after slots [] := by
  refine ⟨kept, fun file member => ?_, ?_, by simp [Waits]⟩
  · rw [List.append_nil] at member
    exact progress.takes file (List.mem_cons_of_mem _ (List.mem_append_left _ member))
  · rw [List.append_nil]
    exact (List.pairwise_append.1 (List.pairwise_cons.1 progress.apart).2).1

/-- Files change at one location outside and at some places inside only. -/
structure Shifts (site : Site) (files after : Files) (location : Location)
    (places : Location → Prop) : Prop where
  keeps : files.Keeps after
  outer : site.name ∉ location
  inside : ∀ place, places place → site.name ∈ place
  elsewhere : ∀ other, other ≠ location → ¬ places other →
    after.fileAt? other = files.fileAt? other

namespace Shifts

variable {location : Location} {places : Location → Prop}
  (shifts : site.Shifts files after location places)
include shifts

theorem file_outside {other : Location} (free : site.name ∉ other) (apart : other ≠ location) :
    after.fileAt? other = files.fileAt? other :=
  shifts.elsewhere other apart fun isPlace => free (shifts.inside other isPlace)

theorem file_inside {other : Location} (member : site.name ∈ other) (notPlace : ¬ places other) :
    after.fileAt? other = files.fileAt? other := by
  refine shifts.elsewhere other ?_ notPlace
  rintro rfl
  exact shifts.outer member

theorem filled (filled : Filled files slots)
    (apart : ∀ slot ∈ slots, site.name ∉ slot.location ∧ slot.location ≠ location) :
    Filled after slots := by
  intro slot member
  rw [shifts.file_outside (apart slot member).1 (apart slot member).2, filled slot member]

theorem backed (sound : site.IsSound) (takes : ∀ slot ∈ slots, site.Takes slot.file)
    (backed : ∀ slot ∈ slots, site.Backs before files slot)
    (notPlace : ∀ slot ∈ slots, ∀ place, files.spot? (site.backup slot.file) = some place →
      ¬ places place) : ∀ slot ∈ slots, site.Backs before after slot := by
  intro slot member
  refine (backed slot member).kept shifts.keeps fun place spot => ?_
  exact shifts.file_inside (sound.name_in_backup (takes slot member) spot)
    (notPlace slot member place spot)

theorem staged (sound : site.IsSound) (staged : site.HasStaged files file)
    (notPlace : ∀ root, files.spot? site.staging = some root →
      ¬ places (root ++ file.path.pieces)) : site.HasStaged after file := by
  obtain ⟨root, spot, contents⟩ := staged
  refine ⟨root, shifts.keeps.spot spot, ?_⟩
  rw [shifts.file_inside (List.mem_append_left _ (sound.name_in_root spot)) (notPlace root spot),
    contents]

end Shifts

/-- A file that moves in or out shifts at both of its locations. -/
theorem shifts_in {location place : Location} {contents : ByteArray} {executable : Bool}
    (outer : site.name ∉ location) (inner : site.name ∈ place)
    (moves : files.Moves after location place)
    (isFile : files.stands location = some (.file contents executable)) :
    site.Shifts files after location (· = place) :=
  ⟨moves.keeps isFile, outer, fun _ same => same ▸ inner,
    fun _ notLocation notPlace => moves.file_elsewhere isFile notLocation notPlace⟩

theorem shifts_out {location place : Location} {contents : ByteArray} {executable : Bool}
    (outer : site.name ∉ location) (inner : site.name ∈ place)
    (moves : files.Moves after place location)
    (isFile : files.stands place = some (.file contents executable)) :
    site.Shifts files after location (· = place) :=
  ⟨moves.keeps isFile, outer, fun _ same => same ▸ inner,
    fun _ notLocation notPlace => moves.file_elsewhere isFile notPlace notLocation⟩

theorem shifts_cleared {location : Location} {standing : Option Standing}
    (outer : site.name ∉ location) (change : files.Changes after location standing) :
    site.Shifts files after location fun _ => False :=
  ⟨change.keeps, outer, fun _ => False.elim, fun _ apart _ => change.file_elsewhere apart⟩

include sound nonempty unnamed

theorem InProgress.parks (progress : site.InProgress before files slots (file :: rest))
    (filled : Filled files slots) {location place : Location} {contents : ByteArray}
    {executable : Bool} (spot : files.spot? (site.target file) = some location)
    (backupSpot : files.spot? (site.backup file) = some place)
    (moves : files.Moves after location place)
    (isFile : files.stands location = some (.file contents executable)) :
    site.Parked before after ⟨file, location, true⟩ slots rest ∧ after.stands location = none := by
  have takes := progress.takes_next
  have outer := progress.outside_spot sound unnamed takes spot
  have inner := sound.name_in_backup takes backupSpot
  have shifts := shifts_in outer inner moves isFile
  have waiting : ∀ other, site.Takes other → site.HasStaged files other →
      site.HasStaged after other := fun other otherTakes staged =>
    shifts.staged sound staged fun root rootSpot =>
      sound.staged_not_backup otherTakes takes rootSpot backupSpot
  have original : before.fileAt? location = some (contents, executable) := by
    rw [← progress.outside location outer fun slot => progress.slot_apart nonempty spot]
    exact Files.file_at_of_file isFile
  have backedBefore := shifts.backed sound (fun slot => progress.takes_slot) progress.backed
    fun slot member other otherSpot => sound.backups_apart (progress.takes_slot member) takes
      (progress.apart_next member) otherSpot backupSpot
  have kept : site.Keeps before after (⟨file, location, true⟩ :: slots) := by
    refine ⟨progress.toIsOrderly.moves sound unnamed (sound.backup_local takes) backupSpot moves
      isFile, ?_, fun other free apart => ?_⟩
    · rw [List.forall_mem_cons]
      refine ⟨⟨shifts.keeps.spot spot, fun _ => ?_, by simp⟩, backedBefore⟩
      exact ⟨place, _, shifts.keeps.spot backupSpot,
        Files.file_at_of_file (moves.stands_target isFile), original⟩
    · rw [shifts.file_outside free (apart _ List.mem_cons_self).symm]
      exact progress.outside other free fun slot earlier =>
        apart slot (List.mem_cons_of_mem _ earlier)
  refine ⟨⟨?_, ?_, waiting file takes (progress.waits file List.mem_cons_self)⟩,
    moves.stands_source isFile fun same => outer (same ▸ inner)⟩
  · exact kept.advance progress fun other member =>
      waiting other (progress.takes _ (by simp [member]))
        (progress.waits other (List.mem_cons_of_mem _ member))
  · exact shifts.filled filled fun slot member =>
      ⟨progress.outside_slot sound unnamed member, progress.slot_apart nonempty spot member⟩

theorem InProgress.takes_free (progress : site.InProgress before files slots (file :: rest))
    (filled : Filled files slots) {location : Location}
    (spot : files.spot? (site.target file) = some location)
    (free : files.fileAt? location = none) :
    site.Parked before files ⟨file, location, false⟩ slots rest := by
  have outer := progress.outside_spot sound unnamed progress.takes_next spot
  have original : before.fileAt? location = none := by
    rw [← progress.outside location outer fun slot => progress.slot_apart nonempty spot, free]
  have kept : site.Keeps before files (⟨file, location, false⟩ :: slots) := by
    refine ⟨progress.toIsOrderly, ?_, fun other free apart =>
      progress.outside other free fun slot earlier => apart slot (List.mem_cons_of_mem _ earlier)⟩
    rw [List.forall_mem_cons]
    exact ⟨⟨spot, by simp, fun _ => original⟩, progress.backed⟩
  have waits : site.Waits files rest :=
    fun other member => progress.waits other (List.mem_cons_of_mem _ member)
  exact ⟨kept.advance progress waits, filled, progress.waits file List.mem_cons_self⟩

theorem Parked.fills (parked : site.Parked before files slot slots rest)
    (renames : Files.Renames (site.staged slot.file) (site.target slot.file) files after) :
    site.InProgress before after (slot :: slots) rest ∧ Filled after (slot :: slots) := by
  have head : slot ∈ slot :: slots := List.mem_cons_self
  have takes := parked.takes_slot head
  obtain ⟨source, target, sourceSpot, targetSpot, moves⟩ := renames
  rw [(parked.backed slot head).target, Option.some_inj] at targetSpot
  subst targetSpot
  obtain ⟨root, rootSpot, rfl⟩ := sound.staged_spot takes sourceSpot
  obtain ⟨_, nextSpot, staged⟩ := parked.next
  rw [rootSpot, Option.some_inj] at nextSpot
  subst nextSpot
  have isFile := Files.file_at_iff.1 staged
  have outer := parked.outside_slot sound unnamed head
  have shifts := shifts_out outer (List.mem_append_left _ (sound.name_in_root rootSpot)) moves
    isFile
  have backed := shifts.backed sound (fun slot => parked.takes_slot) parked.backed
    fun other member place spot same =>
      sound.staged_not_backup takes (parked.takes_slot member) rootSpot spot same.symm
  refine ⟨⟨⟨parked.toIsOrderly.moves sound unnamed (sound.target_local takes)
    (parked.backed slot head).target moves isFile, backed, fun other free apart => ?_⟩,
    parked.takes, parked.apart, fun other member => ?_⟩, ?_⟩
  · rw [shifts.file_outside free (apart slot head).symm]
    exact parked.outside other free apart
  · refine shifts.staged sound (parked.waits other member) fun otherRoot otherSpot same => ?_
    rw [rootSpot, Option.some_inj] at otherSpot
    rw [otherSpot, List.append_cancel_left_eq] at same
    exact (List.pairwise_cons.1 parked.apart).1 other (List.mem_append_right _ member) same.symm
  · rw [Filled, List.forall_mem_cons]
    refine ⟨Files.file_at_of_file (moves.stands_target isFile), ?_⟩
    exact shifts.filled parked.filled fun other member =>
      ⟨parked.outside_slot sound unnamed (List.mem_cons_of_mem _ member),
        parked.head_apart nonempty member⟩

/-- A slot whose file is gone is still taken. -/
theorem InProgress.clears (progress : site.InProgress before files (slot :: slots) rest)
    (filled : Filled files (slot :: slots))
    (change : files.Changes after slot.location none) :
    site.InProgress before after (slot :: slots) rest ∧ Filled after slots := by
  have head : slot ∈ slot :: slots := List.mem_cons_self
  have takes := progress.takes_slot head
  have shifts := shifts_cleared (progress.outside_slot sound unnamed head) change
  have backed := shifts.backed sound (fun slot => progress.takes_slot) progress.backed
    fun _ _ _ _ => id
  refine ⟨⟨⟨progress.toIsOrderly.changes sound unnamed (sound.target_local takes)
    (progress.backed slot head).target change (by simp), backed, fun other free apart => ?_⟩,
    progress.takes, progress.apart, fun other member => ?_⟩, ?_⟩
  · rw [shifts.file_outside free (apart slot head).symm]
    exact progress.outside other free apart
  · exact shifts.staged sound (progress.waits other member) fun _ _ => id
  · exact shifts.filled (fun other member => filled other (List.mem_cons_of_mem _ member))
      fun other member => ⟨progress.outside_slot sound unnamed (List.mem_cons_of_mem _ member),
        progress.head_apart nonempty member⟩

/-- A slot with its backup put back is not taken any more. -/
theorem InProgress.puts_back (progress : site.InProgress before files (slot :: slots) rest)
    (filled : Filled files slots) {place : Location} {contents : ByteArray × Bool}
    (spot : files.spot? (site.backup slot.file) = some place)
    (held : files.fileAt? place = some contents)
    (original : before.fileAt? slot.location = some contents)
    (moves : files.Moves after place slot.location) :
    site.InProgress before after slots [] ∧ Filled after slots := by
  have head : slot ∈ slot :: slots := List.mem_cons_self
  have takes := progress.takes_slot head
  have isFile := Files.file_at_iff.1 held
  have shifts := shifts_out (progress.outside_slot sound unnamed head)
    (sound.name_in_backup takes spot) moves isFile
  have backed := shifts.backed sound
    (fun other member => progress.takes_slot (List.mem_cons_of_mem _ member))
    (fun other member => progress.backed other (List.mem_cons_of_mem _ member))
    fun other member location otherSpot =>
      sound.backups_apart (progress.takes_slot (List.mem_cons_of_mem _ member)) takes
        (progress.apart_head member) otherSpot spot
  refine ⟨progress.tail ⟨progress.toIsOrderly.moves sound unnamed (sound.target_local takes)
    (progress.backed slot head).target moves isFile, backed, fun other free apart => ?_⟩, ?_⟩
  · by_cases same : other = slot.location
    · rw [same, Files.file_at_of_file (moves.stands_target isFile), original]
    · rw [shifts.file_outside free same]
      refine progress.outside other free ?_
      rw [List.forall_mem_cons]
      exact ⟨fun equal => same equal.symm, apart⟩
  · exact shifts.filled filled fun other member =>
      ⟨progress.outside_slot sound unnamed (List.mem_cons_of_mem _ member),
        progress.head_apart nonempty member⟩

omit sound nonempty unnamed in
theorem InProgress.leaves (progress : site.InProgress before files (slot :: slots) rest)
    (unsaved : slot.saved = false) (free : files.fileAt? slot.location = none) :
    site.InProgress before files slots [] := by
  have head : slot ∈ slot :: slots := List.mem_cons_self
  refine progress.tail ⟨progress.toIsOrderly,
    fun other member => progress.backed other (List.mem_cons_of_mem _ member),
    fun other outside apart => ?_⟩
  by_cases same : other = slot.location
  · rw [same, free, (progress.backed slot head).unsaved unsaved]
  · refine progress.outside other outside ?_
    rw [List.forall_mem_cons]
    exact ⟨fun equal => same equal.symm, apart⟩

end Steps

end Site

end Delivery

end PipelineWaves
