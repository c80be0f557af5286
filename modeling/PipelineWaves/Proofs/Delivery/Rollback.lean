import PipelineWaves.Proofs.Delivery.Replacement

/-!
# Replacing and undoing

The loop that replaces files, and the loop that undoes what it has done. Every
call of a replacement may fail; then the slot it was working on is as it was,
and undoing the slots before it, the latest first, needs no call that may fail.
-/

set_option autoImplicit false

namespace PipelineWaves

namespace Delivery

namespace Site

variable {site : Site} {before : Files} {slots : List Slot} {slot : Slot}
  {file : ProgramFile} {rest : List ProgramFile} {plan : Nat → Option Mishap} {watched : Watched}
  (sound : site.IsSound) (nonempty : site.directory.text ≠ "")
  (unnamed : site.name ∉ before.here)
include sound nonempty unnamed

theorem put_back_ends (progress : site.InProgress before watched.files (slot :: slots) rest)
    (filled : Filled watched.files slots) (saved : slot.saved = true)
    (vacant : watched.files.stands slot.location = none) :
    ((site.calls plan).rename (site.backup slot.file) (site.target slot.file)).Ends watched
      (fun _ after => site.InProgress before after.files slots [] ∧ Filled after.files slots)
      fun _ => False := by
  have head : slot ∈ slot :: slots := List.mem_cons_self
  have takes := progress.takes_slot head
  have backed := progress.backed slot head
  obtain ⟨place, contents, spot, held, original⟩ := backed.saved saved
  have noSlash := Files.joined_no_slash sound.backups_text takes.inner
  have targetNoSlash := Files.joined_no_slash nonempty takes.inner
  exact (FileCalls.unreliable_put_back progress.plain (sound.is_backup takes) noSlash targetNoSlash
    spot backed.target (Files.file_at_iff.1 held) vacant).weaken
      (fun _ _ moves => progress.puts_back sound nonempty unnamed filled spot held original moves)
      fun _ => id

theorem restore_ends (progress : site.InProgress before watched.files (slot :: slots) rest)
    (filled : Filled watched.files (slot :: slots)) :
    (restore (site.calls plan) (site.replaced slot)).Ends watched
      (fun _ after => site.InProgress before after.files slots [] ∧ Filled after.files slots)
      fun _ => False := by
  have head : slot ∈ slot :: slots := List.mem_cons_self
  have takes := progress.takes_slot head
  have noSlash := Files.joined_no_slash nonempty takes.inner
  have isFile := Files.file_at_iff.1 (filled slot head)
  have cleared : ((site.calls plan).removeFile (site.target slot.file)).Ends watched
      (fun _ after => site.InProgress before after.files (slot :: slots) rest ∧
        Filled after.files slots ∧ after.files.stands slot.location = none)
      fun _ => False := by
    refine (FileCalls.unreliable_remove_file progress.plain noSlash
      (progress.backed slot head).target isFile).weaken (fun _ _ change => ?_) fun _ => id
    have clears := progress.clears sound nonempty unnamed filled change
    exact ⟨clears.1, clears.2, change.stands_at⟩
  rw [restore]
  refine (cleared.weaken (fun _ _ => id) fun _ => False.elim).ignoringFailure.bind
    fun _ after both => ?_
  obtain ⟨progress, filled, vacant⟩ := both
  cases saved : slot.saved with
  | true =>
      simp only [replaced, saved, if_true]
      exact ((put_back_ends sound nonempty unnamed progress filled saved vacant).weaken
        (fun _ _ => id) fun _ => False.elim).ignoringFailure
  | false =>
      simp only [replaced, saved, Bool.false_eq_true, if_false]
      have free : after.files.fileAt? slot.location = none :=
        Files.file_at_vacant vacant
      exact Attempt.ends_pure ⟨progress.leaves saved free, filled⟩

theorem restore_all_ends (progress : site.InProgress before watched.files slots rest)
    (filled : Filled watched.files slots) :
    ((slots.map site.replaced).forM (restore (site.calls plan))).Ends watched
      (fun _ after => site.Keeps before after.files []) fun _ => False := by
  induction slots generalizing watched rest with
  | nil => exact Attempt.ends_pure progress.toKeeps
  | cons slot slots induction =>
      rw [List.map_cons, List.forM_eq_forM, List.forM_cons]
      exact (restore_ends sound nonempty unnamed progress filled).bind
        fun _ after both => induction both.1 both.2

omit nonempty in
theorem parent_ends (progress : site.InProgress before watched.files slots rest)
    (filled : Filled watched.files slots) {path : FilePath} (isLocal : site.IsLocal path) :
    (createParent (site.calls plan) path).Ends watched
      (fun _ after => site.InProgress before after.files slots rest ∧ Filled after.files slots)
      fun after => site.InProgress before after.files slots rest ∧ Filled after.files slots :=
  sound.create_parent_ends
    (fun files (both : site.InProgress before files slots rest ∧ Filled files slots) =>
      both.1.plain)
    (fun _ _ both _ isLocal makes =>
      ⟨both.1.makes sound unnamed isLocal makes, both.2.makes makes⟩)
    isLocal ⟨progress, filled⟩

omit nonempty in
theorem backup_parent_ends (progress : site.InProgress before watched.files slots (file :: rest))
    (filled : Filled watched.files slots) {location : Location} {contents : ByteArray}
    {executable : Bool} (spot : watched.files.spot? (site.target file) = some location)
    (isFile : watched.files.stands location = some (.file contents executable)) :
    (createParent (site.calls plan) (site.backup file)).Ends watched
      (fun _ after => (site.InProgress before after.files slots (file :: rest) ∧
        Filled after.files slots) ∧ after.files.spot? (site.target file) = some location ∧
        after.files.stands location = some (.file contents executable))
      fun after => site.InProgress before after.files slots [] ∧ Filled after.files slots := by
  refine (sound.create_parent_ends
    (fun files (all : (site.InProgress before files slots (file :: rest) ∧ Filled files slots) ∧
      files.spot? (site.target file) = some location ∧
      files.stands location = some (.file contents executable)) => all.1.1.plain)
    (fun files after all above isLocal makes => ?_) (sound.backup_local progress.takes_next)
    ⟨⟨progress, filled⟩, spot, isFile⟩).weaken (fun _ _ => id)
      fun _ all => ⟨all.1.1.drop_rest, all.1.2⟩
  obtain ⟨⟨progress, filled⟩, spot, isFile⟩ := all
  obtain ⟨_, _, _, change⟩ := id makes
  refine ⟨⟨progress.makes sound unnamed isLocal makes, filled.makes makes⟩,
    change.keeps.spot spot, ?_⟩
  rw [makes.stands_kept (by simp [isFile]), isFile]

/-- The file at the target moves to its backup, or nothing happens. -/
theorem move_out_ends (progress : site.InProgress before watched.files slots (file :: rest))
    (filled : Filled watched.files slots) {location : Location} {contents : ByteArray}
    {executable : Bool} (spot : watched.files.spot? (site.target file) = some location)
    (isFile : watched.files.stands location = some (.file contents executable)) :
    (reportedAt (site.target file)
      ((site.calls plan).rename (site.target file) (site.backup file))).Ends watched
      (fun _ after => site.Parked before after.files ⟨file, location, true⟩ slots rest ∧
        after.files.stands location = none)
      fun after => site.InProgress before after.files slots [] ∧ Filled after.files slots := by
  have short : ∀ name, (Files.lastName (site.target file)).name = some name →
      name.utf8ByteSize ≤ Walk.longestName := fun _ => Files.short_of_spot spot
  refine ((FileCalls.unreliable_rename progress.plain short).weaken ?_ ?_).mapFailure
  · rintro _ after ⟨source, place, sourceSpot, backupSpot, moves⟩
    rw [spot, Option.some_inj] at sourceSpot
    subst sourceSpot
    exact progress.parks sound nonempty unnamed filled spot backupSpot moves isFile
  · intro after same
    rw [same]
    exact ⟨progress.drop_rest, filled⟩

theorem park_ends (progress : site.InProgress before watched.files slots (file :: rest))
    (filled : Filled watched.files slots) :
    (park (site.calls plan) (site.target file) (site.backup file)).Ends watched
      (fun parked after =>
        (∃ location, parked = site.replaced ⟨file, location, true⟩ ∧
          site.Parked before after.files ⟨file, location, true⟩ slots rest ∧
          after.files.stands location = none) ∨
        parked = ⟨site.target file, none⟩ ∧
          site.InProgress before after.files slots (file :: rest) ∧ Filled after.files slots ∧
          after.files.isFile (site.target file) = false)
      fun after => site.InProgress before after.files slots [] ∧ Filled after.files slots := by
  have takes := progress.takes_next
  have noSlash := Files.joined_no_slash nonempty takes.inner
  obtain ⟨name, last, _⟩ := Files.joined_last nonempty takes.inner
  rw [park]
  refine Attempt.ends_get_bind ?_
  cases isFile : watched.files.isFile (site.target file) with
  | false =>
      have nothing : (site.calls plan).isFile watched (site.target file) = false := isFile
      rw [nothing, if_neg Bool.false_ne_true]
      exact Attempt.ends_pure (.inr ⟨rfl, progress, filled, isFile⟩)
  | true =>
      have something : (site.calls plan).isFile watched (site.target file) = true := isFile
      rw [something, if_pos rfl]
      obtain ⟨location, contents, executable, spot, stands⟩ :=
        (Files.is_file_iff progress.plain noSlash last).1 isFile
      refine (backup_parent_ends sound unnamed progress filled spot stands).bind
        fun _ made all => ?_
      obtain ⟨⟨progress, filled⟩, spot, stands⟩ := all
      exact (move_out_ends sound nonempty unnamed progress filled spot stands).bind
        fun _ after both => Attempt.ends_pure (.inl ⟨location, rfl, both.1, both.2⟩)

omit nonempty unnamed in
theorem move_ends (takes : site.Takes file) (plain : watched.files.IsPlain) :
    ((reportedAt (site.target file)
      ((site.calls plan).rename (site.staged file) (site.target file))).tried :
        Step Watched _).Ends watched
      (Attempt.Tried (fun _ after => Files.Renames (site.staged file) (site.target file)
        watched.files after.files) fun after => after.files = watched.files)
      fun _ => False := by
  have short : ∀ name, (Files.lastName (site.staged file)).name = some name →
      name.utf8ByteSize ≤ Walk.longestName := fun _ => takes.short_last sound.staging_text
  exact (FileCalls.unreliable_rename plain short).mapFailure.tried

/-- A file takes its slot, or the slots are as they were. -/
theorem replace_ends (progress : site.InProgress before watched.files slots (file :: rest))
    (filled : Filled watched.files slots) :
    (replace (site.calls plan) (site.staged file) (site.target file) (site.backup file)).Ends
      watched
      (fun replaced after => ∃ slot, slot.file = file ∧ replaced = site.replaced slot ∧
        site.InProgress before after.files (slot :: slots) rest ∧
        Filled after.files (slot :: slots))
      fun after => site.InProgress before after.files slots [] ∧ Filled after.files slots := by
  have takes := progress.takes_next
  have targetLocal := sound.target_local takes
  have noSlash := Files.joined_no_slash nonempty takes.inner
  obtain ⟨name, last, _⟩ := Files.joined_last nonempty takes.inner
  rw [replace]
  refine ((parent_ends sound unnamed progress filled targetLocal).weaken (fun _ _ => id)
    fun _ both => ⟨both.1.drop_rest, both.2⟩).bind fun _ made both => ?_
  refine (park_ends sound nonempty unnamed both.1 both.2).bind fun replaced parked ended => ?_
  rcases ended with ⟨location, hasBackup, slotTaken, vacant⟩ | ⟨noBackup, progress, filled, noFile⟩
  -- A file was parked, so a failed move has to put it back.
  · refine ((move_ends sound takes slotTaken.plain).weaken (fun _ _ => id)
      fun _ => False.elim).bind fun result after moved => ?_
    cases result with
    | ok _ =>
        have taken := slotTaken.fills sound nonempty unnamed moved
        exact Attempt.ends_pure ⟨⟨file, location, true⟩, rfl, hasBackup, taken.1, taken.2⟩
    | error failure =>
        have same : after.files = parked.files := moved
        have progress := slotTaken.toInProgress
        have filled := slotTaken.filled
        rw [← same] at progress filled vacant
        rw [hasBackup]
        exact ((put_back_ends sound nonempty unnamed progress filled rfl vacant).weaken
          (fun _ _ => id) fun _ => False.elim).ignoringFailure.bind
            fun _ _ undone => Attempt.ends_throw undone
  -- No file was there, so a failed move leaves nothing to undo.
  · refine ((move_ends sound takes progress.plain).weaken (fun _ _ => id)
      fun _ => False.elim).bind fun result after moved => ?_
    cases result with
    | ok _ =>
        obtain ⟨_, location, _, spot, _⟩ := id moved
        have free := Files.no_file_at_spot progress.plain noSlash last noFile spot
        have slotTaken := progress.takes_free sound nonempty unnamed filled spot free
        have taken := slotTaken.fills sound nonempty unnamed moved
        exact Attempt.ends_pure ⟨⟨file, location, false⟩, rfl, noBackup, taken.1, taken.2⟩
    | error failure =>
        have same : after.files = parked.files := moved
        have undone := progress.drop_rest
        rw [← same] at undone filled
        rw [noBackup]
        exact Attempt.ends_throw ⟨undone, filled⟩

/-- Either all files are replaced, or every file outside is as it was. -/
theorem replace_all_ends (progress : site.InProgress before watched.files slots rest)
    (filled : Filled watched.files slots) :
    (replaceAll (site.calls plan) site.staging site.directory (slots.map site.replaced) rest).Ends
      watched
      (fun _ after => ∃ taken, taken.map Slot.file = rest.reverse ++ slots.map Slot.file ∧
        site.InProgress before after.files taken [] ∧ Filled after.files taken)
      fun after => site.Keeps before after.files [] := by
  induction rest generalizing slots watched with
  | nil => exact Attempt.ends_pure ⟨slots, rfl, progress, filled⟩
  | cons file rest induction =>
      rw [replaceAll]
      have replaced : ((replace (site.calls plan) (site.staged file) (site.target file)
          (site.backup file)).tried : Step Watched _).Ends watched
          (Attempt.Tried (fun replaced after => ∃ slot, slot.file = file ∧
              replaced = site.replaced slot ∧ site.InProgress before after.files (slot :: slots) rest ∧
              Filled after.files (slot :: slots))
            fun after => site.InProgress before after.files slots [] ∧ Filled after.files slots)
          fun after => site.Keeps before after.files [] :=
        (replace_ends sound nonempty unnamed progress filled).tried
      refine replaced.bind fun result after ended => ?_
      cases result with
      | ok replaced =>
          obtain ⟨slot, rfl, rfl, progress, filled⟩ := ended
          refine (induction progress filled).weaken ?_ fun _ => id
          rintro _ after ⟨taken, files, progress, filled⟩
          exact ⟨taken, by simp [files], progress, filled⟩
      | error failure =>
          exact ((restore_all_ends sound nonempty unnamed ended.1 ended.2).weaken (fun _ _ => id)
            fun _ => False.elim).bind fun _ after kept => Attempt.ends_throw kept

end Site

end Delivery

end PipelineWaves
