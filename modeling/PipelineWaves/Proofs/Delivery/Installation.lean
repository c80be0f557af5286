import PipelineWaves.Proofs.Delivery.Rollback

/-!
# Whole deliveries

Staged files are installed: in a directory that exists they are replaced one by
one, and otherwise the staging directory itself moves there. Then what is left of
the staging directory is swept away. A delivery that succeeds has changed the
files of the program only, one that fails none at all, and neither leaves
anything that has the staging name.
-/

set_option autoImplicit false

namespace PipelineWaves

namespace Delivery

namespace Site

variable (site : Site)

/-- The written files stand at the place of the directory; outside every other file is as it was. -/
structure Installed (before files : Files) (written : List ProgramFile) : Prop where
  plain : files.IsPlain
  here : files.here = before.here
  confined : site.IsConfined files
  readable : Files.pathFault? site.directory = none
  placed : ∃ place, site.name ∉ place ∧
    files.leads (files.origin site.directory) site.directory.names = some place ∧
    (∀ file ∈ written, files.fileAt? (place ++ file.path.pieces) =
      some (file.contents.toUTF8, false)) ∧
    ∀ location, site.name ∉ location → (∀ file ∈ written, place ++ file.path.pieces ≠ location) →
      files.fileAt? location = before.fileAt? location

/-- Nothing has the staging name; the rest of the tree is as it was. -/
structure Swept (files after : Files) : Prop where
  here : after.here = files.here
  lacks : after.Lacks site.name
  outside : ∀ location, site.name ∉ location → after.stands location = files.stands location

/-- The directory holds all written files, every other file is as it was and nothing is staged. -/
structure Delivered (written : List ProgramFile) (before after : Files) : Prop where
  complete : ∃ place entries, after.node? site.directory = .ok (place, .directory entries) ∧
    (∀ file ∈ written, after.fileAt? (place ++ file.path.pieces) =
      some (file.contents.toUTF8, false)) ∧
    ∀ location, (∀ file ∈ written, place ++ file.path.pieces ≠ location) →
      after.fileAt? location = before.fileAt? location
  absent : after.isPresent site.staging = false
  lacks : after.Lacks site.name

/-- Every file is as it was, none has come, and nothing is staged. -/
structure Untouched (before after : Files) : Prop where
  files : ∀ location, after.fileAt? location = before.fileAt? location
  absent : after.isPresent site.staging = false
  lacks : after.Lacks site.name

variable {site} {before files after : Files} {slots : List Slot} {written : List ProgramFile}
  (sound : site.IsSound)

theorem confined_of_lacks (lacks : files.Lacks site.name) : site.IsConfined files :=
  fun location something member => absurd (lacks location member) something

theorem holds_nothing (lacks : files.Lacks site.name) : site.Holds files [] := by
  refine ⟨by simp, fun location member something => absurd ?_ something⟩
  exact Files.file_at_vacant (lacks location member)

theorem keeps_nothing (plain : files.IsPlain) (lacks : files.Lacks site.name) :
    site.Keeps files files [] :=
  ⟨⟨plain, .refl files, confined_of_lacks lacks⟩, by simp, fun _ _ _ => rfl⟩

theorem unnamed_of_lacks (plain : files.IsPlain) (lacks : files.Lacks site.name) :
    site.name ∉ files.here := by
  intro member
  have vacant := lacks files.here member
  rw [plain.standsHere] at vacant
  cases vacant

section Sweeping

include sound

theorem IsConfined.sweeps (confined : site.IsConfined files)
    (clears : Files.Clears site.staging files after) : site.Swept files after := by
  obtain ⟨here, stands⟩ := clears
  refine ⟨here, fun location member => ?_, fun location free => ?_⟩
  · rw [stands]
    by_contra something
    cases spot : files.spot? site.staging with
    | none =>
        simp only [spot] at something
        obtain ⟨root, _, rootSpot, _⟩ := confined location something member
        rw [spot] at rootSpot
        cases rootSpot
    | some gone =>
        simp only [spot, ite_eq_left_iff, not_forall] at something
        obtain ⟨outer, something⟩ := something
        obtain ⟨root, rest, rootSpot, _, rfl⟩ := confined location something member
        rw [spot, Option.some_inj] at rootSpot
        exact outer (rootSpot ▸ List.prefix_append _ rest)
  · rw [stands]
    cases spot : files.spot? site.staging with
    | none => rfl
    | some gone =>
        have outer : ¬ gone <+: location :=
          fun inside => free (inside.subset (sound.name_in_root spot))
        exact if_neg outer

theorem IsSound.absent_of_lacks (plain : files.IsPlain) (lacks : files.Lacks site.name) :
    files.isPresent site.staging = false := by
  rw [← Bool.not_eq_true]
  intro isPresent
  obtain ⟨root, spot, something⟩ :=
    Files.present_spot plain sound.staging_no_slash sound.staging_last isPresent
  exact something (lacks root (sound.name_in_root spot))

omit sound in
theorem Swept.file_at (swept : site.Swept files after) {location : Location}
    (free : site.name ∉ location) : after.fileAt? location = files.fileAt? location :=
  Files.file_at_of_stands (swept.outside location free)

omit sound in
theorem Swept.plain (swept : site.Swept files after) (plain : files.IsPlain)
    (unnamed : site.name ∉ files.here) : after.IsPlain := by
  constructor
  · intro location target link
    by_cases member : site.name ∈ location
    · rw [swept.lacks location member] at link
      cases link
    · rw [swept.outside location member] at link
      exact plain.noLink location target link
  · rw [swept.here, swept.outside _ unnamed, plain.standsHere]

omit sound in
theorem Swept.unchanged (swept : site.Swept files after) (lacked : before.Lacks site.name)
    {location : Location}
    (same : site.name ∉ location → files.fileAt? location = before.fileAt? location) :
    after.fileAt? location = before.fileAt? location := by
  by_cases member : site.name ∈ location
  · exact Files.file_at_of_stands (by rw [swept.lacks location member, lacked location member])
  · rw [swept.file_at member, same member]

theorem Keeps.untouched (kept : site.Keeps before files []) (lacked : before.Lacks site.name)
    (unnamed : site.name ∉ before.here) (swept : site.Swept files after) :
    site.Untouched before after := by
  rw [← kept.keeps.here] at unnamed
  refine ⟨fun location => swept.unchanged lacked fun free => kept.outside location free (by simp),
    sound.absent_of_lacks (swept.plain kept.plain unnamed) swept.lacks, swept.lacks⟩

theorem Installed.delivered (installed : site.Installed before files written)
    (fresh : ∀ file ∈ written, site.name ∉ file.path.pieces)
    (lacked : before.Lacks site.name) (unnamed : site.name ∉ before.here)
    (swept : site.Swept files after) : site.Delivered written before after := by
  rw [← installed.here] at unnamed
  have plain := swept.plain installed.plain unnamed
  obtain ⟨place, free, lead, each, others⟩ := installed.placed
  have sameOrigin : after.origin site.directory = files.origin site.directory := by
    rw [Files.origin, Files.origin, swept.here]
  have leadAfter : after.leads (after.origin site.directory) site.directory.names = some place := by
    rw [sameOrigin]
    refine Files.leads_kept (fun location isDirectory onTheWay => ?_) lead
    have freeHere : site.name ∉ location := fun member =>
      (onTheWay _ member).elim (origin_outside unnamed _) fun named =>
        sound.notInDirectory (List.mem_of_mem_filter named)
    rw [swept.outside location freeHere, isDirectory]
  obtain ⟨entries, found⟩ := Files.node_of_leads plain installed.readable leadAfter
  refine ⟨⟨place, entries, found, fun file member => ?_, fun location apart => ?_⟩,
    sound.absent_of_lacks plain swept.lacks, swept.lacks⟩
  · have freeFile : site.name ∉ place ++ file.path.pieces := by
      rw [List.mem_append, not_or]
      exact ⟨free, fresh file member⟩
    rw [swept.file_at freeFile, each file member]
  · exact swept.unchanged lacked fun free => others location free apart

end Sweeping

section Installing

variable (unnamed : site.name ∉ before.here)
include sound unnamed

theorem InProgress.installed (progress : site.InProgress before files slots [])
    (filled : Filled files slots) (taken : slots.map Slot.file = written.reverse)
    (any : written ≠ []) (nonempty : site.directory.text ≠ "")
    (readable : Files.pathFault? site.directory = none) :
    site.Installed before files written := by
  have slotOf : ∀ file ∈ written, ∃ slot ∈ slots, slot.file = file := by
    intro file member
    rw [← List.mem_reverse, ← taken] at member
    exact List.mem_map.1 member
  obtain ⟨file, isWritten⟩ := List.exists_mem_of_ne_nil written any
  obtain ⟨slot, member, rfl⟩ := slotOf file isWritten
  obtain ⟨place, lead, split⟩ := target_spot (progress.takes_slot member) nonempty
    (progress.backed slot member).target
  have places : ∀ slot ∈ slots, slot.location = place ++ slot.file.path.pieces := by
    intro other isTaken
    obtain ⟨otherPlace, otherLead, otherSplit⟩ := target_spot (progress.takes_slot isTaken) nonempty
      (progress.backed other isTaken).target
    rw [lead, Option.some_inj] at otherLead
    rw [otherSplit, otherLead]
  have outer := progress.outside_slot sound unnamed member
  refine ⟨progress.plain, progress.keeps.here, progress.confined, readable, place, ?_, lead,
    fun other isOther => ?_, fun location free apart => ?_⟩
  · intro named
    rw [split] at outer
    exact outer (List.mem_append_left _ named)
  · obtain ⟨otherSlot, isTaken, rfl⟩ := slotOf other isOther
    rw [← places otherSlot isTaken]
    exact filled otherSlot isTaken
  · refine progress.outside location free fun other isTaken => ?_
    rw [places other isTaken]
    apply apart
    rw [← List.mem_reverse, ← taken]
    exact List.mem_map_of_mem isTaken

/-- The whole staging directory moves to the spot of a directory where nothing stood. -/
structure Relocates (site : Site) (files after : Files) (root target : Location) : Prop where
  rootSpot : files.spot? site.staging = some root
  spot : files.spot? site.directory = some target
  moves : files.Moves after root target
  isDirectory : files.stands root = some .directory
  vacant : files.stands target = none
  outer : site.name ∉ target

namespace Relocates

variable {root target : Location} (relocates : site.Relocates files after root target)
include relocates

omit unnamed in
/-- Outside and not at the target, everything stands as it did. -/
theorem elsewhere {location : Location} (free : site.name ∉ location)
    (outside : ¬ target <+: location) : after.stands location = files.stands location :=
  relocates.moves.stands_outside outside fun inside =>
    free (inside.subset (sound.name_in_root relocates.rootSpot))

omit unnamed in
theorem directory {location : Location} (free : site.name ∉ location)
    (isDirectory : files.stands location = some .directory) :
    after.stands location = some .directory := by
  rw [relocates.elsewhere sound free ?_, isDirectory]
  intro inside
  rw [Files.vacant_below relocates.vacant inside] at isDirectory
  cases isDirectory

omit sound unnamed in
theorem lacks (confined : site.IsConfined files) : after.Lacks site.name := by
  have sameRoot : ∀ other, files.spot? site.staging = some other → other = root := by
    intro other spot
    rw [relocates.rootSpot, Option.some_inj] at spot
    exact spot.symm
  intro location member
  rw [relocates.moves.stands]
  by_contra something
  split_ifs at something with inTarget inRoot
  · obtain ⟨rest, rfl⟩ := inTarget
    rw [List.drop_left] at something
    have inRest := (List.mem_append.1 member).resolve_left relocates.outer
    obtain ⟨other, below, otherRoot, free, split⟩ :=
      confined (root ++ rest) something (List.mem_append_right _ inRest)
    rw [sameRoot other otherRoot, List.append_cancel_left_eq] at split
    exact free (split ▸ inRest)
  · exact something rfl
  · obtain ⟨other, rest, otherRoot, _, rfl⟩ := confined location something member
    exact inRoot (sameRoot other otherRoot ▸ List.prefix_append _ rest)

theorem plain (plain : files.IsPlain) (same : files.here = before.here) : after.IsPlain := by
  refine ⟨fun _ _ => relocates.moves.no_link plain, ?_⟩
  rw [relocates.moves.here]
  exact relocates.directory sound (same ▸ unnamed) plain.standsHere

theorem leads (same : files.here = before.here) :
    after.leads (after.origin site.directory) site.directory.names = some target := by
  have unnamedNow : site.name ∉ files.here := same ▸ unnamed
  have sameOrigin : after.origin site.directory = files.origin site.directory := by
    rw [Files.origin, Files.origin, relocates.moves.here]
  obtain ⟨above, name, readable, last, short, lead, split⟩ := Files.spot_iff.1 relocates.spot
  have leadAfter : after.leads (after.origin site.directory)
      (Files.lastName site.directory).directory = some above := by
    rw [sameOrigin]
    refine Files.leads_kept (fun location isDirectory onTheWay => ?_) lead
    refine relocates.directory sound (fun member => ?_) isDirectory
    rcases onTheWay _ member with inOrigin | named
    · exact origin_outside unnamedNow _ inOrigin
    · rw [Files.last_name_directory] at named
      exact sound.notInDirectory (List.mem_of_mem_filter (List.dropLast_subset _ named))
  have isDirectory : after.stands target = some .directory := by
    rw [← List.append_nil target, relocates.moves.arrives, List.append_nil, relocates.isDirectory]
  exact Files.leads_of_spot
    (Files.spot_iff.2 ⟨above, name, readable, last, short, leadAfter, split⟩) isDirectory

end Relocates

omit sound unnamed in
theorem Holds.staged (holds : site.Holds files written) {root : Location}
    (rootSpot : files.spot? site.staging = some root) {file : ProgramFile}
    (member : file ∈ written) :
    files.fileAt? (root ++ file.path.pieces) = some (file.contents.toUTF8, false) := by
  obtain ⟨_, spot, contents⟩ := holds.each file member
  rw [rootSpot, Option.some_inj] at spot
  rw [spot, contents]

/-- With files staged, a move of the staging directory to an absent directory relocates it. -/
theorem Holds.relocates (kept : site.Keeps before files []) (holds : site.Holds files written)
    (any : written ≠ []) (absent : files.isPresent site.directory = false)
    (renames : Files.Renames site.staging site.directory files after) :
    ∃ root target, site.Relocates files after root target := by
  obtain ⟨root, target, rootSpot, spot, moves⟩ := renames
  have outer := spot_outside (kept.keeps.here ▸ unnamed) sound.notInDirectory spot
  have apart : root ≠ target := fun same => outer (same ▸ sound.name_in_root rootSpot)
  have isDirectory : files.stands root = some .directory := by
    obtain ⟨file, member⟩ := List.exists_mem_of_ne_nil written any
    refine Files.directory_above file.path.pieces_ne_nil ?_
    rw [Files.file_at_iff.1 (holds.staged rootSpot member)]
    exact Option.some_ne_none _
  exact ⟨root, target, rootSpot, spot, moves, isDirectory,
    Files.vacant_of_absent kept.plain absent spot moves isDirectory apart, outer⟩

theorem Holds.installed (kept : site.Keeps before files []) (holds : site.Holds files written)
    {root target : Location} (relocates : site.Relocates files after root target) :
    site.Installed before after written := by
  have same := kept.keeps.here
  obtain ⟨_, _, readable, _⟩ := Files.spot_iff.1 relocates.spot
  refine ⟨relocates.plain sound unnamed kept.plain same, by rw [relocates.moves.here, same],
    confined_of_lacks (relocates.lacks kept.confined), readable, target, relocates.outer,
    relocates.leads sound unnamed same, fun file member => ?_, fun location free others => ?_⟩
  · rw [Files.file_at_of_stands (relocates.moves.arrives file.path.pieces),
      holds.staged relocates.rootSpot member]
  · rw [← kept.outside location free (by simp)]
    by_cases inside : target <+: location
    · obtain ⟨rest, rfl⟩ := inside
      have nothing := Files.vacant_below relocates.vacant (List.prefix_append target rest)
      rw [Files.file_at_vacant nothing, Files.file_at_of_stands (relocates.moves.arrives rest)]
      by_contra something
      obtain ⟨file, member, _, rootSpot, split⟩ := holds.only _
        (List.mem_append_left rest (sound.name_in_root relocates.rootSpot)) something
      rw [relocates.rootSpot, Option.some_inj] at rootSpot
      rw [← rootSpot, List.append_cancel_left_eq] at split
      exact others file member (by rw [split])
    · exact Files.file_at_of_stands (relocates.elsewhere sound free inside)

end Installing

section Delivering

variable (unnamed : site.name ∉ before.here) {plan : Nat → Option Mishap} {watched : Watched}
include sound unnamed

/-- Either all files are installed, or every file outside is as it was. -/
theorem install_ends (takes : ∀ file ∈ written, site.Takes file)
    (apart : written.Pairwise fun first second => first.path.pieces ≠ second.path.pieces)
    (any : written ≠ []) (kept : site.Keeps before watched.files [])
    (lacks : watched.files.Lacks site.name) :
    (install (site.calls plan) site.staging site.directory written).Ends watched
      (fun _ after => site.Installed before after.files written)
      fun after => site.Keeps before after.files [] := by
  rw [install]
  rw [← List.nil_append written] at apart
  refine (stage_ends sound unnamed takes apart kept (holds_nothing lacks)).bind
    fun _ staged both => ?_
  obtain ⟨kept, holds⟩ := both
  refine Attempt.ends_get_bind ?_
  cases present : staged.files.isPresent site.directory with
  | true =>
      have isPresent : (site.calls plan).isPresent staged site.directory = true := present
      rw [isPresent, if_pos rfl]
      have readable : Files.pathFault? site.directory = none :=
        Files.readable_of_present present
      have nonempty := Files.text_ne_of_readable readable
      have progress : site.InProgress before staged.files [] written :=
        ⟨kept, takes, apart, holds.each⟩
      refine (replace_all_ends sound nonempty unnamed progress (by simp [Filled])).weaken ?_
        fun _ => id
      rintro _ after ⟨taken, files, progress, filled⟩
      rw [List.map_nil, List.append_nil] at files
      exact progress.installed sound unnamed filled files any nonempty readable
  | false =>
      have isAbsent : (site.calls plan).isPresent staged site.directory = false := present
      rw [isAbsent, if_neg Bool.false_ne_true]
      obtain ⟨file, member⟩ := List.exists_mem_of_ne_nil written any
      obtain ⟨root, spot, _⟩ := holds.each file member
      refine ((FileCalls.unreliable_rename kept.plain fun _ =>
        Files.short_of_spot spot).weaken ?_ ?_).mapFailure
      · intro _ after renames
        obtain ⟨_, _, relocates⟩ := holds.relocates sound unnamed kept any present renames
        exact holds.installed sound unnamed kept relocates
      · intro after same
        rw [same]
        exact kept

theorem make_parent_ends (kept : site.Keeps before watched.files [])
    (lacks : watched.files.Lacks site.name) :
    (reportedAt site.parent ((site.calls plan).createDirectories site.parent)).Ends watched
      (fun _ after => site.Keeps before after.files [] ∧ after.files.Lacks site.name)
      fun after => site.Keeps before after.files [] ∧ after.files.Lacks site.name := by
  refine Attempt.Ends.mapFailure (FileCalls.unreliable_create_directories
    (fun files (both : site.Keeps before files [] ∧ files.Lacks site.name) => both.1.plain)
    (fun above inFront files after both makes => ?_) ⟨kept, lacks⟩)
  obtain ⟨kept, lacks⟩ := both
  have free : site.name ∉ above.pieces := fun member => sound.notInParent (inFront.subset member)
  refine ⟨kept.makes sound unnamed (.inl free) makes, fun location member => ?_⟩
  obtain ⟨place, spot, _, change⟩ := makes
  have unnamedNow : site.name ∉ files.here := by
    rw [kept.keeps.here]
    exact unnamed
  have apart : location ≠ place := by
    rintro rfl
    exact spot_outside unnamedNow free spot member
  rw [change.stands_elsewhere apart, lacks location member]

omit unnamed in
theorem sweep_ends (plain : watched.files.IsPlain) (confined : site.IsConfined watched.files) :
    (((site.calls plan).removeTree site.staging).ignoringFailure :
        Step Watched Unit).Ends watched
      (fun _ after => site.Swept watched.files after.files) fun _ => False :=
  ((FileCalls.unreliable_remove_tree plain sound.staging_no_slash sound.staging_last).weaken
    (fun _ _ => confined.sweeps sound) fun _ => confined.sweeps sound).ignoringFailure

end Delivering

end Site

end Delivery

end PipelineWaves
