import PipelineWaves.Proofs.Recipe.Overlay
import PipelineWaves.Proofs.Recipe.Reach

/-!
# Complete copies

A copy that succeeds between places that lie apart lays the source over the destination:
file by file for the entries of a directory, which are copied one after the other into parts
that do not lie in one another. What is not there is not copied, and nothing changes.
-/

set_option autoImplicit false

namespace PipelineWaves

namespace Artifact

open Files (Paved)

/-- The way to the destination has been made, and then the source was laid over it. -/
def Lays (source destination : FilePath) (files : Files) (copied : Nat) (after : Files) : Prop :=
  ∃ made, Paved destination files made ∧
    Overlaid (files.placeOf source) (files.placeOf destination) .univ made after copied ∧
    ((files.fileAt? (files.placeOf source)).isSome →
      made.stands (files.placeOf destination) = files.stands (files.placeOf destination))

section Files

variable {files : Files} {source destination : FilePath}

theorem target_lands {location : Location} {node : FileNode} {middle : Files}
    (plain : files.IsPlain) (found : files.node? source = .ok (location, node))
    (other : node.isDirectory = false)
    (paved : Paved (targetOf files source destination) files middle)
    (free : middle.stands (files.placeOf (targetOf files source destination)) ≠ some .directory) :
    Paved destination files middle ∧
      middle.stands (files.placeOf destination) = files.stands (files.placeOf destination) ∧
      landing middle (files.placeOf source) (files.placeOf destination) [] =
        files.placeOf (targetOf files source destination) := by
  obtain ⟨rfl, _⟩ := Files.node_place plain found
  obtain ⟨name, isName, last, target⟩ :=
    @target_of_file files source destination _ _ plain found other
  rw [target] at paved free ⊢
  rw [landing, List.append_nil, List.append_nil, last, Option.toList_some]
  cases isDirectory : files.isDirectory destination with
  | true =>
      rw [isDirectory, if_pos rfl] at paved free
      rw [if_pos rfl]
      rw [Files.place_of_join files destination isName] at free ⊢
      have there := (Files.is_directory_through plain isDirectory).directory
      refine ⟨⟨paved.here, paved.kept, fun location vacant something => ?_⟩,
        paved.kept _ (by simp [there]), if_pos (paved.directory there)⟩
      obtain ⟨made, passes⟩ := paved.made location vacant something
      -- The place of the file itself has not been made a directory.
      rcases Files.passes_join isName passes with passes | same
      · exact ⟨made, passes⟩
      · exact absurd (same ▸ made) free
  | false =>
      rw [isDirectory, if_neg Bool.false_ne_true] at paved free
      rw [if_neg Bool.false_ne_true]
      exact ⟨paved, paved.unchanged fun _ => free, if_neg free⟩

theorem copy_file_lays {location : Location} {node : FileNode} (ordinary : files.IsOrdinary)
    (found : files.node? source = .ok (location, node)) (other : node.isDirectory = false)
    (apart : Apart (files.placeOf source) (files.placeOf destination)) :
    (copyFile source destination).Ends files (Lays source destination files) (fun _ => True) := by
  refine (copy_file_ends ordinary source destination).weaken ?_ (fun _ _ => trivial)
  rintro _ after ⟨rfl, middle, middleOrdinary, toTarget, copied⟩
  obtain ⟨contents, executable, isFile, _, change⟩ :=
    Files.copy_file_ok middleOrdinary.toIsPlain copied
  rw [Files.place_of_here toTarget.here] at isFile
  rw [Files.place_of_here toTarget.here, Files.place_of_here toTarget.here] at change
  obtain ⟨paved, notMade, lands⟩ :=
    target_lands ordinary.toIsPlain found other toTarget change.free
  rw [← lands] at change
  have apartFromFile : files.placeOf source ≠
      landing middle (files.placeOf source) (files.placeOf destination) [] := by
    intro same
    have inside := landing_below middle (files.placeOf source) (files.placeOf destination) []
    rw [← same, List.append_nil] at inside
    exact apart.2 inside
  rw [if_neg apartFromFile] at change
  exact ⟨middle, paved, .single isFile change, fun _ => notMade⟩

end Files

def below (names : List String) : Set Location := {rest | ∃ name ∈ names, [name] <+: rest}

theorem below_cons (name : String) (rest : List String) :
    below (name :: rest) = List.cons name '' .univ ∪ below rest := by
  ext location
  constructor
  · rintro ⟨first, member, inner, rfl⟩
    rcases List.mem_cons.1 member with rfl | inRest
    · exact .inl ⟨inner, trivial, rfl⟩
    · exact .inr ⟨first, inRest, List.prefix_append _ _⟩
  · rintro (⟨inner, _, rfl⟩ | ⟨first, inRest, inside⟩)
    · exact ⟨name, List.mem_cons_self, List.prefix_append [name] inner⟩
    · exact ⟨first, List.mem_cons_of_mem _ inRest, inside⟩

theorem below_apart {name : String} {names : List String} (notIn : name ∉ names) :
    ∀ rest ∈ List.cons name '' .univ, ∀ later ∈ below names, Apart rest later := by
  rintro _ ⟨rest, _, rfl⟩ _ ⟨other, member, later, rfl⟩
  have differs : name ≠ other := fun same => notIn (same ▸ member)
  exact ⟨fun inside => differs (List.cons_prefix_cons.1 inside).1,
    fun inside => differs (List.cons_prefix_cons.1 inside).1.symm⟩

section Entries

variable {files : Files} {source destination : FilePath}

theorem entries_overlay {holds : Files → Prop} {copy : FilePath → FilePath → Copying Nat}
    {names : List String} {origin target : Location} (apart : Apart origin target)
    (each : ∀ name ∈ names, ∀ files, holds files →
      (copy (source.join ⟨name⟩) (destination.join ⟨name⟩)).Ends files
        (fun copied after => holds after ∧
          Overlaid (origin ++ [name]) (target ++ [name]) .univ files after copied)
        (fun _ => True))
    (distinct : names.Nodup) (before : holds files) :
    (copyEntries copy source destination names).Ends files
      (fun copied after => holds after ∧ Overlaid origin target (below names) files after copied)
      (fun _ => True) := by
  induction names generalizing files with
  | nil =>
      have nothing : below [] = ∅ := by simp [below]
      rw [nothing]
      exact Attempt.ends_pure ⟨before, .nothing origin target files⟩
  | cons name rest induction =>
      rw [List.nodup_cons] at distinct
      rw [copyEntries, below_cons]
      refine (each name List.mem_cons_self files before).bind ?_
      rintro first middle ⟨middleHolds, overlaid⟩
      refine (induction (fun other member => each other (List.mem_cons_of_mem _ member))
        distinct.2 middleHolds).bind ?_
      rintro others after ⟨afterHolds, second⟩
      exact Attempt.ends_pure
        ⟨afterHolds, overlaid.entry.join second apart (below_apart distinct.1)⟩

theorem Lays.entry {name : String} {copied : Nat} {after : Files} (isName : IsFileName name)
    (apart : Apart (files.placeOf source) (files.placeOf destination))
    (through : files.LeadsThrough destination)
    (lays : Lays (source.join ⟨name⟩) (destination.join ⟨name⟩) files copied after) :
    Overlaid (files.placeOf source ++ [name]) (files.placeOf destination ++ [name]) .univ files
      after copied := by
  obtain ⟨made, paved, overlaid, notMade⟩ := lays
  rw [Files.place_of_join _ _ isName, Files.place_of_join _ _ isName] at overlaid notMade
  exact overlaid.before_made (apart.entry name) (fun _ => paved.elsewhere isName through)
    (paved.file_at _) notMade

theorem directory_lays {depth : Nat} {made : Files} {names : List String}
    (induction : ∀ {files : Files} {source destination : FilePath}, files.IsOrdinary →
      Apart (files.placeOf source) (files.placeOf destination) →
      (copyWithin depth source destination).Ends files (Lays source destination files)
        (fun _ => True))
    (apart : Apart (files.placeOf source) (files.placeOf destination))
    (ordinary : made.IsOrdinary) (paved : Paved destination files made)
    (through : made.LeadsThrough destination) (listed : made.names source = .ok names) :
    (copyEntries (copyWithin depth) source destination names).Ends made
      (Lays source destination files) (fun _ => True) := by
  obtain ⟨isDirectory, distinct, known⟩ := Files.names_ok ordinary.toIsPlain listed
  rw [Files.place_of_here paved.here] at isDirectory known
  have there := through.directory
  rw [Files.place_of_here paved.here] at there
  have noFile : made.fileAt? (files.placeOf source) = none :=
    Files.file_at_none (by simp [isDirectory])
  have vacant : ∀ rest, rest ≠ [] → rest ∉ below names →
      made.stands (files.placeOf source ++ rest) = none := by
    rintro (_ | ⟨name, rest⟩) inner notBelow
    · exact absurd rfl inner
    · have unknown : made.stands (files.placeOf source ++ [name]) = none := by
        by_contra something
        exact notBelow ⟨name, (known name).2 something, List.prefix_append [name] rest⟩
      rw [List.append_cons]
      exact Files.vacant_below unknown (List.prefix_append _ rest)
  have entries := @entries_overlay made source destination
    (fun reached => reached.IsOrdinary ∧ made.Keeps reached) (copyWithin depth) names _ _ apart
    ?_ distinct ⟨ordinary, .refl made⟩
  · refine entries.weaken ?_ (fun _ _ => trivial)
    rintro copied after ⟨⟨_, keeps⟩, overlaid⟩
    refine ⟨made, paved, overlaid.widen (Set.subset_univ _) (fun rest _ notBelow => ?_)
      (fun rest _ notBelow stands => ?_), fun isFile => ?_⟩
    · by_cases top : rest = []
      · rw [top, List.append_nil, noFile]
      · exact Files.file_at_vacant (vacant rest top notBelow)
    · by_cases top : rest = []
      · rw [top, List.append_nil]
        exact keeps.directory _ there
      · rw [vacant rest top notBelow] at stands
        cases stands
    · rw [← paved.file_at, noFile] at isFile
      cases isFile
  · rintro name member reached ⟨reachedOrdinary, keeps⟩
    have isName := names_named ordinary listed name member
    have here := keeps.here.trans paved.here
    have placesApart : Apart (reached.placeOf source) (reached.placeOf destination) := by
      rwa [Files.place_of_here here, Files.place_of_here here]
    have entriesApart := placesApart.entry name
    rw [← Files.place_of_join _ _ isName, ← Files.place_of_join _ _ isName] at entriesApart
    have lays := induction reachedOrdinary entriesApart
    refine (lays.and (copy_within_reaches depth reachedOrdinary)).weaken ?_ (fun _ _ => trivial)
    rintro copied after ⟨laid, reaches⟩
    have overlaid := laid.entry isName placesApart (through.kept keeps)
    rw [Files.place_of_here here, Files.place_of_here here] at overlaid
    exact ⟨⟨reaches.ordinary, keeps.trans reaches.keeps⟩, overlaid⟩

theorem copy_within_lays (depth : Nat) (ordinary : files.IsOrdinary)
    (apart : Apart (files.placeOf source) (files.placeOf destination)) :
    (copyWithin depth source destination).Ends files (Lays source destination files)
      (fun _ => True) := by
  induction depth generalizing files source destination with
  | zero => exact Attempt.ends_throw trivial
  | succ depth induction =>
      rw [copyWithin]
      refine ((reported_reading source _).weaken (fun _ _ => id) fun _ _ => trivial).bind ?_
      rintro ⟨location, node⟩ after ⟨rfl, found⟩
      dsimp only
      split
      · refine ((reported_makes ordinary destination).weaken (fun _ _ => id)
          fun _ _ => trivial).bind ?_
        rintro _ made ⟨madeOrdinary, paved, through⟩
        refine ((reported_reading source _).weaken (fun _ _ => id) fun _ _ => trivial).bind ?_
        rintro names _ ⟨rfl, listed⟩
        exact directory_lays induction apart madeOrdinary paved through listed
      · rename_i other
        exact copy_file_lays ordinary found (by simpa using other) apart

end Entries

/-- A file of the source may land at its place in the destination, or, where a directory was
already, in that directory. A destination with double dots may lead through a directory below
itself, which is there when the files are copied although it was not before. -/
def MayLand (source destination : FilePath) (files : Files) (rest location : Location) : Prop :=
  location = files.placeOf destination ++ rest ∧
      files.stands (files.placeOf destination ++ rest) ≠ some .directory ∨
    location = files.placeOf destination ++ rest ++
        (files.placeOf source ++ rest).getLast?.toList ∧
      (files.stands (files.placeOf destination ++ rest) = some .directory ∨
        rest ≠ [] ∧ ".." ∈ destination.names ∧
          files.Passes destination (files.placeOf destination ++ rest))

/-- Every file of the source has a place of its own at the destination, every directory is there
as well, and neither the source nor any other file has changed. -/
structure IsCopy (source destination : FilePath) (files : Files) (copied : Nat) (after : Files) :
    Prop where
  counted : (filesIn files (files.placeOf source) .univ).encard = copied
  landed : ∃ place : Location → Location,
    Set.InjOn place (filesIn files (files.placeOf source) .univ) ∧
    (∀ rest ∈ filesIn files (files.placeOf source) .univ,
      MayLand source destination files rest (place rest) ∧
        after.fileAt? (place rest) = files.fileAt? (files.placeOf source ++ rest)) ∧
    ∀ location, (∀ rest ∈ filesIn files (files.placeOf source) .univ, location ≠ place rest) →
      after.fileAt? location = files.fileAt? location
  directories : ∀ rest, files.stands (files.placeOf source ++ rest) = some .directory →
    after.stands (files.placeOf destination ++ rest) = some .directory
  source : ∀ rest, files.stands (files.placeOf source ++ rest) ≠ none →
    after.stands (files.placeOf source ++ rest) = files.stands (files.placeOf source ++ rest)

section Whole

variable {files after : Files} {source destination : FilePath} {copied : Nat}

theorem may_land_of_landing {made : Files} (paved : Paved destination files made)
    (notMade : (files.fileAt? (files.placeOf source)).isSome →
      made.stands (files.placeOf destination) = files.stands (files.placeOf destination))
    {rest : Location} (isFile : (files.fileAt? (files.placeOf source ++ rest)).isSome) :
    MayLand source destination files rest
      (landing made (files.placeOf source) (files.placeOf destination) rest) := by
  rw [landing]
  split
  · rename_i isDirectory
    refine .inr ⟨rfl, ?_⟩
    by_cases vacant : files.stands (files.placeOf destination ++ rest) = none
    · have passes := (paved.made _ vacant (by simp [isDirectory])).2
      have inner : rest ≠ [] := by
        rintro rfl
        rw [List.append_nil] at isFile isDirectory vacant
        rw [notMade isFile, vacant] at isDirectory
        cases isDirectory
      refine .inr ⟨inner, ?_, passes⟩
      by_contra noDots
      have short := (Files.passes_above noDots passes).length_le
      rw [List.length_append] at short
      exact inner (List.eq_nil_of_length_eq_zero (by omega))
    · exact .inl ((paved.kept _ vacant).symm.trans isDirectory)
  · rename_i notDirectory
    exact .inl ⟨rfl, fun isDirectory => notDirectory (paved.directory isDirectory)⟩

theorem Lays.is_copy (apart : Apart (files.placeOf source) (files.placeOf destination))
    (lays : Lays source destination files copied after) :
    IsCopy source destination files copied after := by
  obtain ⟨made, paved, overlaid, notMade⟩ := lays
  have sameFiles : filesIn made (files.placeOf source) .univ =
      filesIn files (files.placeOf source) .univ := by
    ext rest
    rw [mem_files_in, mem_files_in, paved.file_at]
  have keeps := overlaid.source apart
  obtain ⟨counted, distinct, landed, directories, others, _⟩ := overlaid
  rw [sameFiles] at counted distinct landed others
  refine ⟨counted, ⟨_, distinct, fun rest member => ⟨?_, ?_⟩, fun location free => ?_⟩,
    fun rest isDirectory => directories rest trivial (paved.directory isDirectory),
    fun rest something => ?_⟩
  · exact may_land_of_landing paved notMade member.2
  · rw [landed rest member, paved.file_at]
  · rw [others location free, paved.file_at]
  · rw [keeps, paved.kept _ something]

/-- A copy between places that lie apart is complete if it succeeds; where there is no source,
it fails and nothing changes. -/
theorem copy_is_complete (ordinary : files.IsOrdinary) (source destination : FilePath) :
    (Apart (files.placeOf source) (files.placeOf destination) → ∀ copied,
      ((copy source destination).outcome files).1 = .ok copied →
        IsCopy source destination files copied ((copy source destination).outcome files).2) ∧
    (files.isPresent source = false → ∃ fault : FileFault,
      (copy source destination).outcome files =
        (.error (.filesystem source fault.text), files)) := by
  constructor
  · intro apart copied succeeds
    have lays := (copy_within_lays (Walk.longestPath + 1) ordinary apart).succeeds copied
      ((copy source destination).outcome files).2 (by rw [← succeeds, copy])
    exact lays.is_copy apart
  · intro missing
    rw [Files.isPresent] at missing
    split at missing
    · cases missing
    · rename_i fault lost
      exact ⟨fault, copy_within_lost lost Walk.longestPath⟩

def filesToArchive : Files :=
  ⟨.directory [
    ("build", .directory [
      ("app", .ofText "new" true), ("docs", .directory [("index", .ofText "text" false)])]),
    ("archive", .directory [
      ("app", .directory [("notes", .ofText "kept" false)]), ("index", .ofText "old" false)])], []⟩

theorem files_to_archive_ordinary : filesToArchive.IsOrdinary := by
  refine .of_tidy (Files.tidy_entry (by decide) ?build
    (Files.tidy_entry (by decide) ?archive Files.tidy_empty)) rfl
  case build =>
    exact Files.tidy_entry (by decide) (Files.tidy_file _ _) (Files.tidy_entry (by decide)
      (Files.tidy_entry (by decide) (Files.tidy_file _ _) Files.tidy_empty) Files.tidy_empty)
  case archive =>
    exact Files.tidy_entry (by decide)
      (Files.tidy_entry (by decide) (Files.tidy_file _ _) Files.tidy_empty)
      (Files.tidy_entry (by decide) (Files.tidy_file _ _) Files.tidy_empty)

theorem build_archived :
    filesToArchive.IsOrdinary ∧
    Apart (filesToArchive.placeOf ⟨"build"⟩) (filesToArchive.placeOf ⟨"archive"⟩) ∧
    ((copy ⟨"build"⟩ ⟨"archive"⟩).outcome filesToArchive).1 = .ok 2 ∧
    IsCopy ⟨"build"⟩ ⟨"archive"⟩ filesToArchive 2
      ((copy ⟨"build"⟩ ⟨"archive"⟩).outcome filesToArchive).2 ∧
    ((copy ⟨"build"⟩ ⟨"archive"⟩).outcome filesToArchive).2.fileAt? ["archive", "app", "app"] =
      some ("new".toUTF8, true) ∧
    filesToArchive.isPresent ⟨"tests"⟩ = false ∧
    ∃ fault : FileFault, (copy ⟨"tests"⟩ ⟨"archive"⟩).outcome filesToArchive =
      (.error (.filesystem ⟨"tests"⟩ fault.text), filesToArchive) := by
  have apart : Apart (filesToArchive.placeOf ⟨"build"⟩) (filesToArchive.placeOf ⟨"archive"⟩) :=
    ⟨by decide, by decide⟩
  have copied : ((copy ⟨"build"⟩ ⟨"archive"⟩).outcome filesToArchive).1 = .ok 2 :=
    except_ok_of_to_option (by decide +kernel)
  have missing : filesToArchive.isPresent ⟨"tests"⟩ = false := by decide +kernel
  have isCopy := (copy_is_complete files_to_archive_ordinary ⟨"build"⟩ ⟨"archive"⟩).1 apart 2 copied
  have refused := (copy_is_complete files_to_archive_ordinary ⟨"tests"⟩ ⟨"archive"⟩).2 missing
  exact ⟨files_to_archive_ordinary, apart, copied, isCopy, by decide +kernel, missing, refused⟩

def filesToPublish : Files := ⟨.directory [("src", .directory [("a", .ofText "new" false)])], []⟩

theorem files_to_publish_ordinary : filesToPublish.IsOrdinary :=
  .of_tidy (Files.tidy_entry (by decide)
    (Files.tidy_entry (by decide) (Files.tidy_file _ _) Files.tidy_empty) Files.tidy_empty) rfl

/-- The way to `out/a/..` leads through `out/a`, so that the file `a` finds a directory in its
place and lands in it, although nothing was there before. -/
theorem way_through_target_is_landed_in :
    filesToPublish.IsOrdinary ∧
    Apart (filesToPublish.placeOf ⟨"src"⟩) (filesToPublish.placeOf ⟨"out/a/.."⟩) ∧
    filesToPublish.placeOf ⟨"out/a/.."⟩ = ["out"] ∧
    ((copy ⟨"src"⟩ ⟨"out/a/.."⟩).outcome filesToPublish).1 = .ok 1 ∧
    filesToPublish.fileAt? ["src", "a"] = some ("new".toUTF8, false) ∧
    filesToPublish.stands ["out", "a"] = none ∧
    ((copy ⟨"src"⟩ ⟨"out/a/.."⟩).outcome filesToPublish).2.fileAt? ["out", "a"] = none ∧
    ((copy ⟨"src"⟩ ⟨"out/a/.."⟩).outcome filesToPublish).2.fileAt? ["out", "a", "a"] =
      some ("new".toUTF8, false) := by
  have copied : ((copy ⟨"src"⟩ ⟨"out/a/.."⟩).outcome filesToPublish).1 = .ok 1 :=
    except_ok_of_to_option (by decide +kernel)
  exact ⟨files_to_publish_ordinary, ⟨by decide, by decide⟩, by decide, copied, rfl, rfl,
    by decide +kernel, by decide +kernel⟩

end Whole

end Artifact

end PipelineWaves
