import PipelineWaves.Proofs.Files.Ordinary
import PipelineWaves.Recipe.Artifact

/-!
# How far a copy reaches

A copy ends by itself: the paths of the source grow from level to level, and the longest
one that the system allows is reached before the bound of the recursion. However it ends,
regular files change only where files of the source come to stand, and none goes away. So
a source that lies outside of its destination is safe, and one that is copied onto itself
is not.
-/

set_option autoImplicit false

namespace PipelineWaves

namespace Artifact

open Files (Paved)

section Calls

variable {files : Files}

theorem reported_makes (ordinary : files.IsOrdinary) (path : FilePath) :
    (reportedAt path (Files.createDirectories path)).Ends files
      (fun _ after => after.IsOrdinary ∧ Paved path files after ∧ after.LeadsThrough path)
      (fun after => after.IsOrdinary ∧ Paved path files after) := by
  apply Attempt.Ends.mapFailure
  have paves := Files.create_directories_paves ordinary path
  constructor
  · intro _ after made
    rw [Files.afterCall, made] at paves
    exact ⟨paves.1, paves.2, Files.create_directories_ok ordinary.toIsPlain made⟩
  · intro _ after refused
    rwa [Files.afterCall, refused] at paves

theorem reported_reading {Result : Type} (path : FilePath)
    (look : Files → Except FileFault Result) :
    (reportedAt path (Attempt.reading look)).Ends files
      (fun result after => after = files ∧ look files = .ok result)
      (fun after => after = files) := by
  apply Attempt.Ends.mapFailure
  constructor
  · intro result after read
    obtain ⟨looked, same⟩ := Prod.mk.inj read
    exact ⟨same.symm, looked⟩
  · intro failure after read
    exact (Prod.mk.inj read).2.symm

end Calls

section Files

variable {files : Files} {source destination : FilePath} {location : Location} {node : FileNode}

theorem target_of_file (plain : files.IsPlain) (found : files.node? source = .ok (location, node))
    (other : node.isDirectory = false) :
    ∃ name, IsFileName name ∧ location.getLast? = some name ∧
      targetOf files source destination =
        if files.isDirectory destination then destination.join ⟨name⟩ else destination := by
  obtain ⟨name, last, _, isLast⟩ := Files.last_of_node plain found other
  have ownName : source.name? = some name :=
    FilePath.name_of_last (Files.last_name_some.1 last).1 (Files.last_name_some.1 last).2
  have isName := Files.last_is_file_name (Files.sound_of_node found) last
  exact ⟨name, isName, isLast, by rw [targetOf, ownName]⟩

theorem copy_file_ends (ordinary : files.IsOrdinary) (source destination : FilePath) :
    (copyFile source destination).Ends files
      (fun copied after => copied = 1 ∧ ∃ middle, middle.IsOrdinary ∧
        Paved (targetOf files source destination) files middle ∧
        (Files.copyFile source (targetOf files source destination)).outcome middle =
          (.ok (), after))
      (fun after => after.IsOrdinary ∧ Paved (targetOf files source destination) files after) := by
  rw [copyFile]
  apply Attempt.ends_get_bind
  dsimp only
  generalize targetOf files source destination = target
  have copies : ∀ middle, middle.IsOrdinary ∧ Paved target files middle →
      (do
        reportedAt target (Files.copyFile source target)
        return 1 : Copying Nat).Ends middle
      (fun copied after => copied = 1 ∧ ∃ middle, middle.IsOrdinary ∧ Paved target files middle ∧
        (Files.copyFile source target).outcome middle = (.ok (), after))
      (fun after => after.IsOrdinary ∧ Paved target files after) := by
    intro middle ready
    have copying : (reportedAt target (Files.copyFile source target)).Ends middle
        (fun _ after => (Files.copyFile source target).outcome middle = (.ok (), after))
        (fun after => after = middle) :=
      Attempt.Ends.mapFailure
        ⟨fun _ _ copied => copied, fun _ _ refused => Files.changing_error refused⟩
    refine (copying.weaken (fun _ _ => id) (fun after same => same ▸ ready)).bind ?_
    intro _ after copied
    exact Attempt.ends_pure ⟨rfl, middle, ready.1, ready.2, copied⟩
  split
  · rename_i parent above
    have made := (reported_makes ordinary parent).weaken
      (fun _ after holds => And.intro holds.1 (holds.2.1.of_parent ordinary.toIsPlain above))
      (fun after holds => And.intro holds.1 (holds.2.of_parent ordinary.toIsPlain above))
    exact made.bind fun _ middle ready => copies middle ready
  · exact copies files ⟨ordinary, .refl target files⟩

end Files

/-- Where the file at a location of the source may come to stand. -/
def IsTarget (origin target rest location : Location) : Prop :=
  location = target ++ rest ∨ location = target ++ rest ++ (origin ++ rest).getLast?.toList

/-- Regular files change only where files of the source come to stand, and none goes away. -/
structure Reaches (origin target : Location) (files after : Files) : Prop where
  ordinary : after.IsOrdinary
  keeps : files.Keeps after
  lasting : ∀ location, (files.fileAt? location).isSome → (after.fileAt? location).isSome
  changed : ∀ location, after.fileAt? location ≠ files.fileAt? location →
    ∃ rest, (after.fileAt? (origin ++ rest)).isSome ∧ IsTarget origin target rest location

namespace Reaches

variable {origin target : Location} {files middle after : Files}

theorem paved {path : FilePath} (ordinary : after.IsOrdinary) (paved : Paved path files after) :
    Reaches origin target files after :=
  ⟨ordinary, paved.keeps, fun location isFile => by rwa [paved.file_at],
    fun location differs => absurd (paved.file_at location) differs⟩

theorem refl (ordinary : files.IsOrdinary) : Reaches origin target files files :=
  ⟨ordinary, .refl files, fun _ => id, fun _ differs => absurd rfl differs⟩

theorem trans (first : Reaches origin target files middle)
    (second : Reaches origin target middle after) : Reaches origin target files after := by
  refine ⟨second.ordinary, first.keeps.trans second.keeps,
    fun location isFile => second.lasting location (first.lasting location isFile),
    fun location differs => ?_⟩
  by_cases later : after.fileAt? location = middle.fileAt? location
  · obtain ⟨rest, isFile, isTarget⟩ := first.changed location (later ▸ differs)
    exact ⟨rest, second.lasting _ isFile, isTarget⟩
  · exact second.changed location later

theorem entry {name : String} (inner : Reaches (origin ++ [name]) (target ++ [name]) files after) :
    Reaches origin target files after := by
  refine ⟨inner.ordinary, inner.keeps, inner.lasting, fun location differs => ?_⟩
  obtain ⟨rest, isFile, isTarget⟩ := inner.changed location differs
  refine ⟨name :: rest, by rwa [List.append_cons], ?_⟩
  rwa [IsTarget, List.append_cons target, List.append_cons origin]

theorem outside (reaches : Reaches origin target files after) {location : Location}
    (apart : ¬ target <+: location) : after.fileAt? location = files.fileAt? location := by
  by_contra differs
  obtain ⟨rest, _, same | same⟩ := reaches.changed location differs
  · exact apart (same ▸ List.prefix_append target rest)
  · exact apart (same ▸ (List.prefix_append target rest).trans (List.prefix_append _ _))

end Reaches

section Copies

variable {files : Files} {source destination : FilePath}

theorem copy_file_reaches {location : Location} {node : FileNode} (ordinary : files.IsOrdinary)
    (found : files.node? source = .ok (location, node)) (other : node.isDirectory = false) :
    (copyFile source destination).Ends files
      (fun _ => Reaches (files.placeOf source) (files.placeOf destination) files)
      (Reaches (files.placeOf source) (files.placeOf destination) files) := by
  refine (copy_file_ends ordinary source destination).weaken ?_
    (fun after failed => .paved failed.1 failed.2)
  rintro _ after ⟨_, middle, middleOrdinary, paved, copied⟩
  obtain ⟨rfl, _⟩ := Files.node_place ordinary.toIsPlain found
  obtain ⟨name, isName, last, target⟩ :=
    @target_of_file files source destination _ _ ordinary.toIsPlain found other
  obtain ⟨contents, executable, isFile, spot, change⟩ :=
    Files.copy_file_ok middleOrdinary.toIsPlain copied
  rw [Files.place_of_here paved.here] at isFile spot change
  rw [Files.place_of_here paved.here source] at change
  have lasting : ∀ location, (middle.fileAt? location).isSome →
      (after.fileAt? location).isSome := by
    intro location wasFile
    by_cases same : location = files.placeOf (targetOf files source destination)
    · rw [same, Files.file_at_of_file change.stands_at]
      rfl
    · rwa [change.file_elsewhere same]
  refine Reaches.trans (.paved middleOrdinary paved) ⟨change.ordinary middleOrdinary spot (by simp),
    change.keeps, lasting, fun location differs => ⟨[], ?_, ?_⟩⟩
  · apply lasting
    rw [List.append_nil, Files.file_at_of_file isFile]
    rfl
  · have isTarget : location = files.placeOf (targetOf files source destination) := by
      by_contra apart
      exact differs (change.file_elsewhere apart)
    rw [IsTarget, List.append_nil, List.append_nil, last, isTarget, target]
    split
    · exact .inr (Files.place_of_join files destination isName)
    · exact .inl rfl

/-- What each entry leaves true is true after all of them, however they end. -/
theorem entries_end {holds : Files → Prop} {copy : FilePath → FilePath → Copying Nat}
    {names : List String}
    (each : ∀ name ∈ names, ∀ files, holds files →
      (copy (source.join ⟨name⟩) (destination.join ⟨name⟩)).Ends files (fun _ => holds) holds)
    (before : holds files) :
    (copyEntries copy source destination names).Ends files (fun _ => holds) holds := by
  induction names generalizing files with
  | nil => exact Attempt.ends_pure before
  | cons name rest induction =>
      rw [copyEntries]
      refine (each name List.mem_cons_self files before).bind fun _ middle reached => ?_
      have others := induction (fun other member => each other (List.mem_cons_of_mem _ member))
        reached
      exact others.bind fun _ after reached => Attempt.ends_pure reached

theorem names_named {names : List String} (ordinary : files.IsOrdinary)
    (listed : files.names source = .ok names) : ∀ name ∈ names, IsFileName name := by
  intro name member
  have stands := ((Files.names_ok ordinary.toIsPlain listed).2.2 name).1 member
  exact ordinary.named _ stands name (by simp)

theorem copy_within_lost {fault : FileFault} (lost : files.node? source = .error fault)
    (depth : Nat) : (copyWithin (depth + 1) source destination).outcome files =
      (.error (.filesystem source fault.text), files) := by
  have looked :
      (reportedAt source (Attempt.reading fun files => files.node? source)).outcome files =
        (.error (.filesystem source fault.text), files) := by
    rw [reportedAt, Attempt.outcome_map_failure, Attempt.reading, Attempt.of, Attempt.outcome, lost]
    rfl
  rw [copyWithin, Attempt.outcome_bind, looked]

/-- A copy that is cut off at a depth, or not, reaches as far as whole copies do. -/
theorem copy_within_reaches (depth : Nat) (ordinary : files.IsOrdinary) :
    (copyWithin depth source destination).Ends files
      (fun _ => Reaches (files.placeOf source) (files.placeOf destination) files)
      (Reaches (files.placeOf source) (files.placeOf destination) files) := by
  -- The entries of a directory are copied from the tree that the copies before them have left.
  induction depth generalizing files source destination with
  | zero => exact Attempt.ends_throw (.refl ordinary)
  | succ depth induction =>
      rw [copyWithin]
      refine ((reported_reading source _).weaken (fun _ _ => id)
        fun _ same => same.symm ▸ .refl ordinary).bind ?_
      rintro ⟨location, node⟩ after ⟨rfl, found⟩
      dsimp only
      split
      · refine ((reported_makes ordinary destination).weaken (fun _ _ => id)
          fun after failed => .paved failed.1 failed.2).bind ?_
        rintro _ made ⟨madeOrdinary, paved, _⟩
        have reached : Reaches (after.placeOf source) (after.placeOf destination) after made :=
          .paved madeOrdinary paved
        refine ((reported_reading source _).weaken (fun _ _ => id)
          fun _ same => same.symm ▸ reached).bind ?_
        rintro names _ ⟨rfl, listed⟩
        refine entries_end (fun name member files reached => ?_) reached
        have isName := names_named madeOrdinary listed name member
        have inner := @induction files (source.join ⟨name⟩) (destination.join ⟨name⟩)
          reached.ordinary
        rw [Files.place_of_join _ _ isName, Files.place_of_join _ _ isName,
          Files.place_of_here reached.keeps.here, Files.place_of_here reached.keeps.here] at inner
        exact inner.weaken (fun _ _ further => reached.trans further.entry)
          fun _ further => reached.trans further.entry
      · rename_i other
        exact copy_file_reaches ordinary found (by simpa using other)

end Copies

section Depth

variable {files : Files} {source destination : FilePath}

theorem join_name_longer (path : FilePath) {name : String} (isName : IsFileName name) :
    path.text.utf8ByteSize < (path.join ⟨name⟩).text.utf8ByteSize := by
  have some : 0 < name.utf8ByteSize := by
    rw [Nat.pos_iff_ne_zero, Ne, String.utf8ByteSize_eq_zero_iff]
    exact isName.1
  rw [FilePath.join, FilePath.inner_relative (FilePath.inner_of_name isName), Bool.false_or]
  split_ifs with empty slash
  · rw [of_decide_eq_true empty]
    exact some
  · rw [String.utf8ByteSize_append]
    exact Nat.lt_add_of_pos_right some
  · rw [String.utf8ByteSize_append, String.utf8ByteSize_append]
    exact Nat.lt_of_le_of_lt (Nat.le_add_right _ _) (Nat.lt_add_of_pos_right some)

theorem join_name_no_nul (path : FilePath) {name : String} (isName : IsFileName name)
    (noNul : '\x00' ∉ path.text.toList) : '\x00' ∉ (path.join ⟨name⟩).text.toList := by
  have nameNoNul := isName.2.2.2.2
  rw [FilePath.join]
  split_ifs
  · exact nameNoNul
  · simp [noNul, nameNoNul]
  · simp [noNul, nameNoNul]

theorem entries_agree {holds : Files → Prop} {first second : FilePath → FilePath → Copying Nat}
    {names : List String}
    (agree : ∀ name ∈ names, ∀ files, holds files →
      (first (source.join ⟨name⟩) (destination.join ⟨name⟩)).outcome files =
        (second (source.join ⟨name⟩) (destination.join ⟨name⟩)).outcome files)
    (each : ∀ name ∈ names, ∀ files, holds files →
      (second (source.join ⟨name⟩) (destination.join ⟨name⟩)).Ends files (fun _ => holds) holds)
    (before : holds files) :
    (copyEntries first source destination names).outcome files =
      (copyEntries second source destination names).outcome files := by
  induction names generalizing files with
  | nil => rfl
  | cons name rest induction =>
      rw [copyEntries, copyEntries, Attempt.outcome_bind,
        agree name List.mem_cons_self files before, ← Attempt.outcome_bind]
      refine (each name List.mem_cons_self files before).bind_agrees fun _ middle reached => ?_
      rw [Attempt.outcome_bind, Attempt.outcome_bind,
        induction (fun other member => agree other (List.mem_cons_of_mem _ member))
          (fun other member => each other (List.mem_cons_of_mem _ member)) reached]

/-- A depth at which the path of the source is too long is never short of levels. -/
theorem depth_suffices (depth more : Nat) (ordinary : files.IsOrdinary)
    (long : Walk.longestPath < source.text.utf8ByteSize + depth)
    (sound : depth = 0 → '\x00' ∉ source.text.toList) :
    (copyWithin (depth + more) source destination).outcome files =
      (copyWithin depth source destination).outcome files := by
  -- One level down there is one level less, and the path of the source has a name more.
  induction depth generalizing files source destination with
  | zero =>
      cases more with
      | zero => rfl
      | succ more =>
          rw [Nat.add_zero] at long
          have tooLong : files.node? source = .error .nameTooLong := by
            have notEmpty : source.text ≠ "" := by
              rintro empty
              rw [empty] at long
              exact absurd long (by decide)
            have noNul : ¬ source.text.toList.contains '\x00' = true := by
              rw [List.contains_iff_mem]
              exact sound rfl
            rw [Files.node?, Files.walk, Files.pathFault?, if_neg noNul, if_neg notEmpty,
              if_pos long]
          rw [Nat.zero_add, copy_within_lost tooLong]
          rfl
  | succ depth induction =>
      rw [Nat.succ_add, copyWithin, copyWithin]
      refine (reported_reading source _).bind_agrees ?_
      rintro ⟨location, node⟩ after ⟨rfl, found⟩
      dsimp only
      split
      · refine (reported_makes ordinary destination).bind_agrees ?_
        rintro _ made ⟨madeOrdinary, paved, _⟩
        refine (reported_reading source _).bind_agrees ?_
        rintro names _ ⟨rfl, listed⟩
        have named := names_named madeOrdinary listed
        refine @entries_agree _ _ _ Files.IsOrdinary _ _ _ (fun name member files ordinary => ?_)
          (fun name member files ordinary =>
            (copy_within_reaches depth ordinary).weaken (fun _ _ reached => reached.ordinary)
              fun _ reached => reached.ordinary) madeOrdinary
        have isName := named name member
        apply induction ordinary
        · have longer := join_name_longer source isName
          omega
        · intro _
          exact join_name_no_nul source isName (Files.no_nul_of_sound (Files.sound_of_node found))
      · rfl

end Depth

/-- However the source and the destination lie to each other, a copy ends by itself: no bound on
its depth cuts it off. When it has ended, well or badly, files have changed only where files of
the source come to stand, none has gone, and the source is whole outside of the destination. -/
theorem copy_ends_and_reaches {files : Files} (ordinary : files.IsOrdinary)
    (source destination : FilePath) :
    (∀ more, (copyWithin (Walk.longestPath + 1 + more) source destination).outcome files =
      (copy source destination).outcome files) ∧
    Reaches (files.placeOf source) (files.placeOf destination) files
      ((copy source destination).outcome files).2 ∧
    ∀ rest, ¬ files.placeOf destination <+: files.placeOf source ++ rest →
      ((copy source destination).outcome files).2.fileAt? (files.placeOf source ++ rest) =
        files.fileAt? (files.placeOf source ++ rest) := by
  have reaches : Reaches (files.placeOf source) (files.placeOf destination) files
      ((copy source destination).outcome files).2 :=
    (copy_within_reaches (Walk.longestPath + 1) ordinary).either
  refine ⟨fun more => ?_, reaches, fun rest apart => reaches.outside apart⟩
  exact depth_suffices (Walk.longestPath + 1) more ordinary (by omega) nofun

def filesOut : Files := ⟨.directory [("out", .directory [("app", .ofText "keep" false)])], []⟩

theorem files_out_ordinary : filesOut.IsOrdinary :=
  .of_tidy (Files.tidy_entry (by decide)
    (Files.tidy_entry (by decide) (Files.tidy_file _ _) Files.tidy_empty) Files.tidy_empty) rfl

/-- Copied into itself, a directory keeps its file: the copies land below it. -/
theorem copy_into_itself_keeps_source :
    filesOut.IsOrdinary ∧
    (∀ more, (copyWithin (Walk.longestPath + 1 + more) ⟨"out"⟩ ⟨"out/saved"⟩).outcome filesOut =
      (copy ⟨"out"⟩ ⟨"out/saved"⟩).outcome filesOut) ∧
    ((copy ⟨"out"⟩ ⟨"out/saved"⟩).outcome filesOut).2.fileAt? ["out", "app"] =
      some ("keep".toUTF8, false) := by
  obtain ⟨ends, _, keeps⟩ := copy_ends_and_reaches files_out_ordinary ⟨"out"⟩ ⟨"out/saved"⟩
  exact ⟨files_out_ordinary, ends, keeps ["app"] (by decide)⟩

/-- Copied into the directory that it lies in, a file lands on itself and is emptied. -/
theorem copy_onto_itself_empties :
    filesOut.IsOrdinary ∧ filesOut.isPresent ⟨"out/app"⟩ ∧
    filesOut.fileAt? ["out", "app"] = some ("keep".toUTF8, false) ∧
    ((copy ⟨"out/app"⟩ ⟨"out"⟩).outcome filesOut).1 = .ok 1 ∧
    ((copy ⟨"out/app"⟩ ⟨"out"⟩).outcome filesOut).2.fileAt? ["out", "app"] =
      some (ByteArray.empty, false) ∧
    "keep".toUTF8 ≠ ByteArray.empty :=
  ⟨files_out_ordinary, rfl, rfl, rfl, rfl, by decide⟩

end Artifact

end PipelineWaves
