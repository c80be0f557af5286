import PipelineWaves.Proofs.Attempt
import PipelineWaves.Proofs.Files.Route

/-!
# What file calls change

Every call in terms of what stands where: a directory is made at the spot of its
path, a written file stands at the spot of its path, and what is renamed moves
from one spot to another with everything below it. A refused call changes
nothing, and a chain of directories is made one directory at a time.
-/

set_option autoImplicit false

namespace PipelineWaves

namespace Files

abbrev afterCall (files : Files) (call : FileCall Unit) : Files := (call.outcome files).2

abbrev Accepts (files : Files) (call : FileCall Unit) : Prop :=
  (call.outcome files).1 = .ok ()

/-- Every directory of a tree is there in another one, and paths start from the same place. -/
structure Keeps (files after : Files) : Prop where
  here : after.here = files.here
  directory : ∀ location, files.stands location = some .directory →
    after.stands location = some .directory

namespace Keeps

variable {files middle after : Files}

theorem refl (files : Files) : files.Keeps files := ⟨rfl, fun _ isDirectory => isDirectory⟩

theorem trans (first : files.Keeps middle) (second : middle.Keeps after) : files.Keeps after :=
  ⟨second.here.trans first.here,
    fun location isDirectory => second.directory location (first.directory location isDirectory)⟩

theorem origin (keeps : files.Keeps after) (path : FilePath) :
    after.origin path = files.origin path := by
  rw [Files.origin, Files.origin, keeps.here]

theorem leads (keeps : files.Keeps after) {path : FilePath} {names : List String}
    {location : Location} (lead : files.leads (files.origin path) names = some location) :
    after.leads (after.origin path) names = some location := by
  rw [keeps.origin]
  exact leads_kept (fun location isDirectory _ => keeps.directory location isDirectory) lead

theorem spot (keeps : files.Keeps after) {path : FilePath} {location : Location}
    (found : files.spot? path = some location) : after.spot? path = some location := by
  obtain ⟨above, name, sound, last, short, lead, same⟩ := spot_iff.1 found
  exact spot_iff.2 ⟨above, name, sound, last, short, keeps.leads lead, same⟩

end Keeps

/-- A tree in which one thing stands elsewhere or not at all, and where no directory was. -/
structure Changes (files after : Files) (location : Location) (standing : Option Standing) :
    Prop where
  here : after.here = files.here
  free : files.stands location ≠ some .directory
  stands : after.stands = Function.update files.stands location standing

namespace Changes

variable {files after : Files} {location place : Location} {standing : Option Standing}

theorem keeps (change : files.Changes after location standing) : files.Keeps after := by
  refine ⟨change.here, fun place isDirectory => ?_⟩
  have apart : place ≠ location := fun same => change.free (same ▸ isDirectory)
  rw [change.stands, Function.update_of_ne apart, isDirectory]

theorem plain (change : files.Changes after location standing) (plain : files.IsPlain)
    (noLink : ∀ target, standing ≠ some (.link target)) : after.IsPlain := by
  refine ⟨fun place target => ?_, ?_⟩
  · rw [change.stands, Function.update_apply]
    split
    · exact noLink target
    · exact plain.noLink place target
  · rw [change.here]
    exact change.keeps.directory _ plain.standsHere

theorem stands_at (change : files.Changes after location standing) :
    after.stands location = standing := by
  rw [change.stands, Function.update_self]

theorem stands_elsewhere (change : files.Changes after location standing)
    (apart : place ≠ location) : after.stands place = files.stands place := by
  rw [change.stands, Function.update_of_ne apart]

theorem file_elsewhere (change : files.Changes after location standing)
    (apart : place ≠ location) : after.fileAt? place = files.fileAt? place :=
  file_at_of_stands (change.stands_elsewhere apart)

end Changes

section Changing

variable {step : Files → Except FileFault Files} {files after : Files} {fault : FileFault}

theorem outcome_of_taken (taken : step files = .ok after) :
    (changing step).outcome files = (.ok (), after) := by
  rw [changing, Attempt.of, Attempt.outcome, taken]

theorem outcome_of_refused (refused : step files = .error fault) :
    (changing step).outcome files = (.error fault, files) := by
  rw [changing, Attempt.of, Attempt.outcome, refused]

theorem changing_ok (accepted : files.Accepts (changing step)) :
    step files = .ok (files.afterCall (changing step)) := by
  cases taken : step files with
  | ok after => rw [afterCall, outcome_of_taken taken]
  | error fault =>
      rw [Accepts, outcome_of_refused taken] at accepted
      cases accepted

/-- A call of one step that fails changes nothing. -/
theorem changing_refused (refused : ¬ files.Accepts (changing step)) :
    files.afterCall (changing step) = files := by
  cases taken : step files with
  | ok after => exact absurd (by rw [Accepts, outcome_of_taken taken]) refused
  | error fault => rw [afterCall, outcome_of_refused taken]

theorem changing_error (failed : (changing step).outcome files = (.error fault, after)) :
    after = files := by
  have unchanged := changing_refused (by rw [Accepts, failed]; simp)
  rwa [afterCall, failed] at unchanged

end Changing

/-- A directory is made at the spot of a path. -/
def Makes (path : FilePath) (files after : Files) : Prop :=
  ∃ location, files.spot? path = some location ∧ files.stands location = none ∧
    files.Changes after location (some .directory)

/-- A directory made where nothing stood is no change to any file. -/
theorem Makes.file_at {files after : Files} {path : FilePath} (makes : Makes path files after)
    (location : Location) : after.fileAt? location = files.fileAt? location := by
  obtain ⟨place, _, vacant, change⟩ := makes
  by_cases same : location = place
  · rw [same, file_at_none (by simp [change.stands_at]), file_at_vacant vacant]
  · exact change.file_elsewhere same

theorem Makes.plain {files after : Files} {path : FilePath} (makes : Makes path files after)
    (plain : files.IsPlain) : after.IsPlain := by
  obtain ⟨_, _, _, change⟩ := makes
  exact change.plain plain (by simp)

theorem Makes.stands_kept {files after : Files} {path : FilePath} (makes : Makes path files after)
    {location : Location} (something : files.stands location ≠ none) :
    after.stands location = files.stands location := by
  obtain ⟨place, _, vacant, change⟩ := makes
  apply change.stands_elsewhere
  rintro rfl
  exact something vacant

theorem create_directory_ok {files : Files} {path : FilePath} (plain : files.IsPlain)
    (accepted : files.Accepts (createDirectory path)) :
    Makes path files (files.afterCall (createDirectory path)) := by
  have taken : _ = Except.ok (files.afterCall (createDirectory path)) := changing_ok accepted
  generalize files.afterCall (createDirectory path) = after at taken ⊢
  obtain ⟨⟨above, directory, name⟩, parent, created⟩ := except_bind_ok taken
  obtain ⟨sound, rfl, lead, found⟩ := leads_of_parent plain parent
  dsimp only at created
  split at created
  · cases created
  · rename_i name last
    split_ifs at created with long taken
    have vacant : files.stands (above ++ [name]) = none := by
      rw [stands, FileNode.stands, FileNode.at_child found, Option.map_eq_none_iff]
      simpa using taken
    have spot : files.spot? path = some (above ++ [name]) :=
      spot_iff.2 ⟨above, name, sound, last, Nat.le_of_not_gt long, lead, rfl⟩
    cases created
    exact ⟨above ++ [name], spot, vacant, rfl, by simp [vacant],
      stands_put_bare (leads_to_directory lead) (by simp [vacant])
        FileNode.bare_of_empty_directory⟩

/-- What every directory of a chain leaves true is true after the chain, however it ends. -/
theorem create_chain_keeps {holds : Files → Prop} {chain : List FilePath}
    (plain : ∀ files, holds files → files.IsPlain)
    (made : ∀ path ∈ chain, ∀ files after, holds files → Makes path files after → holds after)
    {files : Files} (before : holds files) : holds (files.afterCall (createChain chain)) := by
  induction chain generalizing files with
  | nil => exact before
  | cons path above induction =>
      have makes : ∀ files, holds files → ∀ after,
          (createDirectory path).outcome files = (.ok (), after) → holds after := by
        intro files before after created
        have done : Makes path files (files.afterCall (createDirectory path)) :=
          create_directory_ok (plain files before) (by rw [Accepts, created])
        rw [afterCall, created] at done
        exact made path List.mem_cons_self files after before done
      have higher : ∀ files, holds files → holds (files.afterCall (createChain above)) :=
        fun files before =>
          induction (fun path member => made path (List.mem_cons_of_mem _ member)) before
      rw [afterCall, createChain, Attempt.of, Attempt.outcome]
      split
      · rename_i after created
        exact makes files before after created
      · split
        · exact before
        · split
          · rename_i fault after refused
            have kept := higher files before
            rwa [afterCall, refused] at kept
          · rename_i after created
            have kept := higher files before
            rw [afterCall, created] at kept
            split
            · rename_i made createdNow
              exact makes after kept made createdNow
            · split <;> exact kept
      · split <;> exact before

/-- A directory is made for some of the names that come first in a path. -/
theorem create_directories_keeps {holds : Files → Prop} {path : FilePath}
    (plain : ∀ files, holds files → files.IsPlain)
    (made : ∀ above : FilePath, above.pieces <+: path.pieces → ∀ files after, holds files →
      Makes above files after → holds after)
    {files : Files} (before : holds files) {chain : List FilePath}
    (inChain : chain ⊆ chainAbove path.components.length path) :
    holds (files.afterCall (createChain chain)) := by
  refine create_chain_keeps plain (fun above member files after holds makes => ?_) before
  rcases chain_above_pieces (inChain member) with nameless | inFront
  · obtain ⟨location, spot, _⟩ := makes
    obtain ⟨_, name, _, last, _⟩ := spot_iff.1 spot
    have known := (last_name_some.1 last).1
    rw [nameless] at known
    cases known
  · exact made above inFront files after holds makes

theorem write_target_ok {files : Files} {path : FilePath} {location : Location}
    {executable : Option Bool} (plain : files.IsPlain) (noSlash : (lastName path).slash = false)
    (found : files.writeTarget path = .ok (location, executable)) :
    files.spot? path = some location ∧ files.stands location ≠ some .directory ∧
      (files.stands location = none → executable = none) := by
  rw [writeTarget] at found
  split at found
  · cases found
  · dsimp only at found
    rw [noSlash, Bool.false_or] at found
    cases last : (lastName path).name with
    | none =>
        simp only [last, Option.isNone_none, if_true] at found
        split at found <;> cases found
    | some name =>
        simp only [last, Option.isNone_some, Bool.false_eq_true, if_false] at found
        cases spot : files.spot? path with
        | none =>
            obtain ⟨fault, astray⟩ := walk_astray plain noSlash true last spot
            rw [astray] at found
            cases found
        | some place =>
            cases node : files.root.at? place with
            | none =>
                obtain ⟨above, name, _, _, _, _, rfl⟩ := spot_iff.1 spot
                rw [walk_vacant plain noSlash true spot node] at found
                cases found
                have vacant : files.stands (above ++ [name]) = none := by
                  rw [stands, FileNode.stands, node, Option.map_none]
                exact ⟨rfl, by simp [vacant], fun _ => rfl⟩
            | some child =>
                rw [walk_found plain noSlash true spot node] at found
                cases child with
                | directory entries => cases found
                | link target => cases found
                | file contents old =>
                    cases found
                    have stands := stands_of_at node
                    rw [FileNode.standing] at stands
                    exact ⟨rfl, by simp [stands], by simp [stands]⟩

theorem write_bytes_ok {files : Files} {path : FilePath} {contents : ByteArray}
    (plain : files.IsPlain) (noSlash : (lastName path).slash = false)
    (accepted : files.Accepts (writeBytes path contents)) :
    ∃ location executable, files.spot? path = some location ∧
      (files.stands location = none → executable = false) ∧
      files.Changes (files.afterCall (writeBytes path contents)) location
        (some (.file contents executable)) := by
  have taken : _ = Except.ok (files.afterCall (writeBytes path contents)) := changing_ok accepted
  generalize files.afterCall (writeBytes path contents) = after at taken ⊢
  obtain ⟨⟨location, executable⟩, target, written⟩ := except_bind_ok taken
  obtain ⟨spot, free, unset⟩ := write_target_ok plain noSlash target
  obtain ⟨above, name, _, _, _, lead, rfl⟩ := spot_iff.1 spot
  cases written
  refine ⟨above ++ [name], executable.getD false, spot, ?_, rfl, free, ?_⟩
  · intro vacant
    rw [unset vacant, Option.getD_none]
  · exact stands_put_bare (leads_to_directory lead) free
      (FileNode.bare_of_not_directory (by simp [FileNode.standing]))

theorem own_location_found {files : Files} {path : FilePath} (plain : files.IsPlain)
    (noSlash : (lastName path).slash = false) {location : Location} {node : FileNode}
    (spot : files.spot? path = some location) (found : files.root.at? location = some node) :
    files.ownLocation path = .ok (location, node) := by
  rw [ownLocation, walk_found plain noSlash false spot found]

theorem remove_file_accepted {files : Files} {path : FilePath} (plain : files.IsPlain)
    (noSlash : (lastName path).slash = false) {location : Location} {contents : ByteArray}
    {executable : Bool} (spot : files.spot? path = some location)
    (isFile : files.stands location = some (.file contents executable)) :
    files.Accepts (removeFile path) ∧
      files.Changes (files.afterCall (removeFile path)) location none := by
  obtain ⟨node, found, standing⟩ := at_of_stands isFile
  have notDirectory : node.isDirectory = false := by
    cases node with
    | directory entries => cases standing
    | file contents executable => rfl
    | link target => rfl
  have own := own_location_found plain noSlash spot found
  have outcome : (removeFile path).outcome files = (.ok (), files.remove location) := by
    apply outcome_of_taken
    rw [own, except_ok_bind]
    simp only [notDirectory, Bool.false_eq_true, if_false]
  obtain ⟨above, name, _, _, _, _, rfl⟩ := spot_iff.1 spot
  rw [Accepts, afterCall, outcome]
  exact ⟨rfl, rfl, by simp [isFile], stands_remove_bare (by simp) (by simp [isFile])⟩

/-- A tree is removed from its spot; where there is none, nothing changes. -/
theorem remove_tree_outcome {files : Files} {path : FilePath} (plain : files.IsPlain)
    (noSlash : (lastName path).slash = false) {name : String}
    (last : (lastName path).name = some name) :
    files.afterCall (removeTree path) =
      match files.spot? path with
      | none => files
      | some location =>
          if files.stands location = none then files else files.remove location := by
  cases spot : files.spot? path with
  | none =>
      obtain ⟨fault, astray⟩ := walk_astray plain noSlash false last spot
      rw [afterCall, removeTree, outcome_of_refused]
      rw [ownLocation, astray]
      rfl
  | some location =>
      cases node : files.root.at? location with
      | none =>
          obtain ⟨above, name, _, _, _, _, rfl⟩ := spot_iff.1 spot
          have vacant : files.stands (above ++ [name]) = none := by
            rw [stands, FileNode.stands, node, Option.map_none]
          rw [afterCall, removeTree, outcome_of_refused]
          · simp only [vacant, if_true]
          · rw [ownLocation, walk_vacant plain noSlash false spot node]
            rfl
      | some child =>
          have outcome : (removeTree path).outcome files = (.ok (), files.remove location) := by
            apply outcome_of_taken
            rw [own_location_found plain noSlash spot node]
            rfl
          rw [afterCall, outcome]
          simp only [stands_of_at node, reduceCtorEq, if_false]

theorem readable_of_present {files : Files} {path : FilePath}
    (isPresent : files.isPresent path = true) : pathFault? path = none := by
  cases unreadable : pathFault? path with
  | none => rfl
  | some fault =>
      rw [Files.isPresent, node?, walk, unreadable] at isPresent
      cases isPresent

theorem text_ne_of_readable {path : FilePath} (readable : pathFault? path = none) :
    path.text ≠ "" := by
  intro empty
  rw [pathFault?, if_pos empty] at readable
  split_ifs at readable

theorem present_spot {files : Files} {path : FilePath} (plain : files.IsPlain)
    (noSlash : (lastName path).slash = false) {name : String}
    (last : (lastName path).name = some name) (isPresent : files.isPresent path = true) :
    ∃ location, files.spot? path = some location ∧ files.stands location ≠ none := by
  cases spot : files.spot? path with
  | none =>
      obtain ⟨fault, astray⟩ := walk_astray plain noSlash true last spot
      rw [Files.isPresent, node?, astray] at isPresent
      cases isPresent
  | some location =>
      refine ⟨location, rfl, fun vacant => ?_⟩
      rw [stands, FileNode.stands, Option.map_eq_none_iff] at vacant
      obtain ⟨above, name, _, _, _, _, rfl⟩ := spot_iff.1 spot
      rw [Files.isPresent, node?, walk_vacant plain noSlash true spot vacant] at isPresent
      cases isPresent

theorem is_file_iff {files : Files} {path : FilePath} (plain : files.IsPlain)
    (noSlash : (lastName path).slash = false) {name : String}
    (last : (lastName path).name = some name) :
    files.isFile path = true ↔ ∃ location contents executable,
      files.spot? path = some location ∧
        files.stands location = some (.file contents executable) := by
  cases spot : files.spot? path with
  | none =>
      obtain ⟨fault, astray⟩ := walk_astray plain noSlash true last spot
      simp [Files.isFile, node?, astray]
  | some location =>
      cases node : files.root.at? location with
      | none =>
          have vacant : files.stands location = none := by
            rw [stands, FileNode.stands, node, Option.map_none]
          obtain ⟨above, name, _, _, _, _, rfl⟩ := spot_iff.1 spot
          simp [Files.isFile, node?, walk_vacant plain noSlash true spot node, vacant]
      | some child =>
          rw [Files.isFile, node?, walk_found plain noSlash true spot node]
          cases child with
          | file contents executable =>
              exact ⟨fun _ => ⟨location, contents, executable, rfl, stands_of_at node⟩,
                fun _ => rfl⟩
          | directory entries => simp [stands_of_at node, FileNode.isFile, FileNode.standing]
          | link target => simp [stands_of_at node, FileNode.isFile, FileNode.standing]

/-- No file is at the spot of a path that is not a file's. -/
theorem no_file_at_spot {files : Files} {path : FilePath} (plain : files.IsPlain)
    (noSlash : (lastName path).slash = false) {name : String}
    (last : (lastName path).name = some name) (noFile : files.isFile path = false)
    {location : Location} (spot : files.spot? path = some location) :
    files.fileAt? location = none := by
  refine file_at_none fun contents executable stands => ?_
  have isFile := (is_file_iff plain noSlash last).2 ⟨location, contents, executable, spot, stands⟩
  rw [noFile] at isFile
  cases isFile

/-- What stands at one location, with everything below it, moves to another. -/
structure Moves (files after : Files) (source target : Location) : Prop where
  here : after.here = files.here
  stands : ∀ location, after.stands location =
    if target <+: location then files.stands (source ++ location.drop target.length)
    else if source <+: location then none
    else files.stands location
  something : files.stands source ≠ none
  overFile : files.stands source ≠ some .directory → files.stands target ≠ some .directory
  overDirectory : files.stands source = some .directory → source ≠ target →
    ∀ location, target <+: location → files.fileAt? location = none

theorem is_below_iff {above below : Location} :
    isBelow above below = true ↔ above <+: below ∧ above ≠ below := by
  simp [isBelow, List.isPrefixOf_iff_prefix]

/-- A node put elsewhere after it was taken away has moved with what is below it. -/
theorem stands_moved {files : Files} {source above : Location} {name : String} {node : FileNode}
    (inner : source ≠ []) (found : files.root.at? source = some node)
    (isDirectory : files.stands above = some .directory) (apart : ¬ source <+: above ++ [name])
    (location : Location) :
    ((files.remove source).put (above ++ [name]) node).stands location =
      if above ++ [name] <+: location then
        files.stands (source ++ location.drop (above ++ [name]).length)
      else if source <+: location then none
      else files.stands location := by
  have stillDirectory : (files.remove source).root.stands above = some .directory := by
    have outside : ¬ source <+: above :=
      fun inFront => apart (inFront.trans (List.prefix_append _ _))
    exact (stands_remove inner above).trans ((if_neg outside).trans isDirectory)
  rw [stands, put, FileNode.stands_put node name location stillDirectory]
  split
  · rw [stands, FileNode.stands_append, found, Option.bind_some, List.length_append,
      List.length_singleton]
  · exact stands_remove inner location

/-- What is moved may take the place of a file, or of a directory with nothing in it. -/
theorem free_of_placed {node : FileNode} {child : Option FileNode} {moved after : Files}
    (placed : (match child with
      | none => Except.ok moved
      | some (.directory entries) =>
          if !node.isDirectory then .error FileFault.isADirectory
          else if !entries.isEmpty then .error .notEmpty
          else .ok moved
      | some _ => if node.isDirectory then .error .notADirectory else .ok moved) = .ok after) :
    moved = after ∧
      (node.isDirectory = false → child.map FileNode.standing ≠ some .directory) ∧
      (node.isDirectory = true → child = none ∨ child = some .emptyDirectory) := by
  match child with
  | none =>
      cases placed
      exact ⟨rfl, by simp, by simp⟩
  | some (.directory entries) =>
      obtain ⟨isDirectory, placed⟩ := except_guard_ok placed
      obtain ⟨empty, placed⟩ := except_guard_ok placed
      cases placed
      cases entries with
      | cons entry rest => exact absurd rfl empty
      | nil => exact ⟨rfl, fun other => absurd (by simp [other]) isDirectory, fun _ => .inr rfl⟩
  | some (.file contents executable) =>
      obtain ⟨other, placed⟩ := except_guard_ok placed
      cases placed
      exact ⟨rfl, by simp [FileNode.standing], fun isDirectory => absurd isDirectory other⟩
  | some (.link target) =>
      obtain ⟨other, placed⟩ := except_guard_ok placed
      cases placed
      exact ⟨rfl, by simp [FileNode.standing], fun isDirectory => absurd isDirectory other⟩

theorem no_file_in_empty {files : Files} {target : Location}
    (empty : files.root.at? target = none ∨ files.root.at? target = some .emptyDirectory)
    {location : Location} (inside : target <+: location) : files.fileAt? location = none := by
  obtain ⟨rest, rfl⟩ := inside
  rw [fileAt?, FileNode.at_append]
  rcases empty with vacant | empty
  · rw [vacant, Option.bind_none]
  · rw [empty, Option.bind_some]
    cases rest with
    | nil => rfl
    | cons name rest => rfl

theorem moves_nowhere {files : Files} {source : Location} (something : files.stands source ≠ none) :
    files.Moves files source source := by
  refine ⟨rfl, fun location => ?_, something, id, fun _ differs => absurd rfl differs⟩
  split
  · rename_i inside
    obtain ⟨rest, rfl⟩ := inside
    rw [List.drop_left]
  · rfl

theorem rename_ok {files : Files} {old new : FilePath} (plain : files.IsPlain)
    (short : ∀ name, (lastName old).name = some name → name.utf8ByteSize ≤ Walk.longestName)
    (accepted : files.Accepts (rename old new)) :
    ∃ source target, files.spot? old = some source ∧ files.spot? new = some target ∧
      files.Moves (files.afterCall (rename old new)) source target := by
  have taken : _ = Except.ok (files.afterCall (rename old new)) := changing_ok accepted
  generalize files.afterCall (rename old new) = after at taken ⊢
  obtain ⟨⟨above, directory, name⟩, parent, taken⟩ := except_bind_ok taken
  obtain ⟨⟨newAbove, newDirectory, newName⟩, newParent, taken⟩ := except_bind_ok taken
  obtain ⟨sound, rfl, lead, found⟩ := leads_of_parent plain parent
  obtain ⟨newSound, rfl, newLead, newFound⟩ := leads_of_parent plain newParent
  dsimp only at taken
  split at taken
  · rename_i name newName last newLast
    split at taken
    · cases taken
    · rename_i node child
      rw [← FileNode.at_child found] at child
      have something := stands_of_at child
      obtain ⟨newShort, taken⟩ := except_guard_ok taken
      obtain ⟨_, taken⟩ := except_guard_ok taken
      obtain ⟨notInside, taken⟩ := except_guard_ok taken
      obtain ⟨_, taken⟩ := except_guard_ok taken
      refine ⟨above ++ [name], newAbove ++ [newName],
        spot_iff.2 ⟨above, name, sound, last, short name last, lead, rfl⟩,
        spot_iff.2 ⟨newAbove, newName, newSound, newLast, Nat.le_of_not_gt newShort, newLead, rfl⟩,
        ?_⟩
      split at taken
      · rename_i same
        cases taken
        rw [← same]
        exact moves_nowhere (by simp [something])
      · rename_i differs
        obtain ⟨rfl, overFile, overDirectory⟩ := free_of_placed taken
        rw [← FileNode.at_child newFound] at overFile overDirectory
        have apart : ¬ above ++ [name] <+: newAbove ++ [newName] :=
          fun inFront => notInside (is_below_iff.2 ⟨inFront, differs⟩)
        refine ⟨rfl, stands_moved (by simp) child (leads_to_directory newLead) apart,
          by simp [something], fun other => ?_, fun isDirectory _ location inside => ?_⟩
        · apply overFile
          rw [← Bool.not_eq_true, FileNode.is_directory_iff]
          simpa [something] using other
        · rw [something, Option.some_inj, ← FileNode.is_directory_iff] at isDirectory
          exact no_file_in_empty (overDirectory isDirectory) inside
  · cases taken

theorem rename_accepted {files : Files} {old new : FilePath} (plain : files.IsPlain)
    (noSlash : (lastName old).slash = false) (newNoSlash : (lastName new).slash = false)
    {source target : Location} {contents : ByteArray} {executable : Bool}
    (spot : files.spot? old = some source) (newSpot : files.spot? new = some target)
    (isFile : files.stands source = some (.file contents executable))
    (vacant : files.stands target = none) : files.Accepts (rename old new) := by
  obtain ⟨above, name, sound, last, _, lead, rfl⟩ := spot_iff.1 spot
  obtain ⟨newAbove, newName, newSound, newLast, short, newLead, rfl⟩ := spot_iff.1 newSpot
  obtain ⟨directory, found, parent⟩ := parent_of_leads plain sound lead
  obtain ⟨newDirectory, newFound, newParent⟩ := parent_of_leads plain newSound newLead
  obtain ⟨node, child, standing⟩ := at_of_stands isFile
  rw [FileNode.at_child found] at child
  have differs : above ++ [name] ≠ newAbove ++ [newName] := by
    intro same
    rw [same, vacant] at isFile
    cases isFile
  have notInside : isBelow (above ++ [name]) (newAbove ++ [newName]) = false := by
    rw [← Bool.not_eq_true, is_below_iff]
    rintro ⟨inFront, _⟩
    have inParent := (List.prefix_concat_iff.1 inFront).resolve_left differs
    have directoryBelow := leads_to_directory newLead
    by_cases same : newAbove = above ++ [name]
    · rw [same, isFile] at directoryBelow
      cases directoryBelow
    · rw [nothing_below (by simp [isFile]) inParent same] at directoryBelow
      cases directoryBelow
  have notOutside : isBelow (newAbove ++ [newName]) (above ++ [name]) = false := by
    rw [← Bool.not_eq_true, is_below_iff]
    rintro ⟨inFront, _⟩
    rw [nothing_below (by simp [vacant]) inFront differs] at isFile
    cases isFile
  have free : newDirectory.child? newName = none := by
    rw [← FileNode.at_child newFound]
    rwa [stands, FileNode.stands, Option.map_eq_none_iff] at vacant
  have outcome : (rename old new).outcome files =
      (.ok (), (files.remove (above ++ [name])).put (newAbove ++ [newName]) node) := by
    apply outcome_of_taken
    rw [parent, newParent]
    simp only [except_ok_bind, last, newLast, child, free, noSlash, newNoSlash, notInside,
      notOutside, if_neg (Nat.not_lt.2 short), if_neg differs, Bool.or_self, Bool.and_false,
      Bool.false_eq_true, if_false]
  rw [Accepts, outcome]

/-- What was below the source is below the target afterwards. -/
theorem Moves.arrives {files after : Files} {source target : Location}
    (moves : files.Moves after source target) (rest : Location) :
    after.stands (target ++ rest) = files.stands (source ++ rest) := by
  rw [moves.stands, if_pos (List.prefix_append _ _), List.drop_left]

theorem Moves.stands_outside {files after : Files} {source target location : Location}
    (moves : files.Moves after source target) (notTarget : ¬ target <+: location)
    (notSource : ¬ source <+: location) : after.stands location = files.stands location := by
  rw [moves.stands, if_neg notTarget, if_neg notSource]

theorem Moves.no_link {files after : Files} {source target location : Location} {name : String}
    (moves : files.Moves after source target) (plain : files.IsPlain) :
    after.stands location ≠ some (.link name) := by
  rw [moves.stands]
  split_ifs
  · exact plain.noLink _ name
  · simp
  · exact plain.noLink _ name

/-- Nothing stands at the spot of a path that is not present when a directory moves there. -/
theorem vacant_of_absent {files after : Files} {path : FilePath} {root target : Location} (plain : files.IsPlain)
    (absent : files.isPresent path = false) (spot : files.spot? path = some target)
    (moves : files.Moves after root target) (isDirectory : files.stands root = some .directory)
    (apart : root ≠ target) : files.stands target = none := by
  cases standing : files.stands target with
  | none => rfl
  | some node =>
      cases node with
      | file contents executable =>
          have noFile := moves.overDirectory isDirectory apart target List.prefix_rfl
          rw [file_at_of_file standing] at noFile
          cases noFile
      | link name => exact absurd standing (plain.noLink target name)
      | directory =>
          obtain ⟨_, _, readable, _⟩ := spot_iff.1 spot
          obtain ⟨entries, found⟩ :=
            node_of_leads plain readable (leads_of_spot spot standing)
          rw [isPresent, found] at absent
          cases absent

/-- A file that moves is the only thing that changes. -/
theorem Moves.of_file {files after : Files} {source target : Location} {contents : ByteArray}
    {executable : Bool} (moves : files.Moves after source target)
    (isFile : files.stands source = some (.file contents executable)) :
    after.stands = Function.update (Function.update files.stands source none) target
      (some (.file contents executable)) := by
  have noDirectory : files.stands source ≠ some .directory := by simp [isFile]
  funext location
  rw [moves.stands, Function.update_apply, Function.update_apply]
  by_cases same : location = target
  · rw [if_pos same, same, if_pos List.prefix_rfl, List.drop_length, List.append_nil, isFile]
  · rw [if_neg same]
    split
    · rename_i inside
      obtain ⟨rest, rfl⟩ := inside
      have below : rest ≠ [] := fun nothing => same (by rw [nothing, List.append_nil])
      rw [List.drop_left, nothing_below noDirectory (List.prefix_append _ _) (by simpa using below)]
      split
      · rfl
      · exact (nothing_below (moves.overFile noDirectory) (List.prefix_append _ _) same).symm
    · split
      · rename_i inside
        split
        · rfl
        · rename_i apart
          exact (nothing_below noDirectory inside apart).symm
      · rename_i outside
        have apart : location ≠ source := by
          rintro rfl
          exact outside List.prefix_rfl
        rw [if_neg apart]

section FileMoves

variable {files after : Files} {source target : Location} {contents : ByteArray}
  {executable : Bool} (moves : files.Moves after source target)
  (isFile : files.stands source = some (.file contents executable))
include moves isFile

theorem Moves.keeps : files.Keeps after := by
  refine ⟨moves.here, fun location isDirectory => ?_⟩
  have notSource : location ≠ source := by
    rintro rfl
    rw [isFile] at isDirectory
    cases isDirectory
  have notTarget : location ≠ target := by
    rintro rfl
    exact moves.overFile (by simp [isFile]) isDirectory
  rw [moves.of_file isFile, Function.update_of_ne notTarget, Function.update_of_ne notSource,
    isDirectory]

theorem Moves.plain (plain : files.IsPlain) : after.IsPlain := by
  refine ⟨fun _ _ => moves.no_link plain, ?_⟩
  rw [moves.here]
  exact (moves.keeps isFile).directory _ plain.standsHere

theorem Moves.stands_target :
    after.stands target = some (.file contents executable) := by
  rw [moves.of_file isFile, Function.update_self]

theorem Moves.stands_source (apart : source ≠ target) : after.stands source = none := by
  rw [moves.of_file isFile, Function.update_of_ne apart, Function.update_self]

theorem Moves.stands_elsewhere {location : Location} (notSource : location ≠ source)
    (notTarget : location ≠ target) : after.stands location = files.stands location := by
  rw [moves.of_file isFile, Function.update_of_ne notTarget, Function.update_of_ne notSource]

theorem Moves.file_elsewhere {location : Location} (notSource : location ≠ source)
    (notTarget : location ≠ target) : after.fileAt? location = files.fileAt? location :=
  file_at_of_stands (moves.stands_elsewhere isFile notSource notTarget)

end FileMoves

end Files

end PipelineWaves
