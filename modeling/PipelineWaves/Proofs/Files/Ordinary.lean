import Mathlib
import PipelineWaves.Proofs.Files.Place

/-!
# Ordinary trees

An ordinary tree has directories and regular files only, under names that a system accepts;
calls keep it ordinary. Making the directories of a path changes places on the way only, and a
copied file changes the place of its target only.
-/

set_option autoImplicit false

namespace PipelineWaves

namespace Files

/-- Directories and regular files under names that they can have. -/
structure IsOrdinary (files : Files) : Prop extends files.IsPlain where
  named : ∀ location, files.stands location ≠ none → ∀ name ∈ location, IsFileName name

/-- Nothing in the tree is a link, and every name is one that a file can have. -/
def IsTidy (root : FileNode) : Prop :=
  ∀ location standing, root.stands location = some standing →
    (∀ target, standing ≠ .link target) ∧ ∀ name ∈ location, IsFileName name

theorem tidy_file (contents : ByteArray) (executable : Bool) :
    IsTidy (.file contents executable) := by
  rintro (_ | ⟨name, rest⟩) standing stands
  · cases stands
    simp [FileNode.standing]
  · cases stands

theorem tidy_empty : IsTidy (.directory []) := by
  rintro (_ | ⟨name, rest⟩) standing stands
  · cases stands
    simp [FileNode.standing]
  · cases stands

theorem tidy_entry {name : String} {node : FileNode} {entries : List (String × FileNode)}
    (isName : IsFileName name) (inner : IsTidy node) (others : IsTidy (.directory entries)) :
    IsTidy (.directory ((name, node) :: entries)) := by
  rintro (_ | ⟨first, rest⟩) standing stands
  · cases stands
    simp [FileNode.standing]
  · rw [FileNode.stands_entry] at stands
    split_ifs at stands with same
    · obtain ⟨noLink, named⟩ := inner rest standing stands
      exact ⟨noLink, List.forall_mem_cons.2 ⟨same ▸ isName, named⟩⟩
    · exact others (first :: rest) standing stands

theorem IsOrdinary.of_tidy {root : FileNode} (tidy : IsTidy root) {here : Location}
    (standsHere : root.stands here = some .directory) : IsOrdinary ⟨root, here⟩ := by
  refine ⟨⟨fun location target link => (tidy location _ link).1 target rfl, standsHere⟩,
    fun location something => ?_⟩
  obtain ⟨standing, stands⟩ := Option.ne_none_iff_exists'.1 something
  exact (tidy location standing stands).2

theorem Changes.ordinary {files after : Files} {path : FilePath} {location : Location}
    {standing : Option Standing} (change : files.Changes after location standing)
    (ordinary : files.IsOrdinary) (spot : files.spot? path = some location)
    (noLink : ∀ target, standing ≠ some (.link target)) : after.IsOrdinary := by
  refine ⟨change.plain ordinary.toIsPlain noLink, fun place something name member => ?_⟩
  by_cases same : place = location
  · obtain ⟨above, last, sound, isLast, _, lead, rfl⟩ := spot_iff.1 spot
    rw [same, List.mem_append, List.mem_singleton] at member
    rcases member with inAbove | rfl
    · exact ordinary.named above (by simp [leads_to_directory lead]) name inAbove
    · exact last_is_file_name sound isLast
  · rw [change.stands_elsewhere same] at something
    exact ordinary.named place something name member

theorem nodup_erase_dups (names : List String) : names.eraseDups.Nodup := by
  match names with
  | [] => exact List.nodup_nil
  | first :: rest =>
      rw [List.eraseDups_cons, List.nodup_cons, List.mem_eraseDups]
      exact ⟨by simp, nodup_erase_dups _⟩
termination_by names.length
decreasing_by exact Nat.lt_succ_of_le (List.length_filter_le _ _)

theorem names_ok {files : Files} {path : FilePath} {names : List String} (plain : files.IsPlain)
    (listed : files.names path = .ok names) :
    files.stands (files.placeOf path) = some .directory ∧ names.Nodup ∧
      ∀ name, name ∈ names ↔ files.stands (files.placeOf path ++ [name]) ≠ none := by
  rw [Files.names] at listed
  split at listed
  · rename_i location entries found
    obtain ⟨rfl, stands⟩ := node_place plain found
    cases listed
    refine ⟨stands_of_at stands, nodup_erase_dups _, fun name => ?_⟩
    rw [Files.stands, FileNode.stands, FileNode.at_child stands, FileNode.names,
      List.mem_eraseDups, FileNode.child?, FileNode.entries, ← Option.isSome_iff_ne_none,
      Option.isSome_map, List.lookup_isSome_iff, List.mem_map]
    simp only [beq_iff_eq, @eq_comm _ name]
  · cases listed
  · cases listed

/-- The path goes through the location on its way, or ends there. -/
def Passes (files : Files) (path : FilePath) (location : Location) : Prop :=
  ∃ front, front <+: path.names ∧ front.foldl turn (files.origin path) = location

/-- Some directories that a path goes through have been made, and nothing else has changed. -/
structure Paved (path : FilePath) (files after : Files) : Prop where
  here : after.here = files.here
  kept : ∀ location, files.stands location ≠ none → after.stands location = files.stands location
  made : ∀ location, files.stands location = none → after.stands location ≠ none →
    after.stands location = some .directory ∧ files.Passes path location

namespace Paved

variable {files after : Files} {path : FilePath}

theorem refl (path : FilePath) (files : Files) : Paved path files files :=
  ⟨rfl, fun _ _ => rfl, fun _ vacant something => absurd vacant something⟩

theorem directory (paved : Paved path files after) {location : Location}
    (isDirectory : files.stands location = some .directory) :
    after.stands location = some .directory := by
  rw [paved.kept location (by simp [isDirectory]), isDirectory]

theorem keeps (paved : Paved path files after) : files.Keeps after :=
  ⟨paved.here, fun _ => paved.directory⟩

theorem file_at (paved : Paved path files after) (location : Location) :
    after.fileAt? location = files.fileAt? location := by
  by_cases vacant : files.stands location = none
  · rw [file_at_vacant vacant]
    by_cases still : after.stands location = none
    · exact file_at_vacant still
    · exact file_at_none (by simp [(paved.made location vacant still).1])
  · exact file_at_of_stands (paved.kept location vacant)

theorem unchanged (paved : Paved path files after) {location : Location}
    (notMade : files.stands location = none → after.stands location ≠ some .directory) :
    after.stands location = files.stands location := by
  by_cases vacant : files.stands location = none
  · by_contra differs
    have something : after.stands location ≠ none := fun still => differs (still.trans vacant.symm)
    exact notMade vacant (paved.made location vacant something).1
  · exact paved.kept location vacant

end Paved

section Passing

variable {files after : Files} {path : FilePath} {location : Location}

theorem passes_of_front {above : FilePath} (inFront : above.pieces <+: path.pieces)
    (named : above.names ≠ []) (passes : files.Passes above location) :
    files.Passes path location := by
  obtain ⟨front, isFront, rfl⟩ := passes
  have sameOrigin : files.origin path = files.origin above := by
    rw [origin, origin, FilePath.absolute_of_front inFront named]
  exact ⟨front, isFront.trans (inFront.filter _), by rw [sameOrigin]⟩

/-- A path that leads through directories goes through directories only. -/
theorem passes_directory (through : files.LeadsThrough path)
    (passes : files.Passes path location) : files.stands location = some .directory := by
  obtain ⟨front, ⟨rest, whole⟩, rfl⟩ := passes
  rw [LeadsThrough, ← whole, leads_append] at through
  obtain ⟨middle, lead, _⟩ := Option.bind_eq_some_iff.1 through
  rw [← leads_place lead, leads_to_directory lead]

theorem passes_join {name : String} (isName : IsFileName name)
    (passes : files.Passes (path.join ⟨name⟩) location) :
    files.Passes path location ∨ location = files.placeOf path ++ [name] := by
  obtain ⟨front, isFront, rfl⟩ := passes
  rw [join_name_names path isName, List.prefix_concat_iff] at isFront
  rw [join_name_origin files path isName]
  rcases isFront with rfl | isFront
  · rw [List.foldl_concat, ← placeOf, turn_down ⟨isName.2.1, isName.2.2.1⟩]
    exact .inr rfl
  · exact .inl ⟨front, isFront, rfl⟩

/-- Without double dots, the way to a place goes down to it. -/
theorem passes_above (noDots : ".." ∉ path.names) (passes : files.Passes path location) :
    location <+: files.placeOf path := by
  obtain ⟨front, ⟨rest, whole⟩, rfl⟩ := passes
  have down : ∀ names : List String, ".." ∉ names → ∀ place, place <+: names.foldl turn place := by
    intro names noDots
    induction names with
    | nil => exact fun place => List.prefix_rfl
    | cons name rest induction =>
        intro place
        rw [List.mem_cons, not_or] at noDots
        have step : place <+: turn place name := by
          rw [turn, if_neg (Ne.symm noDots.1)]
          split
          · exact List.prefix_rfl
          · exact List.prefix_append place [name]
        exact step.trans (induction noDots.2 _)
  rw [placeOf, ← whole, List.foldl_append]
  rw [← whole, List.mem_append, not_or] at noDots
  exact down rest noDots.2 _

/-- Below a path that leads through directories, only the last place may be made. -/
theorem Paved.elsewhere {name : String} (paved : Paved (path.join ⟨name⟩) files after)
    (isName : IsFileName name) (through : files.LeadsThrough path)
    (apart : location ≠ files.placeOf path ++ [name]) :
    after.stands location = files.stands location := by
  apply paved.unchanged
  intro vacant made
  rcases passes_join isName (paved.made location vacant (by simp [made])).2 with passes | last
  · rw [passes_directory through passes] at vacant
    cases vacant
  · exact apart last

theorem Paved.of_parent {parent : FilePath} (plain : files.IsPlain)
    (above : path.parent? = some parent) (paved : Paved parent files after) :
    Paved path files after := by
  refine ⟨paved.here, paved.kept, fun location vacant something => ?_⟩
  obtain ⟨made, passes⟩ := paved.made location vacant something
  refine ⟨made, ?_⟩
  by_cases nameless : parent.names = []
  · obtain ⟨front, isFront, rfl⟩ := passes
    rw [nameless, List.prefix_nil] at isFront
    rw [isFront, List.foldl_nil, origin_stands plain parent] at vacant
    cases vacant
  · rcases FilePath.parent_pieces above with same | inFront
    · exact absurd same nameless
    · exact passes_of_front inFront nameless passes

end Passing

theorem create_directories_paves {files : Files} (ordinary : files.IsOrdinary) (path : FilePath) :
    (files.afterCall (createDirectories path)).IsOrdinary ∧
      Paved path files (files.afterCall (createDirectories path)) := by
  rw [createDirectories]
  split
  · exact ⟨ordinary, .refl path files⟩
  · refine @create_directories_keeps (fun after => after.IsOrdinary ∧ Paved path files after) path
      (fun after holds => holds.1.toIsPlain) (fun above inFront middle after holds makes => ?_)
      files ⟨ordinary, .refl path files⟩ _ (List.Subset.refl _)
    obtain ⟨middleOrdinary, paved⟩ := holds
    obtain ⟨location, spot, vacant, change⟩ := makes
    refine ⟨change.ordinary middleOrdinary spot (by simp), change.here.trans paved.here, ?_, ?_⟩
    · intro place something
      have stays : middle.stands place = files.stands place := paved.kept place something
      rw [change.stands_elsewhere, stays]
      rintro rfl
      rw [stays] at vacant
      exact something vacant
    · intro place wasVacant something
      by_cases same : place = location
      · subst same
        refine ⟨change.stands_at, ?_⟩
        obtain ⟨_, name, _, last, _⟩ := spot_iff.1 spot
        have named : above.names ≠ [] := by
          rw [names_of_last_name last]
          simp
        apply passes_of_front inFront named
        rw [spot_place spot, place_of_here paved.here]
        exact ⟨above.names, List.prefix_rfl, rfl⟩
      · rw [change.stands_elsewhere same] at something ⊢
        exact paved.made place wasVacant something

theorem create_chain_ok {files after : Files} {path : FilePath} {above : List FilePath}
    (plain : files.IsPlain)
    (made : (createChain (path :: above)).outcome files = (.ok (), after)) :
    after.LeadsThrough path := by
  have makes : ∀ before after : Files, before.IsPlain →
      (createDirectory path).outcome before = (.ok (), after) → after.LeadsThrough path := by
    intro before after plain created
    have done : Makes path before (before.afterCall (createDirectory path)) :=
      create_directory_ok plain (by rw [Accepts, created])
    rw [afterCall, created] at done
    obtain ⟨location, spot, _, change⟩ := done
    exact .of_leads (leads_of_spot (change.keeps.spot spot) change.stands_at)
  rw [createChain, Attempt.of, Attempt.outcome] at made
  split at made
  · rename_i created
    cases made
    exact makes files after plain created
  · split at made
    · cases made
    · split at made
      · cases made
      · rename_i middle higher
        have kept := @create_chain_keeps IsPlain above (fun _ holds => holds)
          (fun _ _ _ _ holds makes => makes.plain holds) files plain
        rw [afterCall, higher] at kept
        split at made
        · rename_i created
          cases made
          exact makes middle after kept created
        · split at made
          · rename_i isDirectory
            cases made
            exact is_directory_through kept isDirectory
          · cases made
  · split at made
    · rename_i isDirectory
      cases made
      exact is_directory_through plain isDirectory
    · cases made

theorem create_directories_ok {files after : Files} {path : FilePath} (plain : files.IsPlain)
    (made : (createDirectories path).outcome files = (.ok (), after)) :
    after.LeadsThrough path := by
  rw [createDirectories] at made
  split at made
  · rename_i empty
    cases made
    apply LeadsThrough.of_leads
    rw [FilePath.nameless_of_empty empty, leads, if_pos (origin_stands plain path)]
  · obtain ⟨above, chain⟩ := chain_above_head path path.components.length
    rw [chain] at made
    exact create_chain_ok plain made

theorem bytes_at_of_file {files : Files} {location : Location} {contents : ByteArray}
    {executable : Bool} (isFile : files.stands location = some (.file contents executable)) :
    files.bytesAt location = contents := by
  obtain ⟨node, found, standing⟩ := at_of_stands isFile
  rw [bytesAt, found]
  cases node with
  | file other bits =>
      cases standing
      rfl
  | directory entries => cases standing
  | link target => cases standing

theorem write_target_no_slash {files : Files} {path : FilePath} {location : Location}
    {executable : Option Bool} (found : files.writeTarget path = .ok (location, executable)) :
    (lastName path).slash = false := by
  rw [← Bool.not_eq_true]
  intro slash
  rw [writeTarget] at found
  split at found
  · cases found
  · simp only [slash, Bool.true_or, if_true] at found
    split at found <;> cases found

/-- A file put where no directory stood is what stands there, and nothing else changes. -/
theorem changes_of_put {files : Files} {above : Location} {name : String}
    (isDirectory : files.stands above = some .directory)
    (free : files.stands (above ++ [name]) ≠ some .directory) (contents : ByteArray)
    (executable : Bool) :
    files.Changes (files.put (above ++ [name]) (.file contents executable)) (above ++ [name])
      (some (.file contents executable)) :=
  ⟨rfl, free, stands_put_bare isDirectory free
    (FileNode.bare_of_not_directory (by simp [FileNode.standing]))⟩

theorem copy_file_ok {files after : Files} {source target : FilePath} (plain : files.IsPlain)
    (copied : (copyFile source target).outcome files = (.ok (), after)) :
    ∃ contents executable,
      files.stands (files.placeOf source) = some (.file contents executable) ∧
      files.spot? target = some (files.placeOf target) ∧
      files.Changes after (files.placeOf target)
        (some (.file (if files.placeOf source = files.placeOf target then ByteArray.empty
          else contents) executable)) := by
  have accepted : files.Accepts (copyFile source target) := by rw [Accepts, copied]
  have taken : _ = Except.ok (files.afterCall (copyFile source target)) := changing_ok accepted
  rw [afterCall, copied] at taken
  obtain ⟨⟨origin, executable⟩, opened, taken⟩ := except_bind_ok taken
  obtain ⟨⟨location, old⟩, writable, taken⟩ := except_bind_ok taken
  obtain ⟨contents, isFile, rfl⟩ : ∃ contents,
      files.stands (files.placeOf source) = some (.file contents executable) ∧
        origin = files.placeOf source := by
    rw [openForCopy] at opened
    split at opened
    · rename_i place contents bits found
      cases opened
      obtain ⟨rfl, stands⟩ := node_place plain found
      exact ⟨contents, stands_of_at stands, rfl⟩
    · cases opened
    · cases opened
  obtain ⟨spot, free, _⟩ := write_target_ok plain (write_target_no_slash writable) writable
  have isPlace := spot_place spot
  obtain ⟨above, name, _, _, _, lead, rfl⟩ := spot_iff.1 spot
  have isDirectory := leads_to_directory lead
  -- The target is emptied before the source is read.
  have emptied := changes_of_put isDirectory free ByteArray.empty executable
  have bytes : (files.put (above ++ [name]) (.file ByteArray.empty executable)).bytesAt
      (files.placeOf source) =
        if files.placeOf source = above ++ [name] then ByteArray.empty else contents := by
    split
    · rename_i same
      rw [same]
      exact bytes_at_of_file emptied.stands_at
    · rename_i apart
      exact bytes_at_of_file ((emptied.stands_elsewhere apart).trans isFile)
  have stillFree : (files.put (above ++ [name]) (.file ByteArray.empty executable)).stands
      (above ++ [name]) ≠ some .directory := by
    rw [emptied.stands_at]
    simp
  have written := changes_of_put (emptied.keeps.directory above isDirectory) stillFree
    (if files.placeOf source = above ++ [name] then ByteArray.empty else contents) executable
  cases taken
  rw [bytes]
  refine ⟨contents, executable, isFile, isPlace ▸ spot, ?_⟩
  rw [← isPlace]
  exact ⟨rfl, free, written.stands.trans (by rw [emptied.stands, Function.update_idem])⟩

end Files

end PipelineWaves
