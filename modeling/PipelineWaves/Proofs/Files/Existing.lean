import Mathlib.Data.List.Basic
import PipelineWaves.Proofs.Attempt
import PipelineWaves.Proofs.Files.Route

/-!
# Directories that exist

Making a directory that a path leads to changes nothing, whether or not the path leads
through links. Where a path leads to something, the names before its last one lead to the
directory that holds the last one.
-/

set_option autoImplicit false

namespace PipelineWaves

namespace Walk

/-- Names before others are walked to their end, up to a link, or not at all. -/
theorem along_splits (root : FileNode) (names : List String) (trail : Trail) :
    (∃ reached, ∀ more ≠ [], along root true trail (names ++ more) = along root true reached more) ∨
    (∃ above target others, ∀ more ≠ [],
      along root true trail (names ++ more) = .linked above target (others ++ more)) ∨
    ∀ more ≠ [], ∃ fault, along root true trail (names ++ more) = .refused fault := by
  induction names generalizing trail with
  | nil => exact .inl ⟨trail, fun more _ => rfl⟩
  | cons name rest induction =>
      simp only [List.cons_append, along]
      cases node : nodeOf root trail with
      | file contents executable => exact .inr (.inr fun more _ => ⟨_, rfl⟩)
      | link target => exact .inr (.inr fun more _ => ⟨_, rfl⟩)
      | directory entries =>
          dsimp only
          split_ifs with dot dots long
          · exact induction trail
          · exact induction trail.tail
          · exact .inr (.inr fun more _ => ⟨_, rfl⟩)
          · cases found : entries.lookup name with
            | none =>
                refine .inr (.inr fun more some => ⟨.missing, ?_⟩)
                simp [some]
            | some child =>
                cases child with
                | file contents executable => exact induction _
                | directory inner => exact induction _
                | link target => exact .inr (.inl ⟨trail, target, rest, fun more _ => by simp⟩)

end Walk

namespace Files

variable {files : Files}

theorem walk_from_congr {trail other : Walk.Trail} {names others : List String}
    (same : Walk.along files.root true trail names = Walk.along files.root true other others)
    (links : Nat) :
    files.walkFrom true links trail names = files.walkFrom true links other others := by
  rw [walkFrom, walkFrom, same]

/-- Names that come before others lead to the directory from which the others are walked. -/
theorem walk_splits {links : Nat} {trail : Walk.Trail} {names rest : List String}
    {place : Place} (more : rest ≠ [])
    (walked : files.walkFrom true links trail (names ++ rest) = .ok place) :
    ∃ left reached, files.walkFrom true left reached rest = .ok place ∧
      files.walkFrom true links trail (names ++ ["."]) = files.walkFrom true left reached ["."] := by
  -- By induction on the links that are left: a link starts new names before the same others.
  induction links generalizing trail names with
  | zero =>
      rcases Walk.along_splits files.root names trail with
        ⟨reached, same⟩ | ⟨above, target, others, same⟩ | refused
      · exact ⟨0, reached, walk_from_congr (same rest more) 0 ▸ walked,
          walk_from_congr (same ["."] (by simp)) 0⟩
      · rw [walkFrom, same rest more] at walked
        cases walked
      · obtain ⟨fault, refuses⟩ := refused rest more
        rw [walkFrom, refuses] at walked
        cases walked
  | succ links induction =>
      rcases Walk.along_splits files.root names trail with
        ⟨reached, same⟩ | ⟨above, target, others, same⟩ | refused
      · exact ⟨links + 1, reached, walk_from_congr (same rest more) _ ▸ walked,
          walk_from_congr (same ["."] (by simp)) _⟩
      · rw [walkFrom, same rest more] at walked
        rw [walkFrom, same ["."] (by simp)]
        dsimp only at walked ⊢
        split at walked
        · cases walked
        · rename_i named
          rw [← List.append_assoc] at walked
          rw [if_neg named, ← List.append_assoc]
          exact induction walked
      · obtain ⟨fault, refuses⟩ := refused rest more
        rw [walkFrom, refuses] at walked
        cases walked

theorem directory_of_walk {links : Nat} {trail : Walk.Trail} {name : String}
    {rest : List String} {place : Place}
    (walked : files.walkFrom true links trail (name :: rest) = .ok place) :
    ∃ entries, Walk.nodeOf files.root trail = .directory entries := by
  rw [walkFrom, Walk.along] at walked
  cases node : Walk.nodeOf files.root trail with
  | directory entries => exact ⟨entries, rfl⟩
  | file contents executable =>
      rw [node] at walked
      cases walked
  | link target =>
      rw [node] at walked
      cases walked

theorem walk_dot {entries : List (String × FileNode)} {trail : Walk.Trail}
    (node : Walk.nodeOf files.root trail = .directory entries) (links : Nat) :
    files.walkFrom true links trail ["."] =
      .ok (.node (Walk.locationOf trail) (.directory entries)) := by
  rw [walkFrom, Walk.along, node]
  simp only [if_pos, Walk.along, node]

/-- The first name of what is found is a name in the directory that it is walked from. -/
theorem lookup_of_walk {entries : List (String × FileNode)} {trail : Walk.Trail}
    (node : Walk.nodeOf files.root trail = .directory entries) {links : Nat} {name : String}
    {rest : List String} {location : Location} {found : FileNode}
    (notDots : ¬(name = "." ∨ name = ".."))
    (walked : files.walkFrom true links trail (name :: rest) = .ok (.node location found)) :
    ¬name.utf8ByteSize > Walk.longestName ∧ (entries.lookup name).isSome := by
  obtain ⟨notDot, notDoubleDot⟩ := not_or.1 notDots
  rw [walkFrom, Walk.along, node] at walked
  simp only [if_neg notDot, if_neg notDoubleDot] at walked
  by_cases long : name.utf8ByteSize > Walk.longestName
  · rw [if_pos long] at walked
    cases walked
  · refine ⟨long, ?_⟩
    rw [if_neg long] at walked
    cases known : entries.lookup name with
    | some child => rfl
    | none =>
        rw [known] at walked
        cases rest <;> cases walked

theorem walk_of_directory {path : FilePath} (stands : files.isDirectory path) :
    pathFault? path = none ∧ ∃ location entries,
      files.walkFrom true Walk.mostLinks (files.startOf path) path.walkNames =
        .ok (.node location (.directory entries)) := by
  rw [isDirectory, node?, walk] at stands
  cases fault : pathFault? path with
  | some fault => simp [fault] at stands
  | none =>
      refine ⟨rfl, ?_⟩
      simp only [fault] at stands
      split at stands
      · rename_i location node found
        split at found
        · rename_i location node walked
          cases found
          cases node with
          | directory entries => exact ⟨_, entries, walked⟩
          | file contents executable => cases stands
          | link target => cases stands
        · cases found
        · cases found
      · cases stands

theorem parent_of_existing {path : FilePath} (stands : files.isDirectory path) :
    ∃ location directory, files.parentOf path = .ok (location, directory, (lastName path).name) ∧
      ∀ name ∈ (lastName path).name,
        ¬name.utf8ByteSize > Walk.longestName ∧ (directory.child? name).isSome := by
  obtain ⟨noFault, location, entries, walked⟩ := walk_of_directory stands
  have parent : ∃ above inner,
      files.walkFrom true Walk.mostLinks (files.startOf path) ((lastName path).directory ++ ["."]) =
        .ok (.node above (.directory inner)) ∧
      ∀ name ∈ (lastName path).name,
        ¬name.utf8ByteSize > Walk.longestName ∧ (inner.lookup name).isSome := by
    rw [last_name_directory]
    rw [walk_names] at walked
    cases last : path.names.getLast? with
    | none =>
        have nameless := List.getLast?_eq_none_iff.1 last
        have noName : ∀ name ∈ (lastName path).name,
            ¬name.utf8ByteSize > Walk.longestName ∧ (entries.lookup name).isSome := by
          intro name isName
          rw [(last_name_some.1 isName).1] at last
          cases last
        rw [nameless, List.nil_append] at walked
        rw [nameless, List.dropLast_nil, List.nil_append]
        split at walked
        · exact ⟨location, entries, walked, noName⟩
        · rw [walkFrom, Walk.along] at walked
          obtain ⟨-, here⟩ := Place.node.inj (Except.ok.inj walked)
          exact ⟨_, entries, walk_dot here _, noName⟩
    | some last =>
        obtain ⟨front, spelled⟩ := List.getLast?_eq_some_iff.1 last
        rw [spelled, List.append_assoc] at walked
        obtain ⟨left, reached, rest, dots⟩ := walk_splits (by simp) walked
        obtain ⟨inner, here⟩ := directory_of_walk rest
        refine ⟨Walk.locationOf reached, inner, ?_, fun name isName => ?_⟩
        · rw [spelled, List.dropLast_concat, dots, walk_dot here]
        · obtain ⟨isLast, notDot, notDoubleDot⟩ := last_name_some.1 isName
          rw [last] at isLast
          cases isLast
          exact lookup_of_walk here (not_or.2 ⟨notDot, notDoubleDot⟩) rest
  obtain ⟨above, inner, found, known⟩ := parent
  refine ⟨above, .directory inner, ?_, known⟩
  rw [parentOf, noFault]
  simp only [found]

theorem create_directory_exists {path : FilePath} (isDirectory : files.isDirectory path) :
    (createDirectory path).outcome files = (.error .exists, files) := by
  obtain ⟨location, directory, parent, known⟩ := parent_of_existing isDirectory
  rw [createDirectory, changing, Attempt.of, Attempt.outcome, parent, except_ok_bind]
  dsimp only
  cases last : (lastName path).name with
  | none => rfl
  | some name =>
      obtain ⟨short, present⟩ := known name last
      simp only [if_neg short, if_pos present]

theorem create_directories_exists {path : FilePath} (isDirectory : files.isDirectory path) :
    (createDirectories path).outcome files = (.ok (), files) := by
  rw [createDirectories]
  split
  · rfl
  · obtain ⟨above, chain⟩ := chain_above_head path path.components.length
    rw [chain, createChain, Attempt.of, Attempt.outcome, create_directory_exists isDirectory]
    simp only [if_pos isDirectory]

end Files

end PipelineWaves
