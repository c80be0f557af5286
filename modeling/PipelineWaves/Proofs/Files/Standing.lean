import Mathlib.Data.List.Basic
import Mathlib.Logic.Function.Basic
import PipelineWaves.Dictionary
import PipelineWaves.Files.Call

/-!
# What stands where

A tree seen as a map from locations to what stands there: a file with its
contents, a link or a directory. Nothing stands below what is not a directory.
Putting a node into a directory and taking a node away are changes of this map
at one location and below it.
-/

set_option autoImplicit false

namespace PipelineWaves

/-- What a node is, without what lies in it. -/
inductive Standing where
  | file (contents : ByteArray) (executable : Bool)
  | link (target : String)
  | directory

/-- Only whether a directory stands somewhere is ever decided. -/
instance : (standing : Option Standing) → Decidable (standing = some .directory)
  | some .directory => isTrue rfl
  | some (.file _ _) => isFalse fun same => by cases same
  | some (.link _) => isFalse fun same => by cases same
  | none => isFalse fun same => by cases same

namespace FileNode

def standing : FileNode → Standing
  | .file contents executable => .file contents executable
  | .link target => .link target
  | .directory _ => .directory

/-- What stands at a location below a node. -/
def stands (root : FileNode) (location : Location) : Option Standing :=
  (root.at? location).map standing

@[simp] theorem stands_nil (root : FileNode) : root.stands [] = some root.standing := rfl

theorem stands_cons (root : FileNode) (name : String) (rest : Location) :
    root.stands (name :: rest) = (root.child? name).bind fun child => child.stands rest := by
  rw [stands, at?]
  cases root.child? name <;> rfl

theorem stands_entry (name other : String) (child : FileNode) (entries : List (String × FileNode))
    (rest : Location) : (FileNode.directory ((name, child) :: entries)).stands (other :: rest) =
      if other = name then child.stands rest
      else (FileNode.directory entries).stands (other :: rest) := by
  rw [stands_cons, stands_cons, child?, child?, FileNode.entries, FileNode.entries, List.lookup_cons]
  split_ifs with same
  · simp [same]
  · simp [beq_false_of_ne same]

theorem is_directory_iff {node : FileNode} :
    node.isDirectory = true ↔ node.standing = .directory := by
  cases node <;> simp [isDirectory, standing]

theorem at_append (root : FileNode) (above rest : Location) :
    root.at? (above ++ rest) = (root.at? above).bind fun node => node.at? rest := by
  induction above generalizing root with
  | nil => rfl
  | cons name above induction =>
      rw [List.cons_append, at?, at?]
      cases root.child? name with
      | none => rfl
      | some child => exact induction child

theorem stands_append (root : FileNode) (above rest : Location) :
    root.stands (above ++ rest) = (root.at? above).bind fun node => node.stands rest := by
  rw [stands, at_append]
  cases root.at? above <;> rfl

theorem at_child {root node : FileNode} {above : Location} (stands : root.at? above = some node)
    (name : String) : root.at? (above ++ [name]) = node.child? name := by
  rw [at_append, stands, Option.bind_some, at?]
  cases node.child? name <;> rfl

theorem child_of_not_directory {node : FileNode} (other : node.standing ≠ .directory)
    (name : String) : node.child? name = none := by
  cases node with
  | directory entries => exact absurd rfl other
  | file contents executable => rfl
  | link target => rfl

/-- Only a directory has something below it. -/
theorem directory_above {root : FileNode} {above rest : Location} (below : rest ≠ [])
    (something : root.stands (above ++ rest) ≠ none) : root.stands above = some .directory := by
  rw [stands_append] at something
  rw [stands]
  cases stands : root.at? above with
  | none => simp [stands] at something
  | some node =>
      rw [stands, Option.bind_some] at something
      cases rest with
      | nil => exact absurd rfl below
      | cons name rest =>
          by_contra other
          rw [stands_cons, child_of_not_directory (by simpa using other)] at something
          exact something rfl

theorem nothing_below {root : FileNode} {above : Location}
    (other : root.stands above ≠ some .directory) {rest : Location} (below : rest ≠ []) :
    root.stands (above ++ rest) = none := by
  by_contra something
  exact other (directory_above below something)

theorem lookup_with_entry (name other : String) (node : FileNode)
    (entries : List (String × FileNode)) :
    (withEntry name node entries).lookup other =
      if other = name then some node else entries.lookup other := by
  induction entries with
  | nil => rw [withEntry, lookup_cons_eq_if]
  | cons entry rest induction =>
      obtain ⟨key, value⟩ := entry
      rw [withEntry]
      by_cases replaced : key = name
      · rw [if_pos replaced, lookup_cons_eq_if, lookup_cons_eq_if, replaced]
        by_cases same : other = name <;> simp [same]
      · rw [if_neg replaced, lookup_cons_eq_if, lookup_cons_eq_if, induction]
        by_cases same : other = name
        · have kept : ¬ name = key := fun equal => replaced equal.symm
          simp [same, kept]
        · simp [same]

theorem lookup_without_entry (name other : String) (entries : List (String × FileNode)) :
    (withoutEntry name entries).lookup other =
      if other = name then none else entries.lookup other := by
  rw [withoutEntry]
  induction entries with
  | nil => simp
  | cons entry rest induction =>
      obtain ⟨key, value⟩ := entry
      by_cases dropped : key = name
      · rw [List.filter_cons_of_neg (by simp [dropped]), induction, lookup_cons_eq_if, dropped]
        by_cases same : other = name <;> simp [same]
      · rw [List.filter_cons_of_pos (by simp [dropped]), lookup_cons_eq_if, lookup_cons_eq_if,
          induction]
        by_cases same : other = name
        · have kept : ¬ name = key := fun equal => dropped equal.symm
          simp [same, kept]
        · simp [same]

theorem put_below {entries : List (String × FileNode)} {name : String} {child : FileNode}
    (known : entries.lookup name = some child) (new : FileNode) {rest : Location}
    (deeper : rest ≠ []) :
    put new (.directory entries) (name :: rest) =
      .directory (withEntry name (put new child rest) entries) := by
  cases rest with
  | nil => exact absurd rfl deeper
  | cons next rest => simp [put, known]

theorem stands_directory (entries : List (String × FileNode)) (name : String) (rest : Location) :
    (directory entries).stands (name :: rest) =
      (entries.lookup name).bind fun child => child.stands rest :=
  stands_cons _ _ _

theorem stands_put (new : FileNode) (name : String) (location : Location) {root : FileNode}
    {above : Location} (isDirectory : root.stands above = some .directory) :
    (put new root (above ++ [name])).stands location =
      if above ++ [name] <+: location then new.stands (location.drop (above.length + 1))
      else root.stands location := by
  induction above generalizing root location with
  | nil =>
      cases root with
      | file contents executable => simp [standing] at isDirectory
      | link target => simp [standing] at isDirectory
      | directory entries =>
          rw [List.nil_append, put]
          cases location with
          | nil => simp [standing]
          | cons first rest =>
              rw [stands_directory, lookup_with_entry]
              by_cases same : first = name
              · simp [same]
              · have apart : ¬ name = first := fun equal => same equal.symm
                simp [same, apart, stands_directory]
  | cons top above induction =>
      cases root with
      | file contents executable => simp [stands_cons, child?, entries] at isDirectory
      | link target => simp [stands_cons, child?, entries] at isDirectory
      | directory entries =>
          rw [stands_directory] at isDirectory
          cases known : entries.lookup top with
          | none => simp [known] at isDirectory
          | some child =>
              rw [known, Option.bind_some] at isDirectory
              rw [List.cons_append, put_below known new (by simp)]
              cases location with
              | nil => simp [standing]
              | cons first rest =>
                  rw [stands_directory, lookup_with_entry]
                  by_cases same : first = top
                  · subst same
                    simp [stands_directory, known, induction rest isDirectory]
                  · have apart : ¬ top = first := fun equal => same equal.symm
                    simp [same, apart, stands_directory]

theorem remove_below (entries : List (String × FileNode)) (name : String) {rest : Location}
    (deeper : rest ≠ []) :
    remove (.directory entries) (name :: rest) =
      match entries.lookup name with
      | some child => .directory (withEntry name (child.remove rest) entries)
      | none => .directory entries := by
  cases rest with
  | nil => exact absurd rfl deeper
  | cons next rest => rfl

theorem stands_remove (root : FileNode) {gone : Location} (inner : gone ≠ [])
    (location : Location) :
    (root.remove gone).stands location =
      if gone <+: location then none else root.stands location := by
  induction gone generalizing root location with
  | nil => exact absurd rfl inner
  | cons name gone induction =>
      cases root with
      | file contents executable =>
          cases location with
          | nil => simp [remove]
          | cons first rest => simp [remove, stands_cons, child?, entries]
      | link target =>
          cases location with
          | nil => simp [remove]
          | cons first rest => simp [remove, stands_cons, child?, entries]
      | directory entries =>
          cases location with
          | nil =>
              cases gone with
              | nil => simp [remove, standing]
              | cons next gone =>
                  rw [remove_below entries name (by simp)]
                  cases entries.lookup name <;> simp [standing]
          | cons first rest =>
              rw [stands_directory]
              by_cases last : gone = []
              · subst last
                rw [remove, stands_directory, lookup_without_entry]
                by_cases same : first = name
                · simp [same]
                · have apart : ¬ name = first := fun equal => same equal.symm
                  simp [same, apart]
              · rw [remove_below entries name last]
                cases known : entries.lookup name with
                | none =>
                    rw [stands_directory]
                    by_cases same : first = name
                    · simp [same, known]
                    · have apart : ¬ name = first := fun equal => same equal.symm
                      simp [apart]
                | some child =>
                    dsimp only
                    rw [stands_directory, lookup_with_entry]
                    by_cases same : first = name
                    · subst same
                      simp [known, induction child last rest]
                    · have apart : ¬ name = first := fun equal => same equal.symm
                      simp [same, apart]

/-- A node without anything below it. -/
def IsBare (node : FileNode) : Prop := ∀ rest, rest ≠ [] → node.stands rest = none

theorem bare_of_not_directory {node : FileNode} (other : node.standing ≠ .directory) :
    node.IsBare := by
  intro rest below
  have outer : node.stands [] ≠ some .directory := by simpa using other
  simpa using nothing_below outer below

theorem bare_of_empty_directory : emptyDirectory.IsBare := by
  intro rest below
  cases rest with
  | nil => exact absurd rfl below
  | cons name rest => rfl

end FileNode

namespace Files

/-- What stands at a location of a tree. -/
def stands (files : Files) (location : Location) : Option Standing := files.root.stands location

theorem stands_of_at {files : Files} {location : Location} {node : FileNode}
    (found : files.root.at? location = some node) :
    files.stands location = some node.standing := by
  rw [stands, FileNode.stands, found, Option.map_some]

theorem at_of_stands {files : Files} {location : Location} {standing : Standing}
    (stands : files.stands location = some standing) :
    ∃ node, files.root.at? location = some node ∧ node.standing = standing := by
  rw [Files.stands, FileNode.stands] at stands
  exact Option.map_eq_some_iff.1 stands

theorem directory_above {files : Files} {above rest : Location} (below : rest ≠ [])
    (something : files.stands (above ++ rest) ≠ none) : files.stands above = some .directory :=
  FileNode.directory_above below something

theorem nothing_below {files : Files} {above location : Location}
    (other : files.stands above ≠ some .directory) (inside : above <+: location)
    (differs : location ≠ above) : files.stands location = none := by
  obtain ⟨rest, rfl⟩ := inside
  apply FileNode.nothing_below other
  intro same
  exact differs (by rw [same, List.append_nil])

theorem vacant_below {files : Files} {above location : Location}
    (vacant : files.stands above = none) (inside : above <+: location) :
    files.stands location = none := by
  by_cases same : location = above
  · rw [same, vacant]
  · exact nothing_below (by simp [vacant]) inside same

/-- No location of a tree has a name in it. -/
def Lacks (files : Files) (name : String) : Prop :=
  ∀ location, name ∈ location → files.stands location = none

/-- A single node put where no directory stood changes the tree at its location only. -/
theorem stands_put_bare {files : Files} {above : Location} {name : String} {node : FileNode}
    (isDirectory : files.stands above = some .directory)
    (free : files.stands (above ++ [name]) ≠ some .directory) (bare : node.IsBare) :
    (files.put (above ++ [name]) node).stands =
      Function.update files.stands (above ++ [name]) (some node.standing) := by
  funext location
  rw [stands, put, FileNode.stands_put node name location isDirectory]
  by_cases same : location = above ++ [name]
  · have none_left : (above ++ [name]).drop (above.length + 1) = [] := by simp
    rw [same, if_pos List.prefix_rfl, none_left, Function.update_self, FileNode.stands_nil]
  · rw [Function.update_of_ne same]
    split
    · rename_i inside
      rw [nothing_below free inside same]
      obtain ⟨rest, rfl⟩ := inside
      have dropped : (above ++ [name] ++ rest).drop (above.length + 1) = rest := by
        rw [show above.length + 1 = (above ++ [name]).length by simp, List.drop_left]
      rw [dropped]
      apply bare
      intro nothing
      exact same (by rw [nothing, List.append_nil])
    · rfl

theorem stands_remove {files : Files} {gone : Location} (inner : gone ≠ [])
    (location : Location) :
    (files.remove gone).stands location =
      if gone <+: location then none else files.stands location :=
  FileNode.stands_remove files.root inner location

/-- Where no directory stands, taking away changes the tree at one location only. -/
theorem stands_remove_bare {files : Files} {gone : Location} (inner : gone ≠ [])
    (other : files.stands gone ≠ some .directory) :
    (files.remove gone).stands = Function.update files.stands gone none := by
  funext location
  rw [stands_remove inner]
  by_cases same : location = gone
  · rw [same, if_pos List.prefix_rfl, Function.update_self]
  · rw [Function.update_of_ne same]
    split
    · rename_i inside
      exact (nothing_below other inside same).symm
    · rfl

/-- The regular file at a location: its contents and whether it is executable. -/
def fileAt? (files : Files) (location : Location) : Option (ByteArray × Bool) :=
  match files.root.at? location with
  | some (.file contents executable) => some (contents, executable)
  | _ => none

theorem file_at_iff {files : Files} {location : Location} {file : ByteArray × Bool} :
    files.fileAt? location = some file ↔
      files.stands location = some (.file file.1 file.2) := by
  rw [fileAt?, stands, FileNode.stands]
  obtain ⟨contents, executable⟩ := file
  cases files.root.at? location with
  | none => simp
  | some node => cases node <;> simp [FileNode.standing]

theorem file_at_of_file {files : Files} {location : Location} {contents : ByteArray}
    {executable : Bool} (isFile : files.stands location = some (.file contents executable)) :
    files.fileAt? location = some (contents, executable) :=
  file_at_iff.2 isFile

/-- Files at two locations are alike if what stands there is. -/
theorem file_at_of_stands {files other : Files} {location place : Location}
    (same : files.stands location = other.stands place) :
    files.fileAt? location = other.fileAt? place := by
  apply Option.ext
  intro file
  simp only [file_at_iff, same]

theorem file_at_none {files : Files} {location : Location}
    (noFile : ∀ contents executable, files.stands location ≠ some (.file contents executable)) :
    files.fileAt? location = none := by
  by_contra something
  obtain ⟨file, found⟩ := Option.ne_none_iff_exists'.1 something
  exact noFile file.1 file.2 (file_at_iff.1 found)

theorem file_at_vacant {files : Files} {location : Location}
    (vacant : files.stands location = none) : files.fileAt? location = none :=
  file_at_none (by simp [vacant])

end Files

end PipelineWaves
