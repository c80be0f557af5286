import Mathlib
import PipelineWaves.Proofs.Files.Change

/-!
# Places of paths

In a tree without links a path has one place, told by its names alone: a dot stays, two dots
go up, and any other name goes down. Wherever a call arrives by the path, it arrives there,
whether or not something stands there yet.
-/

set_option autoImplicit false

namespace PipelineWaves

namespace Files

/-- Where one name leads from a place. -/
def turn (place : Location) (name : String) : Location :=
  if name = "." then place else if name = ".." then place.dropLast else place ++ [name]

/-- Where the names of a path lead, whatever stands there. -/
def placeOf (files : Files) (path : FilePath) : Location :=
  path.names.foldl turn (files.origin path)

theorem turn_down {place : Location} {name : String} (notDots : name ≠ "." ∧ name ≠ "..") :
    turn place name = place ++ [name] := by
  rw [turn, if_neg notDots.1, if_neg notDots.2]

section Places

variable {files after : Files} {path : FilePath}

theorem place_of_here (same : after.here = files.here) (path : FilePath) :
    after.placeOf path = files.placeOf path := by
  rw [placeOf, placeOf, origin, origin, same]

theorem leads_place {place location : Location} {names : List String}
    (lead : files.leads place names = some location) : location = names.foldl turn place := by
  induction names generalizing place with
  | nil =>
      rw [leads] at lead
      split_ifs at lead
      exact (Option.some.inj lead).symm
  | cons name rest induction =>
      rw [leads] at lead
      rw [List.foldl_cons, turn]
      split_ifs at lead ⊢
      · exact induction lead
      · exact induction lead
      · exact induction lead

theorem spot_place {location : Location} (spot : files.spot? path = some location) :
    location = files.placeOf path := by
  obtain ⟨above, name, _, last, _, lead, rfl⟩ := spot_iff.1 spot
  obtain ⟨_, notDot, notDots⟩ := last_name_some.1 last
  rw [placeOf, names_of_last_name last, List.foldl_concat, turn_down ⟨notDot, notDots⟩,
    leads_place lead]

/-- Paths start from directories. -/
theorem origin_stands (plain : files.IsPlain) (path : FilePath) :
    files.stands (files.origin path) = some .directory := by
  rw [origin]
  split
  · by_cases top : files.here = []
    · rw [← top, plain.standsHere]
    · apply directory_above top
      rw [List.nil_append, plain.standsHere]
      simp
  · exact plain.standsHere

end Places

section Walking

variable {files : Files} {followLast : Bool} {trail reached : Walk.Trail} {name : String}
  {names rest : List String}

/-- What one name does to a walk without links: it ends the walk or goes on from its turn. -/
theorem along_turns (plain : files.IsPlain) (fits : Walk.Fits files.root trail)
    (followLast : Bool) (name : String) (rest : List String) :
    (∃ fault, Walk.along files.root followLast trail (name :: rest) = .refused fault) ∨
    Walk.along files.root followLast trail (name :: rest) = .vacant trail name ∨
    ∃ next, Walk.Fits files.root next ∧
      Walk.locationOf next = turn (Walk.locationOf trail) name ∧
      (name = "." ∨ name = ".." → (Walk.nodeOf files.root next).isDirectory = true) ∧
      files.leads (Walk.locationOf trail) (name :: rest) =
        files.leads (Walk.locationOf next) rest ∧
      Walk.along files.root followLast trail (name :: rest) =
        Walk.along files.root followLast next rest := by
  rw [Walk.along, turn, leads]
  cases node : Walk.nodeOf files.root trail with
  | file contents executable => exact .inl ⟨_, rfl⟩
  | link target => exact .inl ⟨_, rfl⟩
  | directory entries =>
      dsimp only
      have isDirectory : files.stands (Walk.locationOf trail) = some .directory :=
        stands_of_node fits node
      rw [if_neg (not_not_intro isDirectory)]
      by_cases dot : name = "."
      · simp only [if_pos dot]
        exact .inr (.inr ⟨trail, fits, rfl, fun _ => by rw [node]; rfl, rfl, rfl⟩)
      simp only [if_neg dot]
      by_cases dots : name = ".."
      · simp only [if_pos dots]
        have there := Walk.location_of_tail trail
        refine .inr (.inr ⟨trail.tail, fits.tail, there, fun _ => ?_, by rw [there], rfl⟩)
        cases trail with
        | nil => rw [List.tail_nil, node]; rfl
        | cons step above =>
            -- The node above another one has an entry, and so it is a directory.
            have below := fits.1
            rw [Walk.location_of_cons, FileNode.at_child fits.2.node] at below
            rw [List.tail_cons, FileNode.is_directory_iff]
            by_contra other
            rw [FileNode.child_of_not_directory other] at below
            cases below
      simp only [if_neg dots]
      by_cases long : name.utf8ByteSize > Walk.longestName
      · rw [if_pos long]
        exact .inl ⟨_, rfl⟩
      simp only [if_neg long]
      cases known : entries.lookup name with
      | none =>
          dsimp only
          split
          · exact .inr (.inl rfl)
          · exact .inl ⟨_, rfl⟩
      | some child =>
          have deeper : Walk.Fits files.root ((name, child) :: trail) :=
            fits.child (by rw [node]; exact known)
          have located := Walk.location_of_cons (name, child) trail
          have notDots : name = "." ∨ name = ".." →
              (Walk.nodeOf files.root ((name, child) :: trail)).isDirectory = true :=
            fun either => absurd either (not_or.2 ⟨dot, dots⟩)
          cases child with
          | file contents executable =>
              exact .inr (.inr ⟨_, deeper, located, notDots, by rw [located], rfl⟩)
          | directory inner =>
              exact .inr (.inr ⟨_, deeper, located, notDots, by rw [located], rfl⟩)
          | link target => exact absurd (stands_of_at deeper.node) (plain.noLink _ target)

section Arriving

variable (plain : files.IsPlain) (fits : Walk.Fits files.root trail)
include plain fits

theorem along_not_linked {above : Walk.Trail} {target : String} {others : List String} :
    Walk.along files.root followLast trail names ≠ .linked above target others := by
  induction names generalizing trail with
  | nil => simp [Walk.along]
  | cons name rest induction =>
      rcases along_turns plain fits followLast name rest with
        ⟨fault, refused⟩ | vacant | ⟨next, deeper, _, _, _, on⟩
      · simp [refused]
      · simp [vacant]
      · rw [on]
        exact induction deeper

theorem along_arrives
    (walked : Walk.along files.root followLast trail names = .arrived reached) :
    Walk.Fits files.root reached ∧
      Walk.locationOf reached = names.foldl turn (Walk.locationOf trail) := by
  induction names generalizing trail with
  | nil =>
      cases walked
      exact ⟨fits, rfl⟩
  | cons name rest induction =>
      rcases along_turns plain fits followLast name rest with
        ⟨fault, refused⟩ | vacant | ⟨next, deeper, there, _, _, on⟩
      · simp [refused] at walked
      · simp [vacant] at walked
      · rw [on] at walked
        rw [List.foldl_cons, ← there]
        exact induction deeper walked

/-- All names of a walk that ends at a directory are directories. -/
theorem along_leads
    (walked : Walk.along files.root followLast trail names = .arrived reached)
    (isDirectory : files.stands (Walk.locationOf reached) = some .directory) :
    files.leads (Walk.locationOf trail) names = some (Walk.locationOf reached) := by
  induction names generalizing trail with
  | nil =>
      cases walked
      rw [leads, if_pos isDirectory]
  | cons name rest induction =>
      rcases along_turns plain fits followLast name rest with
        ⟨fault, refused⟩ | vacant | ⟨next, deeper, _, _, lead, on⟩
      · simp [refused] at walked
      · simp [vacant] at walked
      · rw [on] at walked
        rw [lead]
        exact induction deeper walked

/-- A walk that ends at something other than a directory ends with a name of its own. -/
theorem along_arrives_last
    (walked : Walk.along files.root followLast trail names = .arrived reached)
    (other : (Walk.nodeOf files.root reached).isDirectory = false) (some : names ≠ []) :
    ∃ name, names.getLast? = Option.some name ∧ name ≠ "." ∧ name ≠ ".." := by
  induction names generalizing trail with
  | nil => exact absurd rfl some
  | cons name rest induction =>
      rcases along_turns plain fits followLast name rest with
        ⟨fault, refused⟩ | vacant | ⟨next, deeper, _, dots, _, on⟩
      · simp [refused] at walked
      · simp [vacant] at walked
      · rw [on] at walked
        by_cases last : rest = []
        · subst last
          cases walked
          refine ⟨name, rfl, fun dot => ?_, fun twoDots => ?_⟩
          · rw [dots (.inl dot)] at other
            cases other
          · rw [dots (.inr twoDots)] at other
            cases other
        · obtain ⟨first, others, rfl⟩ := List.exists_cons_of_ne_nil last
          rw [List.getLast?_cons_cons]
          exact induction deeper walked last

end Arriving

theorem sound_of_node {path : FilePath} {location : Location} {node : FileNode}
    (found : files.node? path = .ok (location, node)) : pathFault? path = none := by
  cases fault : pathFault? path with
  | none => rfl
  | some fault => simp [node?, walk, fault] at found

theorem walk_arrives {path : FilePath} {location : Location} {node : FileNode}
    (plain : files.IsPlain) (found : files.node? path = .ok (location, node)) :
    ∃ reached, Walk.along files.root true (files.startOf path) path.walkNames = .arrived reached ∧
      Walk.locationOf reached = location ∧ Walk.nodeOf files.root reached = node := by
  rw [node?, walk] at found
  split at found
  · rename_i place walked
    cases found
    split at walked
    · cases walked
    · rw [walkFrom] at walked
      split at walked
      · cases walked
      · rename_i reached arrived
        cases walked
        exact ⟨reached, arrived, rfl, rfl⟩
      · cases walked
      · rename_i above target rest linked
        exact absurd linked (along_not_linked plain (start_fits plain path).1)
  · cases found
  · cases found

/-- What a path leads to stands at its place. -/
theorem node_place {path : FilePath} {location : Location} {node : FileNode}
    (plain : files.IsPlain) (found : files.node? path = .ok (location, node)) :
    location = files.placeOf path ∧ files.root.at? location = some node := by
  obtain ⟨reached, walked, rfl, rfl⟩ := walk_arrives plain found
  obtain ⟨fits, start⟩ := start_fits plain path
  obtain ⟨reachedFits, there⟩ := along_arrives plain fits walked
  refine ⟨?_, reachedFits.node⟩
  rw [there, start, walk_names, List.foldl_append, placeOf]
  split
  · simp [turn]
  · rfl

theorem last_of_node {path : FilePath} {location : Location} {node : FileNode}
    (plain : files.IsPlain) (found : files.node? path = .ok (location, node))
    (other : node.isDirectory = false) :
    ∃ name, (lastName path).name = some name ∧ (lastName path).slash = false ∧
      location.getLast? = some name := by
  obtain ⟨reached, walked, rfl, rfl⟩ := walk_arrives plain found
  obtain ⟨fits, start⟩ := start_fits plain path
  have some : path.walkNames ≠ [] := by
    intro nothing
    rw [nothing] at walked
    cases walked
    obtain ⟨entries, node⟩ := entries_of_stands fits (start ▸ origin_stands plain path)
    rw [node] at other
    cases other
  obtain ⟨name, last, notDots⟩ := along_arrives_last plain fits walked other some
  have noSlash : (lastName path).slash = false := by
    rw [← Bool.not_eq_true]
    intro slash
    rw [walk_names, if_pos slash, List.getLast?_concat, Option.some_inj] at last
    exact notDots.1 last.symm
  have isWalk : path.walkNames = path.names := by simp [walk_names, noSlash]
  rw [isWalk] at last
  refine ⟨name, last_name_some.2 ⟨last, notDots⟩, noSlash, ?_⟩
  obtain ⟨front, spelled⟩ := List.getLast?_eq_some_iff.1 last
  rw [(along_arrives plain fits walked).2, isWalk, spelled, List.foldl_concat, turn_down notDots,
    List.getLast?_concat]

end Walking

/-- All names of the path are directories. -/
def LeadsThrough (files : Files) (path : FilePath) : Prop :=
  files.leads (files.origin path) path.names = some (files.placeOf path)

section Through

variable {files : Files} {path : FilePath}

theorem LeadsThrough.of_leads {location : Location}
    (lead : files.leads (files.origin path) path.names = some location) :
    files.LeadsThrough path := by
  rw [LeadsThrough, lead, leads_place lead, placeOf]

theorem LeadsThrough.directory (through : files.LeadsThrough path) :
    files.stands (files.placeOf path) = some .directory :=
  leads_to_directory through

theorem LeadsThrough.kept {after : Files} (through : files.LeadsThrough path)
    (keeps : files.Keeps after) : after.LeadsThrough path :=
  .of_leads (keeps.leads through)

theorem is_directory_through (plain : files.IsPlain)
    (isDirectory : files.isDirectory path = true) : files.LeadsThrough path := by
  rw [Files.isDirectory] at isDirectory
  split at isDirectory
  · rename_i location node found
    obtain ⟨reached, walked, rfl, rfl⟩ := walk_arrives plain found
    obtain ⟨fits, start⟩ := start_fits plain path
    obtain ⟨reachedFits, _⟩ := along_arrives plain fits walked
    have stands : files.stands (Walk.locationOf reached) = some .directory := by
      rw [stands_of_at reachedFits.node, FileNode.is_directory_iff.1 isDirectory]
    have lead := along_leads plain fits walked stands
    rw [start, walk_names, leads_append] at lead
    obtain ⟨middle, lead, _⟩ := Option.bind_eq_some_iff.1 lead
    exact .of_leads lead
  · cases isDirectory

end Through

end Files

/-- A name that a file or a directory can have. -/
def IsFileName (name : String) : Prop :=
  name ≠ "" ∧ name ≠ "." ∧ name ≠ ".." ∧ '/' ∉ name.toList ∧ '\x00' ∉ name.toList

instance (name : String) : Decidable (IsFileName name) :=
  inferInstanceAs (Decidable
    (name ≠ "" ∧ name ≠ "." ∧ name ≠ ".." ∧ '/' ∉ name.toList ∧ '\x00' ∉ name.toList))

namespace FilePath

theorem pieces_of_name {name : String} (isName : IsFileName name) :
    FilePath.pieces ⟨name⟩ = [name] := by
  have single := pieces_of_text (List.cons_ne_nil name []) (by simpa using isName.2.2.2.1)
  rwa [String.intercalate_singleton] at single

theorem inner_of_name {name : String} (isName : IsFileName name) : IsInner ⟨name⟩ := by
  intro piece member
  rw [pieces_of_name isName, List.mem_singleton] at member
  rw [member]
  exact ⟨isName.1, isName.2.1, isName.2.2.1⟩

theorem names_of_name {name : String} (isName : IsFileName name) :
    FilePath.names ⟨name⟩ = [name] := by
  rw [inner_names (inner_of_name isName), pieces_of_name isName]

end FilePath

namespace Files

section Joining

variable (files : Files) (path : FilePath) {name : String} (isName : IsFileName name)
include isName

theorem join_name_names : (path.join ⟨name⟩).names = path.names ++ [name] := by
  have relative := FilePath.inner_relative (FilePath.inner_of_name isName)
  by_cases empty : path.text = ""
  · have joined : path.join ⟨name⟩ = ⟨name⟩ := by simp [FilePath.join, empty]
    rw [joined, FilePath.names_of_name isName, FilePath.nameless_of_empty empty, List.nil_append]
  · rw [FilePath.names_join empty relative, FilePath.names_of_name isName]

theorem join_name_origin : files.origin (path.join ⟨name⟩) = files.origin path := by
  have relative := FilePath.inner_relative (FilePath.inner_of_name isName)
  rw [origin, origin]
  by_cases empty : path.text = ""
  · have joined : path.join ⟨name⟩ = ⟨name⟩ := by simp [FilePath.join, empty]
    rw [joined, relative]
    simp [FilePath.isAbsolute, empty]
  · rw [FilePath.absolute_join empty relative]

theorem place_of_join : files.placeOf (path.join ⟨name⟩) = files.placeOf path ++ [name] := by
  rw [placeOf, join_name_names path isName, join_name_origin files path isName, List.foldl_concat]
  exact turn_down ⟨isName.2.1, isName.2.2.1⟩

end Joining

theorem no_nul_of_sound {path : FilePath} (sound : pathFault? path = none) :
    '\x00' ∉ path.text.toList := by
  intro nul
  rw [pathFault?, if_pos (List.contains_iff_mem.2 nul)] at sound
  cases sound

theorem last_is_file_name {path : FilePath} {name : String} (sound : pathFault? path = none)
    (last : (lastName path).name = some name) : IsFileName name := by
  obtain ⟨isLast, notDot, notDots⟩ := last_name_some.1 last
  have member := List.mem_of_getLast? isLast
  rw [FilePath.names, List.mem_filter, decide_eq_true_eq] at member
  exact ⟨member.2, notDot, notDots, FilePath.slash_not_in_piece member.1,
    fun nul => no_nul_of_sound sound (FilePath.piece_within member.1 nul)⟩

end Files

end PipelineWaves
