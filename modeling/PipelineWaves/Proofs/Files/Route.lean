import PipelineWaves.Proofs.Files.Path
import PipelineWaves.Proofs.Files.Standing

/-!
# Routes through trees without links

Without links, names lead from directory to directory, and where they lead is
told by what stands where. `spot?` is the location that the last name of a path
has, whether or not anything stands there: everything that a call does to a path
it does at that location. A tree that keeps its directories keeps its routes.
-/

set_option autoImplicit false

namespace PipelineWaves

namespace Walk

/-- Every node of a trail stands where the names say. -/
def Fits (root : FileNode) : Trail → Prop
  | [] => True
  | step :: above => root.at? (locationOf (step :: above)) = some step.2 ∧ Fits root above

theorem location_of_cons (step : String × FileNode) (above : Trail) :
    locationOf (step :: above) = locationOf above ++ [step.1] := by
  simp [locationOf]

theorem location_of_tail (trail : Trail) :
    locationOf trail.tail = (locationOf trail).dropLast := by
  cases trail with
  | nil => rfl
  | cons step above => rw [location_of_cons, List.dropLast_concat, List.tail_cons]

theorem Fits.tail {root : FileNode} {trail : Trail} (fits : Fits root trail) :
    Fits root trail.tail := by
  cases trail with
  | nil => exact fits
  | cons step above => exact fits.2

theorem Fits.node {root : FileNode} {trail : Trail} (fits : Fits root trail) :
    root.at? (locationOf trail) = some (nodeOf root trail) := by
  cases trail with
  | nil => rfl
  | cons step above => exact fits.1

theorem Fits.child {root child : FileNode} {trail : Trail} {name : String}
    (fits : Fits root trail) (known : (nodeOf root trail).child? name = some child) :
    Fits root ((name, child) :: trail) := by
  refine ⟨?_, fits⟩
  rw [location_of_cons, FileNode.at_child fits.node]
  exact known

end Walk

namespace Walk

/-- One name further down a trail, if a node has that name. -/
def further (root : FileNode) (trail : Trail) (name : String) : Trail :=
  match (nodeOf root trail).child? name with
  | some child => (name, child) :: trail
  | none => trail

theorem Fits.further {root : FileNode} {trail : Trail} {rest : Location} (fits : Fits root trail)
    (found : root.at? (locationOf trail ++ rest) ≠ none) :
    Fits root (rest.foldl (Walk.further root) trail) ∧
      locationOf (rest.foldl (Walk.further root) trail) = locationOf trail ++ rest := by
  induction rest generalizing trail with
  | nil => exact ⟨fits, (List.append_nil _).symm⟩
  | cons name rest induction =>
      rw [List.foldl_cons, Walk.further]
      cases known : (nodeOf root trail).child? name with
      | none =>
          rw [FileNode.at_append, fits.node, Option.bind_some, FileNode.at?, known] at found
          exact absurd rfl found
      | some child =>
          have deeper : locationOf trail ++ name :: rest =
              locationOf ((name, child) :: trail) ++ rest := by
            rw [location_of_cons, List.append_assoc, List.singleton_append]
          rw [deeper] at found ⊢
          exact induction (fits.child known) found

end Walk

namespace Files

/-- A tree without links in which the directory that paths start from exists. -/
structure IsPlain (files : Files) : Prop where
  noLink : ∀ location target, files.stands location ≠ some (.link target)
  standsHere : files.stands files.here = some .directory

/-- Where names lead from a place when all of them are directories. -/
def leads (files : Files) : Location → List String → Option Location
  | place, [] => if files.stands place = some .directory then some place else none
  | place, name :: rest =>
      if files.stands place ≠ some .directory then none
      else if name = "." then files.leads place rest
      else if name = ".." then files.leads place.dropLast rest
      else if name.utf8ByteSize > Walk.longestName then none
      else files.leads (place ++ [name]) rest

/-- Where the names of a path start. -/
def origin (files : Files) (path : FilePath) : Location :=
  if path.isAbsolute then [] else files.here

/-- The location of the last name of a path in an existing directory. -/
def spot? (files : Files) (path : FilePath) : Option Location :=
  match pathFault? path, (lastName path).name with
  | none, some name =>
      if name.utf8ByteSize > Walk.longestName then none
      else (files.leads (files.origin path) (lastName path).directory).map (· ++ [name])
  | _, _ => none

section Leading

variable {files : Files} {place location : Location} {names : List String}

theorem leads_to_directory (lead : files.leads place names = some location) :
    files.stands location = some .directory := by
  induction names generalizing place with
  | nil =>
      rw [leads] at lead
      split at lead
      · rename_i isDirectory
        cases lead
        exact isDirectory
      · cases lead
  | cons name rest induction =>
      rw [leads] at lead
      split_ifs at lead
      · exact induction lead
      · exact induction lead
      · exact induction lead

theorem leads_from_directory (lead : files.leads place names = some location) :
    files.stands place = some .directory := by
  cases names with
  | nil =>
      rw [leads] at lead
      by_contra other
      simp [other] at lead
  | cons name rest =>
      rw [leads] at lead
      by_contra other
      simp [other] at lead

theorem leads_append (rest : List String) :
    files.leads place (names ++ rest) =
      (files.leads place names).bind fun middle => files.leads middle rest := by
  induction names generalizing place with
  | nil =>
      rw [List.nil_append, leads]
      split
      · rfl
      · rename_i other
        cases lead : files.leads place rest with
        | none => rfl
        | some location => exact absurd (leads_from_directory lead) other
  | cons name names induction =>
      rw [List.cons_append, leads, leads]
      split_ifs <;> simp [induction]

/-- Names lead on as they did if the directories on the way have stayed. -/
theorem leads_kept {after : Files}
    (kept : ∀ location, files.stands location = some .directory →
      (∀ name ∈ location, name ∈ place ∨ name ∈ names) → after.stands location = some .directory)
    (lead : files.leads place names = some location) :
    after.leads place names = some location := by
  have isDirectory := leads_from_directory lead
  have stays := kept place isDirectory fun _ => .inl
  induction names generalizing place with
  | nil =>
      rw [leads, if_pos isDirectory] at lead
      rw [leads, if_pos stays, lead]
  | cons name rest induction =>
      have further : ∀ next, (∀ other ∈ next, other ∈ place ∨ other = name) →
          files.leads next rest = some location → after.leads next rest = some location := by
        intro next known lead
        have keptNext : ∀ location, files.stands location = some .directory →
            (∀ other ∈ location, other ∈ next ∨ other ∈ rest) →
            after.stands location = some .directory := by
          intro location isDirectory fromNext
          refine kept location isDirectory fun other member => ?_
          rcases fromNext other member with inNext | inRest
          · exact (known other inNext).imp_right fun same => by simp [same]
          · exact .inr (List.mem_cons_of_mem _ inRest)
        have isDirectory := leads_from_directory lead
        exact induction keptNext lead isDirectory (keptNext next isDirectory fun _ => .inl)
      rw [leads, if_neg (not_not_intro isDirectory)] at lead
      rw [leads, if_neg (not_not_intro stays)]
      split_ifs at lead ⊢
      · exact further place (fun _ => .inl) lead
      · exact further _ (fun _ member => .inl (List.dropLast_subset _ member)) lead
      · exact further _ (fun _ member => by simpa using member) lead

theorem leads_names (lead : files.leads place names = some location) {name : String}
    (member : name ∈ location) : name ∈ place ∨ name ∈ names := by
  induction names generalizing place with
  | nil =>
      have isDirectory := leads_from_directory lead
      rw [leads, if_pos isDirectory] at lead
      cases lead
      exact .inl member
  | cons next rest induction =>
      have isDirectory := leads_from_directory lead
      rw [leads, if_neg (not_not_intro isDirectory)] at lead
      split_ifs at lead
      · exact (induction lead).imp_right (List.mem_cons_of_mem _)
      · exact (induction lead).imp (List.dropLast_subset _ ·) (List.mem_cons_of_mem _)
      · rcases induction lead with inPlace | inRest
        · rw [List.mem_append, List.mem_singleton] at inPlace
          exact inPlace.imp_right fun same => by simp [same]
        · exact .inr (List.mem_cons_of_mem _ inRest)

theorem leads_inner (plain : ∀ name ∈ names, name ≠ "." ∧ name ≠ "..")
    (lead : files.leads place names = some location) : location = place ++ names := by
  induction names generalizing place with
  | nil =>
      have isDirectory := leads_from_directory lead
      rw [leads, if_pos isDirectory] at lead
      cases lead
      exact (List.append_nil _).symm
  | cons name rest induction =>
      have notDots := plain name List.mem_cons_self
      have isDirectory := leads_from_directory lead
      rw [leads, if_neg (not_not_intro isDirectory), if_neg notDots.1, if_neg notDots.2] at lead
      split_ifs at lead
      rw [induction (fun other member => plain other (List.mem_cons_of_mem _ member)) lead,
        List.append_assoc, List.singleton_append]

end Leading

section Walking

variable {files : Files} {trail : Walk.Trail} {names : List String}

theorem stands_of_node {node : FileNode} (fits : Walk.Fits files.root trail)
    (reached : Walk.nodeOf files.root trail = node) :
    files.stands (Walk.locationOf trail) = some node.standing := by
  rw [stands_of_at fits.node, reached]

theorem entries_of_stands (fits : Walk.Fits files.root trail)
    (isDirectory : files.stands (Walk.locationOf trail) = some .directory) :
    ∃ entries, Walk.nodeOf files.root trail = .directory entries := by
  cases node : Walk.nodeOf files.root trail with
  | directory entries => exact ⟨entries, rfl⟩
  | file contents executable =>
      rw [stands_of_node fits node] at isDirectory
      cases isDirectory
  | link target =>
      rw [stands_of_node fits node] at isDirectory
      cases isDirectory

theorem along_of_leads (followLast : Bool) (fits : Walk.Fits files.root trail)
    {location : Location} (lead : files.leads (Walk.locationOf trail) names = some location) :
    ∃ reached, Walk.Fits files.root reached ∧ Walk.locationOf reached = location ∧
      ∀ rest, Walk.along files.root followLast trail (names ++ rest) =
        Walk.along files.root followLast reached rest := by
  induction names generalizing trail with
  | nil =>
      have isDirectory := leads_from_directory lead
      rw [leads, if_pos isDirectory, Option.some_inj] at lead
      exact ⟨trail, fits, lead, fun rest => rfl⟩
  | cons name names induction =>
      have isDirectory := leads_from_directory lead
      obtain ⟨entries, node⟩ := entries_of_stands fits isDirectory
      rw [leads, if_neg (not_not_intro isDirectory)] at lead
      split_ifs at lead with dot dots long
      · obtain ⟨reached, reachedFits, there, walked⟩ := induction fits lead
        refine ⟨reached, reachedFits, there, fun rest => ?_⟩
        rw [List.cons_append, Walk.along, node]
        simp only [if_pos dot, walked]
      · rw [← Walk.location_of_tail] at lead
        obtain ⟨reached, reachedFits, there, walked⟩ := induction fits.tail lead
        refine ⟨reached, reachedFits, there, fun rest => ?_⟩
        rw [List.cons_append, Walk.along, node]
        simp only [if_neg dot, if_pos dots, walked]
      · obtain ⟨child, found, childStanding⟩ := at_of_stands (leads_from_directory lead)
        rw [FileNode.at_child fits.node] at found
        have fitsChild := fits.child found
        rw [← Walk.location_of_cons (name, child)] at lead
        obtain ⟨reached, reachedFits, there, walked⟩ := induction fitsChild lead
        refine ⟨reached, reachedFits, there, fun rest => ?_⟩
        have known : entries.lookup name = some child := by
          rw [node] at found
          exact found
        rw [List.cons_append, Walk.along, node]
        cases child with
        | directory inner => simp only [if_neg dot, if_neg dots, if_neg long, known, walked]
        | file contents executable => cases childStanding
        | link target => cases childStanding

theorem along_refused (plain : files.IsPlain) (followLast : Bool)
    (fits : Walk.Fits files.root trail)
    (astray : files.leads (Walk.locationOf trail) names = none) {rest : List String}
    (more : rest ≠ []) :
    ∃ fault, Walk.along files.root followLast trail (names ++ rest) = .refused fault := by
  induction names generalizing trail with
  | nil =>
      obtain ⟨first, others, rfl⟩ := List.exists_cons_of_ne_nil more
      rw [leads] at astray
      have other : files.stands (Walk.locationOf trail) ≠ some .directory := by
        intro isDirectory
        simp [isDirectory] at astray
      rw [List.nil_append, Walk.along]
      cases node : Walk.nodeOf files.root trail with
      | directory entries => exact absurd (stands_of_node fits node) other
      | file contents executable => exact ⟨_, rfl⟩
      | link target => exact ⟨_, rfl⟩
  | cons name names induction =>
      have unfinished : (names ++ rest).isEmpty = false := by simp [more]
      rw [List.cons_append, Walk.along]
      cases node : Walk.nodeOf files.root trail with
      | file contents executable => exact ⟨_, rfl⟩
      | link target => exact ⟨_, rfl⟩
      | directory entries =>
          have isDirectory := stands_of_node fits node
          rw [FileNode.standing] at isDirectory
          rw [leads, if_neg (not_not_intro isDirectory)] at astray
          simp only [unfinished, Bool.false_and, Bool.false_eq_true, if_false]
          split_ifs at astray ⊢ with dot dots long
          · exact induction fits astray
          · rw [← Walk.location_of_tail] at astray
            exact induction fits.tail astray
          · exact ⟨_, rfl⟩
          · cases known : entries.lookup name with
            | none => exact ⟨_, rfl⟩
            | some child =>
                have found : (Walk.nodeOf files.root trail).child? name = some child := by
                  rw [node]
                  exact known
                have fitsChild := fits.child found
                rw [← Walk.location_of_cons (name, child)] at astray
                have walked := induction fitsChild astray
                cases child with
                | directory inner => exact walked
                | file contents executable => exact walked
                | link target =>
                    -- Only a link could lead elsewhere, and a plain tree has none.
                    exact absurd (stands_of_at fitsChild.node) (plain.noLink _ target)

/-- The last name is looked up in the directory that the names before it lead to. -/
theorem along_last (plain : files.IsPlain) (followLast : Bool) (fits : Walk.Fits files.root trail)
    {above : Location} (lead : files.leads (Walk.locationOf trail) names = some above)
    {name : String} (notDots : name ≠ "." ∧ name ≠ "..") :
    ∃ reached, Walk.Fits files.root reached ∧ Walk.locationOf reached = above ∧
      Walk.along files.root followLast trail (names ++ [name]) =
        if name.utf8ByteSize > Walk.longestName then .refused .nameTooLong
        else
          match files.root.at? (above ++ [name]) with
          | none => .vacant reached name
          | some child => .arrived ((name, child) :: reached) := by
  obtain ⟨reached, reachedFits, rfl, walked⟩ := along_of_leads followLast fits lead
  obtain ⟨entries, node⟩ := entries_of_stands reachedFits (leads_to_directory lead)
  refine ⟨reached, reachedFits, rfl, ?_⟩
  rw [walked, Walk.along, node, FileNode.at_child reachedFits.node, node]
  simp only [if_neg notDots.1, if_neg notDots.2]
  split
  · rfl
  · cases known : entries.lookup name with
    | none => simp [FileNode.child?, FileNode.entries, known]
    | some child =>
        have found : (Walk.nodeOf files.root reached).child? name = some child := by
          rw [node]
          exact known
        cases child with
        | directory inner => simp [FileNode.child?, FileNode.entries, known, Walk.along]
        | file contents executable =>
            simp [FileNode.child?, FileNode.entries, known, Walk.along]
        | link target =>
            exact absurd (stands_of_at (reachedFits.child found).node) (plain.noLink _ target)

end Walking

section Paths

variable {files : Files} {path : FilePath}

theorem trail_to_fits {root : FileNode} {location : Location} (found : root.at? location ≠ none) :
    Walk.Fits root (trailTo root location) ∧
      Walk.locationOf (trailTo root location) = location := by
  have top : Walk.Fits root [] := trivial
  exact top.further found

theorem start_fits (plain : files.IsPlain) (path : FilePath) :
    Walk.Fits files.root (files.startOf path) ∧
      Walk.locationOf (files.startOf path) = files.origin path := by
  rw [startOf, origin]
  split
  · exact ⟨trivial, rfl⟩
  · obtain ⟨node, found, _⟩ := at_of_stands plain.standsHere
    exact trail_to_fits (by simp [found])

theorem last_name_by_names (path : FilePath) :
    lastName path =
      let slash := decide (path.text.toList.getLast? = some '/')
      match path.names.getLast? with
      | none => ⟨[], none, slash⟩
      | some name =>
          if name = "." || name = ".." then ⟨path.names.dropLast, none, slash⟩
          else ⟨path.names.dropLast, some name, slash⟩ :=
  rfl

theorem last_name_directory (path : FilePath) :
    (lastName path).directory = path.names.dropLast := by
  rw [last_name_by_names]
  split
  · rename_i nameless
    rw [List.getLast?_eq_none_iff.1 nameless, List.dropLast_nil]
  · split <;> rfl

theorem last_name_some {name : String} :
    (lastName path).name = some name ↔
      path.names.getLast? = some name ∧ name ≠ "." ∧ name ≠ ".." := by
  rw [last_name_by_names]
  split
  · rename_i nameless
    simp [nameless]
  · rename_i last isLast
    rw [isLast]
    split
    · rename_i dots
      simp only [Bool.or_eq_true, decide_eq_true_eq] at dots
      simp only [reduceCtorEq, Option.some_inj, false_iff, not_and]
      rintro rfl notDot
      simpa [notDot] using dots
    · rename_i notDots
      simp only [Bool.or_eq_true, decide_eq_true_eq, not_or] at notDots
      simp only [Option.some_inj]
      constructor
      · rintro rfl
        exact ⟨rfl, notDots⟩
      · exact fun known => known.1

theorem names_of_last_name {name : String} (last : (lastName path).name = some name) :
    path.names = (lastName path).directory ++ [name] := by
  obtain ⟨front, spelled⟩ := List.getLast?_eq_some_iff.1 (last_name_some.1 last).1
  rw [last_name_directory, spelled, List.dropLast_concat]

theorem last_name_slash (path : FilePath) :
    (lastName path).slash = decide (path.text.toList.getLast? = some '/') := by
  rw [last_name_by_names]
  split
  · rfl
  · split <;> rfl

theorem walk_names (path : FilePath) :
    path.walkNames = path.names ++ if (lastName path).slash then ["."] else [] := by
  rw [last_name_slash, FilePath.walkNames]
  simp only [decide_eq_true_eq]
  split
  · rfl
  · exact (List.append_nil _).symm

/-- What it takes for a path to have a spot. -/
theorem spot_iff {location : Location} : files.spot? path = some location ↔
    ∃ above name, pathFault? path = none ∧ (lastName path).name = some name ∧
      name.utf8ByteSize ≤ Walk.longestName ∧
      files.leads (files.origin path) (lastName path).directory = some above ∧
      location = above ++ [name] := by
  rw [spot?]
  constructor
  · intro spot
    split at spot
    · rename_i name sound last
      split_ifs at spot with long
      obtain ⟨above, lead, rfl⟩ := Option.map_eq_some_iff.1 spot
      exact ⟨above, name, sound, last, Nat.le_of_not_gt long, lead, rfl⟩
    · cases spot
  · rintro ⟨above, name, sound, last, short, lead, rfl⟩
    simp only [sound, last, if_neg (Nat.not_lt.2 short), lead, Option.map_some]

theorem short_of_spot {location : Location} (spot : files.spot? path = some location)
    {name : String} (last : (lastName path).name = some name) :
    name.utf8ByteSize ≤ Walk.longestName := by
  obtain ⟨_, _, _, known, short, _⟩ := spot_iff.1 spot
  rw [last, Option.some_inj] at known
  exact known ▸ short

/-- A directory at the spot of a path is where its names lead. -/
theorem leads_of_spot {location : Location} (spot : files.spot? path = some location)
    (isDirectory : files.stands location = some .directory) :
    files.leads (files.origin path) path.names = some location := by
  obtain ⟨above, name, _, last, short, lead, rfl⟩ := spot_iff.1 spot
  obtain ⟨_, notDot, notDots⟩ := last_name_some.1 last
  rw [names_of_last_name last, leads_append, lead, Option.bind_some, leads,
    if_neg (not_not_intro (leads_to_directory lead)), if_neg notDot, if_neg notDots,
    if_neg (Nat.not_lt.2 short), leads, if_pos isDirectory]

theorem parent_of_leads (plain : files.IsPlain) (sound : pathFault? path = none)
    {above : Location}
    (lead : files.leads (files.origin path) (lastName path).directory = some above) :
    ∃ node, files.root.at? above = some node ∧
      files.parentOf path = .ok (above, node, (lastName path).name) := by
  obtain ⟨fits, start⟩ := start_fits plain path
  rw [← start] at lead
  obtain ⟨reached, reachedFits, rfl, walked⟩ := along_of_leads true fits lead
  obtain ⟨entries, node⟩ := entries_of_stands reachedFits (leads_to_directory lead)
  refine ⟨_, reachedFits.node, ?_⟩
  rw [parentOf, sound]
  simp [walkFrom, walked, Walk.along, node]

theorem leads_of_parent (plain : files.IsPlain) {above : Location} {node : FileNode}
    {name : Option String} (found : files.parentOf path = .ok (above, node, name)) :
    pathFault? path = none ∧ name = (lastName path).name ∧
      files.leads (files.origin path) (lastName path).directory = some above ∧
      files.root.at? above = some node := by
  cases sound : pathFault? path with
  | some fault =>
      rw [parentOf, sound] at found
      cases found
  | none =>
      cases lead : files.leads (files.origin path) (lastName path).directory with
      | none =>
          obtain ⟨fits, start⟩ := start_fits plain path
          rw [← start] at lead
          obtain ⟨fault, refused⟩ := along_refused plain true fits lead (List.cons_ne_nil "." [])
          rw [parentOf, sound] at found
          simp [walkFrom, refused] at found
      | some place =>
          obtain ⟨directory, stands, parent⟩ := parent_of_leads plain sound lead
          rw [parent] at found
          cases found
          exact ⟨rfl, rfl, rfl, stands⟩

section LastName

variable (plain : files.IsPlain) (noSlash : (lastName path).slash = false) (followLast : Bool)
include plain noSlash

theorem walk_last {name : String} {above : Location} (sound : pathFault? path = none)
    (last : (lastName path).name = some name)
    (lead : files.leads (files.origin path) (lastName path).directory = some above) :
    files.walk followLast path =
      if name.utf8ByteSize > Walk.longestName then .error .nameTooLong
      else
        match files.root.at? (above ++ [name]) with
        | none => .ok (.vacant above name)
        | some child => .ok (.node (above ++ [name]) child) := by
  obtain ⟨fits, start⟩ := start_fits plain path
  rw [← start] at lead
  obtain ⟨reached, _, rfl, walked⟩ :=
    along_last plain followLast fits lead (last_name_some.1 last).2
  rw [walk, sound]
  dsimp only
  rw [walkFrom, walk_names, noSlash, names_of_last_name last, if_neg Bool.false_ne_true,
    List.append_nil, walked]
  by_cases long : name.utf8ByteSize > Walk.longestName
  · rw [if_pos long, if_pos long]
  · rw [if_neg long, if_neg long]
    cases files.root.at? (Walk.locationOf reached ++ [name]) with
    | none => rfl
    | some child => simp [Walk.location_of_cons, Walk.nodeOf]

theorem walk_found {location : Location} {node : FileNode}
    (spot : files.spot? path = some location) (found : files.root.at? location = some node) :
    files.walk followLast path = .ok (.node location node) := by
  obtain ⟨above, name, sound, last, short, lead, rfl⟩ := spot_iff.1 spot
  rw [walk_last plain noSlash followLast sound last lead, if_neg (Nat.not_lt.2 short), found]

theorem walk_vacant {above : Location} {name : String}
    (spot : files.spot? path = some (above ++ [name]))
    (vacant : files.root.at? (above ++ [name]) = none) :
    files.walk followLast path = .ok (.vacant above name) := by
  obtain ⟨_, _, sound, last, short, lead, same⟩ := spot_iff.1 spot
  obtain ⟨rfl, sameName⟩ := List.append_inj' same rfl
  cases sameName
  rw [walk_last plain noSlash followLast sound last lead, if_neg (Nat.not_lt.2 short), vacant]

theorem walk_astray {name : String} (last : (lastName path).name = some name)
    (astray : files.spot? path = none) :
    ∃ fault, files.walk followLast path = .error fault := by
  cases sound : pathFault? path with
  | some fault => exact ⟨fault, by rw [walk, sound]⟩
  | none =>
      cases lead : files.leads (files.origin path) (lastName path).directory with
      | none =>
          obtain ⟨fits, start⟩ := start_fits plain path
          rw [← start] at lead
          obtain ⟨fault, refused⟩ :=
            along_refused plain followLast fits lead (List.cons_ne_nil name [])
          refine ⟨fault, ?_⟩
          rw [walk, sound]
          dsimp only
          rw [walkFrom, walk_names, noSlash, names_of_last_name last, if_neg Bool.false_ne_true,
            List.append_nil, refused]
      | some above =>
          have long : name.utf8ByteSize > Walk.longestName := by
            by_contra short
            simp [spot?, sound, last, short, lead] at astray
          exact ⟨_, by rw [walk_last plain noSlash followLast sound last lead, if_pos long]⟩

end LastName

theorem node_of_leads (plain : files.IsPlain) (sound : pathFault? path = none)
    {location : Location} (lead : files.leads (files.origin path) path.names = some location) :
    ∃ entries, files.node? path = .ok (location, .directory entries) := by
  obtain ⟨fits, start⟩ := start_fits plain path
  rw [← start] at lead
  obtain ⟨reached, reachedFits, rfl, walked⟩ := along_of_leads true fits lead
  obtain ⟨entries, node⟩ := entries_of_stands reachedFits (leads_to_directory lead)
  refine ⟨entries, ?_⟩
  have arrived : Walk.along files.root true (files.startOf path) path.walkNames =
      .arrived reached := by
    rw [walk_names, walked]
    split
    · simp [Walk.along, node]
    · rfl
  simp [node?, walk, sound, walkFrom, arrived, node]

theorem text_ne_of_names {base : FilePath} (named : base.names ≠ []) : base.text ≠ "" :=
  fun empty => named (FilePath.nameless_of_empty empty)

/-- A path in front of a sound path is sound. -/
theorem sound_of_front {base : FilePath} (inFront : base.pieces <+: path.pieces)
    (named : base.names ≠ []) (sound : pathFault? path = none) : pathFault? base = none := by
  obtain ⟨rest, whole⟩ := FilePath.prefix_of_pieces inFront
  have size : base.text.utf8ByteSize ≤ path.text.utf8ByteSize := by
    have spelled : path.text = base.text ++ String.ofList rest := by
      apply String.toList_injective
      rw [String.toList_append, String.toList_ofList, whole]
    rw [spelled, String.utf8ByteSize_append]
    exact Nat.le_add_right _ _
  rw [pathFault?] at sound
  split_ifs at sound with nul empty long
  have noNul : ¬ base.text.toList.contains '\x00' = true := by
    rw [List.contains_iff_mem]
    rw [List.contains_iff_mem, ← whole, List.mem_append, not_or] at nul
    exact nul.1
  rw [pathFault?, if_neg noNul, if_neg (text_ne_of_names named),
    if_neg (Nat.not_lt.2 (Nat.le_trans size (Nat.not_lt.1 long)))]

theorem leads_of_names {front rest : List String} {location : Location}
    (split : path.names = front ++ rest) (more : rest ≠ [])
    (plainRest : ∀ name ∈ rest, name ≠ "." ∧ name ≠ "..")
    (spot : files.spot? path = some location) :
    ∃ root, files.leads (files.origin path) front = some root ∧ location = root ++ rest := by
  obtain ⟨above, name, _, last, _, lead, rfl⟩ := spot_iff.1 spot
  have lastRest := (last_name_some.1 last).1
  rw [split, List.getLast?_append_of_ne_nil _ more] at lastRest
  obtain ⟨inner, rfl⟩ := List.getLast?_eq_some_iff.1 lastRest
  rw [last_name_directory, split, List.dropLast_append_of_ne_nil more, List.dropLast_concat,
    leads_append] at lead
  obtain ⟨root, leadRoot, leadInner⟩ := Option.bind_eq_some_iff.1 lead
  refine ⟨root, leadRoot, ?_⟩
  rw [leads_inner (fun name member => plainRest name (List.mem_append_left _ member)) leadInner,
    List.append_assoc]

/-- The spot of a path lies below the spot of a path in front of it. -/
theorem spot_of_front {base : FilePath} {rest : List String} {location : Location} {name : String}
    (split : path.pieces = base.pieces ++ rest)
    (plainRest : ∀ piece ∈ rest, piece ≠ "" ∧ piece ≠ "." ∧ piece ≠ "..")
    (last : (lastName base).name = some name) (spot : files.spot? path = some location) :
    ∃ root, files.spot? base = some root ∧ location = root ++ rest := by
  by_cases nothing : rest = []
  · rw [nothing, List.append_nil] at split
    have same : path.text = base.text := by
      rw [← FilePath.text_of_pieces, ← FilePath.text_of_pieces, split]
    have equal : path = base := congrArg FilePath.mk same
    exact ⟨location, equal ▸ spot, by rw [nothing, List.append_nil]⟩
  · have named : base.names ≠ [] := by
      rw [names_of_last_name last]
      simp
    have inFront : base.pieces <+: path.pieces := ⟨rest, split.symm⟩
    have names : path.names = base.names ++ rest := by
      have kept : rest.filter (fun piece => piece ≠ "") = rest :=
        List.filter_eq_self.2 fun piece member => by simpa using (plainRest piece member).1
      rw [FilePath.names, split, List.filter_append, kept, FilePath.names]
    have plainNames : ∀ name ∈ rest, name ≠ "." ∧ name ≠ ".." :=
      fun name member => (plainRest name member).2
    obtain ⟨root, lead, rfl⟩ := leads_of_names names nothing plainNames spot
    obtain ⟨_, _, sound, _⟩ := spot_iff.1 spot
    have sameOrigin : files.origin path = files.origin base := by
      rw [origin, origin, FilePath.absolute_of_front inFront named]
    rw [sameOrigin, names_of_last_name last, leads_append] at lead
    obtain ⟨above, leadAbove, leadLast⟩ := Option.bind_eq_some_iff.1 lead
    obtain ⟨_, notDot, notDots⟩ := last_name_some.1 last
    have isDirectory := leads_from_directory leadLast
    rw [leads, if_neg (not_not_intro isDirectory), if_neg notDot, if_neg notDots] at leadLast
    split_ifs at leadLast with long
    rw [leads] at leadLast
    split_ifs at leadLast
    cases leadLast
    exact ⟨above ++ [name], spot_iff.2 ⟨above, name, sound_of_front inFront named sound, last,
      Nat.le_of_not_gt long, leadAbove, rfl⟩, rfl⟩

theorem joined_no_slash {base inner : FilePath} (nonempty : base.text ≠ "")
    (plain : inner.IsInner) : (lastName (base.join inner)).slash = false := by
  rw [last_name_slash, decide_eq_false_iff_not,
    FilePath.last_of_join nonempty (FilePath.inner_relative plain)
      (FilePath.inner_text_ne_nil plain)]
  exact FilePath.inner_no_slash plain

theorem joined_names {base inner : FilePath} (nonempty : base.text ≠ "")
    (plain : inner.IsInner) : (base.join inner).names = base.names ++ inner.pieces := by
  rw [FilePath.names_join nonempty (FilePath.inner_relative plain), FilePath.inner_names plain]

/-- The last name of a joined path is the last piece of what was joined to it. -/
theorem joined_last {base inner : FilePath} (nonempty : base.text ≠ "")
    (plain : inner.IsInner) :
    ∃ name, (lastName (base.join inner)).name = some name ∧ name ∈ inner.pieces := by
  obtain ⟨front, name, split⟩ : ∃ front name, inner.pieces = front ++ [name] :=
    ⟨_, _, (List.dropLast_append_getLast inner.pieces_ne_nil).symm⟩
  have member : name ∈ inner.pieces := by simp [split]
  refine ⟨name, last_name_some.2 ⟨?_, (plain name member).2⟩, member⟩
  rw [joined_names nonempty plain, split, ← List.append_assoc, List.getLast?_concat]

/-- A spot has only names of its path and of the place where the path starts. -/
theorem spot_names {location : Location} (spot : files.spot? path = some location) {name : String}
    (member : name ∈ location) : name ∈ files.origin path ∨ name ∈ path.names := by
  obtain ⟨above, last, _, isLast, _, lead, rfl⟩ := spot_iff.1 spot
  rw [names_of_last_name isLast, List.mem_append]
  rcases List.mem_append.1 member with inAbove | isName
  · exact (leads_names lead inAbove).imp_right .inl
  · exact .inr (.inr isName)

end Paths

end Files

end PipelineWaves
