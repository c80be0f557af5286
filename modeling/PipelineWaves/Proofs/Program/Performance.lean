import PipelineWaves.CommandLine.Reply
import PipelineWaves.Proofs.Files.Existing
import PipelineWaves.Proofs.Layering
import PipelineWaves.Proofs.Program.Decoding
import PipelineWaves.Proofs.Program.Mirror
import PipelineWaves.Proofs.Recipe.Launch
import PipelineWaves.Proofs.Text.Trimmed

/-!
# Programs and recipes

A generated program and the recipes carry out the same actions in two ways. For an action
that its recipe accepts they do the same to the world and to what is captured, and one
succeeds exactly when the other does, where the paths of the action are such that both look
for it in one place. Of the checks of a recipe the program has only the one on cache keys,
so of the actions that recipes reject it refuses those with such a key.
-/

set_option autoImplicit false

namespace PipelineWaves

open Attempt

namespace ProgramState

def of (state : StepState) : ProgramState :=
  ⟨state.world, state.output.stdout, state.output.stderr⟩

end ProgramState

variable {state : StepState}

theorem on_files_mirrored {First Second : Type} {agree : First → Second → Prop}
    {work : Attempt Files RecipeError First} {other : Attempt Files String Second}
    (mirrored : MirroredBy id state.files agree work other) :
    MirroredBy .of state agree (Doing.onFiles work) (Conduct.onFiles other) := by
  obtain ⟨results, states⟩ := mirrored
  refine ⟨results, ?_⟩
  change ProgramState.of (state.withFiles (work.outcome state.files).2) =
    (ProgramState.of state).withFiles (other.outcome state.files).2
  rw [← show (work.outcome state.files).2 = (other.outcome state.files).2 from states]
  rfl

namespace ProgramHost

variable {host : ProgramHost} {environment : Environment}

def settings (host : ProgramHost) : RecipeSettings :=
  { RecipeSettings.standard with workspace := host.workspace, toolchain := host.toolchain }

def workshop (host : ProgramHost) : Workshop := ⟨host.settings, Station.registry, host.machine⟩

theorem place_eq (host : ProgramHost) (environment : Environment) :
    host.place environment.entries = host.workshop.placeFor environment := by
  rw [place, Dictionary.ofList_entries]
  rfl

theorem output_outcome {directory : Option FilePath} {program : String}
    {arguments : List String} {answer : Except LaunchFault ProcessOutput} {world : World}
    (started : (host.workshop.placeFor environment).start
      ((host.workshop.placeFor environment).launchOf directory program arguments) state.world =
        (answer, world)) :
    (host.output environment.entries directory program arguments).outcome (.of state) =
      (answer.mapError fun fault => s!"failed to spawn '{program}': {fault.text}",
        { ProgramState.of state with world }) := by
  simp only [output, place_eq, Attempt.of, Attempt.outcome, ProgramState.of, started]
  cases answer <;> rfl

theorem output_mirrored (directory : Option FilePath) (program : String)
    (arguments : List String) :
    MirroredBy .of state Eq
      ((host.workshop.placeFor environment).probe directory program arguments)
      (host.output environment.entries directory program arguments) := by
  rcases started : (host.workshop.placeFor environment).start
    ((host.workshop.placeFor environment).launchOf directory program arguments) state.world with
    ⟨answer, world⟩
  constructor
  · rw [StepPlace.probe_outcome started, output_outcome started]
    exact .refl answer _ _
  · rw [StepPlace.probe_outcome started, output_outcome started]
    rfl

theorem capture_mirrored (directory : Option FilePath) (program : String)
    (arguments : List String) :
    MirroredBy .of state Eq
      ((host.workshop.placeFor environment).run directory program arguments)
      (host.capture environment.entries directory program arguments) := by
  refine (output_mirrored _ _ _).bind ?_
  rintro output _ after rfl
  have recorded : MirroredBy ProgramState.of after Eq (StepPlace.record output)
      (modify fun state => state.record output : Conduct Unit) := ⟨.succeeded rfl, rfl⟩
  refine recorded.bind fun _ _ _ _ => ?_
  split
  · exact mirrored_pure rfl
  · exact mirrored_throw _ _

/-- The path of a checkout leads to something, or nothing is there. -/
def Leads (files : Files) (target : FilePath) : Prop :=
  ∀ fault, files.node? target = .error fault → fault = .missing

theorem inspect_eq {files : Files} {target : FilePath} (leads : Leads files target) :
    Checkout.inspect files target =
      .ok (if files.isPresent (target.join ⟨".git"⟩) then .repository
        else if isOccupied files target then .occupied else .missing) := by
  rw [Checkout.inspect]
  split
  · rfl
  · rw [isOccupied, Files.isPresent, Files.isDirectory, Files.names]
    cases found : files.node? target with
    | error fault =>
        obtain rfl := leads fault found
        rfl
    | ok place =>
        obtain ⟨location, node⟩ := place
        cases node with
        | file contents executable => rfl
        | link destination => rfl
        | directory entries =>
            cases entries with
            | nil => rfl
            | cons entry rest =>
                have some : (FileNode.directory (entry :: rest)).names ≠ [] := by
                  simp [FileNode.names, FileNode.entries, List.eraseDups_cons]
                simp [FileNode.isDirectory, some]

theorem current_branch_mirrored (checkout : Checkout) :
    MirroredBy .of state
      (fun branch output =>
        branch = if output.isSuccess then some (Text.trimBlank output.stdout) else none)
      (checkout.currentBranch (host.workshop.placeFor environment))
      (host.output environment.entries (some checkout.target) checkout.git
        ["rev-parse", "--abbrev-ref", "HEAD"]) :=
  (output_mirrored _ _ _).then_pure fun output _ same => by rw [same]

theorem clone_mirrored (repository branch : String) (target : FilePath) :
    MirroredBy .of state Eq
      ((Checkout.mk "git" repository branch target).clone (host.workshop.placeFor environment))
      (do
        match target.parent? with
        | some parent =>
            Conduct.onFiles ((Files.createDirectories parent).mapFailure FileFault.text)
        | none => pure ()
        host.capture environment.entries none "git"
          ["clone", "--branch", branch, "--single-branch", repository, target.text]) := by
  rw [Checkout.clone]
  dsimp only
  cases target.parent? with
  | none => exact capture_mirrored _ _ _
  | some parent =>
      exact .bind (on_files_mirrored (mirrored_call _ _ _)) fun _ _ _ _ => capture_mirrored _ _ _

theorem checkout_mirrored (repository branch path : String)
    (leads : Leads state.files (host.workspace.join ⟨path⟩)) :
    MirroredBy .of state Eq
      ((Checkout.mk "git" repository branch (host.workspace.join ⟨path⟩)).run
        (host.workshop.placeFor environment))
      (host.checkout environment.entries repository branch path) := by
  have sameFiles : (ProgramState.of state).files = state.files := rfl
  refine mirrored_reading_bind (inspect_eq leads) ?_
  rw [sameFiles]
  by_cases cloned : state.files.isPresent ((host.workspace.join ⟨path⟩).join ⟨".git"⟩) = true
  · simp only [if_pos cloned]
    refine (current_branch_mirrored _).bind ?_
    rintro _ output after rfl
    have sameAnswer : (if output.isSuccess then some (Text.trimBlank output.stdout) else none) =
        some branch ↔ output.isSuccess && Text.trimBlank output.stdout = branch := by
      cases output.isSuccess <;> simp
    simp only [sameAnswer]
    split
    · exact mirrored_pure rfl
    · exact (capture_mirrored _ _ _).bind fun _ _ _ _ => capture_mirrored _ _ _
  · simp only [if_neg cloned]
    by_cases occupied : isOccupied state.files (host.workspace.join ⟨path⟩) = true
    · simp only [if_pos occupied]
      exact mirrored_throw _ _
    · simp only [if_neg occupied]
      exact clone_mirrored repository branch _

/-- The directory that a cache action names has no blanks at its ends; where it names none,
program and recipe know the same home directory. -/
def SharesCache (host : ProgramHost) : Option String → Prop
  | some directory =>
      if Text.isBlankText directory then host.home = host.machine.home
      else Text.trimBlank directory = directory
  | none => host.home = host.machine.home

theorem cache_root_eq {directory : Option String} (shares : host.SharesCache directory) :
    host.cacheRoot directory =
      CacheArchive.directoryOf host.settings host.machine.home directory := by
  cases directory with
  | none =>
      rw [cacheRoot, show host.home = host.machine.home from shares]
      rfl
  | some directory =>
      rw [CacheArchive.directoryOf, cacheRoot, Option.map_some]
      dsimp only
      by_cases blank : Text.isBlankText directory = true
      · rw [SharesCache, if_pos blank] at shares
        rw [if_pos blank, if_pos (Text.trim_blank_eq_empty.2 blank), shares]
        rfl
      · rw [SharesCache, if_neg blank] at shares
        rw [if_neg blank, if_neg (fun empty => blank (Text.trim_blank_eq_empty.1 empty)), shares]
        rfl

theorem check_key_of_valid {key : String} (valid : keyFault? key = none) :
    checkKey key = pure () := by
  simp only [keyFault?] at valid
  split_ifs at valid with blank separator dots nul
  rw [Bool.or_eq_true, not_or] at separator
  refine if_neg ?_
  simp only [Bool.or_eq_true, not_or]
  exact ⟨⟨⟨blank, separator.1⟩, separator.2⟩, dots⟩

/-- A text in a generated program has no NUL, so the program refuses every key that its
recipe refuses. -/
theorem check_key_of_fault {key reason : String} (fault : keyFault? key = some reason)
    (printable : containsNul key = false) : ∃ detail, checkKey key = throw detail := by
  simp only [keyFault?] at fault
  refine ⟨_, if_pos ?_⟩
  simp only [Bool.or_eq_true]
  split_ifs at fault with blank separator dots nul
  · exact .inl (.inl (.inl blank))
  · rw [Bool.or_eq_true] at separator
    exact .inl (separator.imp_left .inr)
  · exact .inr dots
  · rw [printable] at nul
    cases nul

theorem save_mirrored {key : String} {directory : Option String} (paths : List String)
    (valid : keyFault? key = none) (shares : host.SharesCache directory) :
    MirroredBy .of state Eq
      ((CacheArchive.mk (CacheArchive.directoryOf host.settings host.machine.home directory)
        key).save "tar" paths (host.workshop.placeFor environment))
      (host.saveCache environment.entries key paths directory) := by
  rw [saveCache, check_key_of_valid valid, pure_bind]
  refine mirrored_get_bind ?_
  rw [archiveOf, cache_root_eq shares]
  have sameFiles : (ProgramState.of state).files = state.files := rfl
  have samePlace : (host.workshop.placeFor environment).directory = host.workspace := rfl
  dsimp only
  rw [sameFiles, samePlace]
  split
  · exact mirrored_pure rfl
  · exact .bind (on_files_mirrored (mirrored_call _ _ _)) fun _ _ _ _ => capture_mirrored _ _ _

/-- A recipe makes the workspace before it restores a cache; where it exists, that changes
nothing. -/
theorem restore_mirrored {key : String} {directory : Option String}
    (valid : keyFault? key = none) (shares : host.SharesCache directory)
    (stands : state.files.isDirectory host.workspace = true) :
    MirroredBy .of state Eq
      ((CacheArchive.mk (CacheArchive.directoryOf host.settings host.machine.home directory)
        key).restore "tar" (host.workshop.placeFor environment))
      (host.restoreCache environment.entries key directory) := by
  rw [restoreCache, check_key_of_valid valid, pure_bind]
  refine mirrored_get_bind ?_
  rw [archiveOf, cache_root_eq shares]
  have sameFiles : (ProgramState.of state).files = state.files := rfl
  have samePlace : (host.workshop.placeFor environment).directory = host.workspace := rfl
  have made : (Doing.call host.workspace (Files.createDirectories host.workspace)).outcome state =
      (.ok (), state) := by
    rw [Doing.call, Doing.onFiles, outcome_within, outcome_map_failure,
      Files.create_directories_exists stands]
    rfl
  have sameArchive (root : FilePath) :
      (CacheArchive.mk root key).path = root.join ⟨key ++ ".tar.gz"⟩ := rfl
  rw [sameFiles, samePlace, sameArchive]
  split
  · exact mirrored_after made (capture_mirrored _ _ _)
  · exact mirrored_pure rfl

/-- Program and recipe look for the files of an action in one place: a path to check out
leads to something or to nothing, a cache is shared, and a restored one has a workspace. -/
def Finds (host : ProgramHost) (files : Files) : Action → Prop
  | .checkout _ _ path => Leads files (host.workspace.join ⟨path⟩)
  | .cache .save _ _ directory => host.SharesCache directory
  | .cache .restore _ _ directory =>
      host.SharesCache directory ∧ files.isDirectory host.workspace = true
  | _ => True

theorem custom_mirrored (typeName : String) (parameters : Dictionary String) :
    MirroredBy .of state Eq
      (Station.registry.dispatch typeName parameters (host.workshop.placeFor environment))
      (host.capture environment.entries none (handlerPrefix ++ typeName)
        (parameters.entries.map fun entry => "--" ++ entry.1 ++ "=" ++ entry.2)) :=
  (capture_mirrored none (handlerPrefix ++ typeName) (handlerArguments parameters)).mapFailure
    |>.mapFailure

/-- What a recipe accepts, the program carries out as the recipe does. -/
theorem action_mirrored {action : Action} {ready : ReadyAction}
    (accepted : action.ready host.settings host.machine.home = .ok ready)
    (finds : host.Finds state.files action) :
    MirroredBy .of state Eq
      (ready.run Station.registry (host.workshop.placeFor environment))
      (host.runAction environment.entries (.of action)) := by
  cases action with
  | shell command directory =>
      obtain ⟨_, _, accepted⟩ := except_bind_ok accepted
      obtain ⟨_, _, accepted⟩ := except_bind_ok accepted
      cases accepted
      exact (capture_mirrored _ _ _).mapFailure
  | compile sourceFile outputName optimize =>
      obtain ⟨_, _, accepted⟩ := except_bind_ok accepted
      obtain ⟨_, _, accepted⟩ := except_bind_ok accepted
      cases accepted
      exact (capture_mirrored _ _ _).mapFailure
  | testRun testFile filter =>
      obtain ⟨_, _, accepted⟩ := except_bind_ok accepted
      obtain ⟨_, _, accepted⟩ := except_bind_ok accepted
      cases accepted
      cases filter with
      | none => exact (capture_mirrored _ _ _).mapFailure
      | some filter => exact (capture_mirrored _ _ _).mapFailure
  | checkout repository branch path =>
      obtain ⟨_, _, accepted⟩ := except_bind_ok accepted
      obtain ⟨_, _, accepted⟩ := except_bind_ok accepted
      obtain ⟨_, _, accepted⟩ := except_bind_ok accepted
      cases accepted
      exact (checkout_mirrored repository branch path finds).mapFailure
  | artifact sourcePath destination =>
      obtain ⟨_, _, accepted⟩ := except_bind_ok accepted
      obtain ⟨_, _, accepted⟩ := except_bind_ok accepted
      cases accepted
      exact ((on_files_mirrored (Artifact.copy_within_mirrored _ _ _)).then_pure
        fun _ _ _ => rfl).mapFailure
  | cache operation key paths directory =>
      obtain ⟨archive, named, accepted⟩ := except_bind_ok accepted
      obtain ⟨_, validated, named⟩ := except_bind_ok named
      cases named
      have valid : keyFault? key = none := by
        rw [validateKey] at validated
        cases fault : keyFault? key with
        | none => rfl
        | some reason =>
            rw [fault] at validated
            cases validated
      cases operation with
      | save =>
          cases accepted
          exact (save_mirrored _ valid finds).mapFailure
      | restore =>
          cases accepted
          exact (restore_mirrored valid finds.1 finds.2).mapFailure
  | custom typeName parameters =>
      obtain ⟨_, _, accepted⟩ := except_bind_ok accepted
      split at accepted
      · cases accepted
      · cases accepted
        exact custom_mirrored typeName parameters

end ProgramHost

end PipelineWaves
