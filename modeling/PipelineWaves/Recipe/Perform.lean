import PipelineWaves.Pipeline.Action
import PipelineWaves.Recipe.Artifact
import PipelineWaves.Recipe.Cache
import PipelineWaves.Recipe.Checkout
import PipelineWaves.Recipe.Registry

/-!
# Carrying out actions

An action is made ready before anything happens: its parameters are checked and
its paths resolved against the workspace. Only a ready action runs, so a
rejected one starts no process and touches no file.
-/

set_option autoImplicit false

namespace PipelineWaves

inductive ReadyAction where
  | shell (command : String) (directory : Option FilePath)
  /-- A program of the toolchain that is called in the workspace. -/
  | tool (program : String) (arguments : List String)
  | checkout (copy : Checkout)
  | artifact (source target : FilePath)
  | save (archive : CacheArchive) (tar : String) (paths : List String)
  | restore (archive : CacheArchive) (tar : String)
  | custom (typeName : String) (parameters : Dictionary String)

def parameterNameReason : String :=
  "parameter names must be non-empty and must not contain '='"

def parameterNameFault? (name : String) : Option RecipeError :=
  if name = "" || name.toList.contains '=' then
    some (.invalidParameter ("parameters." ++ name) parameterNameReason)
  else none

namespace Action

def compileArguments (sourceFile outputName : String) (optimize : OptimizeMode) : List String :=
  ["build-exe", sourceFile, "-O", optimize.text, "--name", outputName]

def testArguments (testFile : String) (filter : Option String) : List String :=
  match filter with
  | some filter => ["test", testFile, "--test-filter", filter]
  | none => ["test", testFile]

/-- A parameter that may be left out, but must not be blank when it is there. -/
def requireIfGiven (name : String) : Option String → Except RecipeError Unit
  | some value => requireParameter name value
  | none => .ok ()

def ready (settings : RecipeSettings) (home : String) : Action → Except RecipeError ReadyAction
  | .shell command directory => do
      requireParameter "command" command
      requireIfGiven "working_dir" directory
      .ok (.shell command (directory.map fun path => settings.resolve ⟨path⟩))
  | .compile sourceFile outputName optimize => do
      requireParameter "source_file" sourceFile
      requireParameter "output_name" outputName
      .ok (.tool settings.toolchain (compileArguments sourceFile outputName optimize))
  | .testRun testFile filter => do
      requireParameter "test_file" testFile
      requireIfGiven "filter" filter
      .ok (.tool settings.toolchain (testArguments testFile filter))
  | .checkout repository branch path => do
      requireParameter "repository" repository
      requireParameter "branch" branch
      requireParameter "path" path
      .ok (.checkout ⟨settings.git, repository, branch, settings.resolve ⟨path⟩⟩)
  | .artifact sourcePath destination => do
      requireParameter "source_path" sourcePath
      requireParameter "destination" destination
      .ok (.artifact (settings.resolve ⟨sourcePath⟩) (settings.resolve ⟨destination⟩))
  | .cache operation key paths directory => do
      let archive ← CacheArchive.of settings home key directory
      match operation with
      | .save => .ok (.save archive settings.tar (splitPaths paths))
      | .restore => .ok (.restore archive settings.tar)
  | .custom typeName parameters => do
      requireParameter "type_name" typeName
      match parameters.keys.findSome? parameterNameFault? with
      | some error => .error error
      | none => .ok (.custom typeName parameters)

end Action

namespace ReadyAction

/-- Runs everything but custom actions. -/
def runOwn (place : StepPlace) : ReadyAction → Doing Unit
  | .shell command directory => place.run directory "sh" ["-c", command]
  | .tool program arguments => place.run none program arguments
  | .checkout copy => copy.run place
  | .artifact source target => discard (Doing.onFiles (Artifact.copy source target))
  | .save archive tar paths => archive.save tar paths place
  | .restore archive tar => archive.restore tar place
  | .custom _ _ => pure ()

def run (registry : CustomRegistry) (place : StepPlace) (action : ReadyAction) :
    Attempt StepState ActionFailure Unit :=
  match action with
  | .custom typeName parameters => registry.dispatch typeName parameters place
  | other => (runOwn place other).mapFailure .failed

end ReadyAction

/-- What carries out actions: settings, handlers and a machine. -/
structure Workshop where
  settings : RecipeSettings
  registry : CustomRegistry
  machine : Machine

namespace Workshop

def placeFor (workshop : Workshop) (environment : Environment) : StepPlace :=
  ⟨workshop.machine, workshop.settings.workspace, environment⟩

/-- How an action ended, what its processes wrote, and the world after it. -/
structure Performance where
  result : Except ActionFailure Unit
  output : CapturedOutput
  world : World

def perform (workshop : Workshop) (action : Action) (environment : Environment)
    (world : World) : Performance :=
  match action.ready workshop.settings workshop.machine.home with
  | .error error => ⟨.error (.failed error), .none, world⟩
  | .ok ready =>
      let place := workshop.placeFor environment
      let (result, state) := (ready.run workshop.registry place).outcome ⟨world, .none⟩
      ⟨result, state.output, state.world⟩

end Workshop

end PipelineWaves
