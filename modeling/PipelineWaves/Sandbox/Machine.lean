import PipelineWaves.Recipe.World
import PipelineWaves.Sandbox.Evaluation

/-!
# The sandbox as a machine

Launches are answered by the programs of the sandbox. A program runs in the
directory of the launch with the inherited variables, the launch's own laid over
them, and with nothing to read. It is looked up on its own search path.
-/

set_option autoImplicit false

namespace PipelineWaves.Sandbox

/-- The variables of a process: each is handed over as a name and a value around one sign. -/
def processEnvironment (inherited own : Environment) : Environment :=
  Dictionary.ofList
    ((inherited.overlay own).entries.map fun entry =>
      let (name, value) := Builtin.definition (entry.1 ++ "=" ++ entry.2)
      (name, value.getD ""))

def runLaunch (inherited : Environment) (launch : Launch) (files : Files) :
    Except FileFault UtilityResult := do
  let environment := processEnvironment inherited launch.environment
  let path := (environment.get? "PATH").getD Program.searchPath
  let loaded ← Program.resolve files path launch.program launch.arguments
  let call : UtilityCall :=
    ⟨launch.program, loaded.arguments, files, ByteArray.empty, environment⟩
  .ok (Shell.runProgram Shell.runScript Shell.deepestStart loaded call)

def outputOf (result : UtilityResult) : ProcessOutput :=
  { stdoutBytes := result.out
    stderrBytes := result.err
    ending := if result.signal.isSome then .killed else .exited result.code }

/-- The files as a process sees them that starts in a directory. -/
def filesIn (files : Files) (directory : FilePath) : Except FileFault Files :=
  match files.node? directory with
  | .ok (location, .directory _) => .ok { files with here := location }
  | .ok _ => .error .notADirectory
  | .error fault => .error fault

def answer (inherited : Environment) (launch : Launch) (world : World) :
    Except LaunchFault ProcessOutput × Files :=
  let files := world.files
  match (filesIn files launch.directory).bind (runLaunch inherited launch) with
  | .ok result => (.ok (outputOf result), { result.files with here := files.here })
  | .error fault => (.error (.refused fault), files)

def machine (inherited : Environment) : Machine where
  home := (inherited.get? "HOME").getD ""
  launch := answer inherited

end PipelineWaves.Sandbox
