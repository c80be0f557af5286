import PipelineWaves.Environment
import PipelineWaves.Files.Call
import PipelineWaves.Recipe.Error
import PipelineWaves.Text.Bytes

/-!
# What recipes act on

Recipes change files and start processes. What a process does is not fixed
here: a `Machine` answers every launch, in view of the files and of all earlier
launches, with the bytes that the process writes and the files after it, or refuses
to start it. What the processes of a step write is captured as text, together with
the exit code of the last one.
-/

set_option autoImplicit false

namespace PipelineWaves

/-- A program to be started, with the variables that the step lays over its own. -/
structure Launch where
  program : String
  arguments : List String
  directory : FilePath
  environment : Environment
deriving DecidableEq, Repr

namespace Launch

/-- Every text that is handed to the system when the program is started. -/
def texts (launch : Launch) : List String :=
  [launch.program] ++ launch.arguments ++ [launch.directory.text]
    ++ launch.environment.entries.flatMap fun entry => [entry.1, entry.2]

end Launch

inductive ProcessEnding where
  | exited (code : Nat)
  | killed
deriving DecidableEq, Repr

structure ProcessOutput where
  stdoutBytes : ByteArray
  stderrBytes : ByteArray
  ending : ProcessEnding

namespace ProcessOutput

/-- The output of a process that writes well-formed texts. -/
def ofTexts (stdout stderr : String) (ending : ProcessEnding) : ProcessOutput :=
  ⟨stdout.toUTF8, stderr.toUTF8, ending⟩

-- Output is read as text; bytes that are none give replacement characters.
def stdout (output : ProcessOutput) : String := Text.ofBytes output.stdoutBytes

def stderr (output : ProcessOutput) : String := Text.ofBytes output.stderrBytes

/-- The exit code; a process that was killed has none and counts as minus one. -/
def exitCode (output : ProcessOutput) : Int :=
  match output.ending with
  | .exited code => code
  | .killed => -1

def isSuccess (output : ProcessOutput) : Bool := output.ending = .exited 0

end ProcessOutput

inductive LaunchFault where
  | nulInData
  | refused (fault : FileFault)
deriving DecidableEq, Repr

namespace LaunchFault

def text : LaunchFault → String
  | nulInData => "nul byte found in provided data"
  | refused fault => fault.text

end LaunchFault

/-- The files, and the processes that were asked for so far, the latest last. -/
structure World where
  files : Files
  launches : List Launch

structure Machine where
  /-- The home directory of whoever runs the pipeline; empty if unknown. -/
  home : String
  launch : Launch → World → Except LaunchFault ProcessOutput × Files

structure CapturedOutput where
  stdout : String
  stderr : String
  exitCode : Option Int
deriving DecidableEq, Repr

namespace CapturedOutput

def none : CapturedOutput := ⟨"", "", .none⟩

def record (captured : CapturedOutput) (output : ProcessOutput) : CapturedOutput :=
  { stdout := captured.stdout ++ output.stdout
    stderr := captured.stderr ++ output.stderr
    exitCode := some output.exitCode }

end CapturedOutput

structure StepState where
  world : World
  output : CapturedOutput

namespace StepState

def files (state : StepState) : Files := state.world.files

def withFiles (state : StepState) (files : Files) : StepState :=
  { state with world := { state.world with files } }

end StepState

abbrev Doing (Result : Type) : Type := Attempt StepState RecipeError Result

namespace Doing

variable {Result : Type}

/-- Works on files whose failures are those of recipes already. -/
def onFiles (work : Attempt Files RecipeError Result) : Doing Result :=
  work.within StepState.files StepState.withFiles

def call (path : FilePath) (call : FileCall Result) : Doing Result :=
  onFiles (call.mapFailure fun fault => .filesystem path fault.text)

end Doing

end PipelineWaves
