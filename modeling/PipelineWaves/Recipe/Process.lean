import PipelineWaves.Recipe.Parameters
import PipelineWaves.Recipe.World

/-!
# Processes of a step

A probe starts a program and keeps what it writes to itself. A run records the
output with the step and fails unless the program exits with zero.
-/

set_option autoImplicit false

namespace PipelineWaves

structure StepPlace where
  machine : Machine
  directory : FilePath
  environment : Environment

namespace StepPlace

def launchOf (place : StepPlace) (directory : Option FilePath) (program : String)
    (arguments : List String) : Launch :=
  ⟨program, arguments, directory.getD place.directory, place.environment⟩

/-- Asks the machine for a process; texts with NUL cannot be handed over. -/
def start (place : StepPlace) (launch : Launch) (world : World) :
    Except LaunchFault ProcessOutput × World :=
  if launch.texts.any containsNul then (.error .nulInData, world)
  else
    let (answer, files) := place.machine.launch launch world
    (answer, ⟨files, world.launches ++ [launch]⟩)

/-- Starts a program whose output is not recorded. -/
def probe (place : StepPlace) (directory : Option FilePath) (program : String)
    (arguments : List String) : Doing ProcessOutput :=
  Attempt.of fun state =>
    match place.start (place.launchOf directory program arguments) state.world with
    | (.ok output, world) => (.ok output, { state with world })
    | (.error fault, world) => (.error (.notSpawned program fault.text), { state with world })

def record (output : ProcessOutput) : Doing Unit :=
  modify fun state => { state with output := state.output.record output }

def run (place : StepPlace) (directory : Option FilePath) (program : String)
    (arguments : List String) : Doing Unit := do
  let output ← place.probe directory program arguments
  record output
  if output.isSuccess then pure () else throw (.exited output.exitCode)

end StepPlace

end PipelineWaves
