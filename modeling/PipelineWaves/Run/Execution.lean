import PipelineWaves.Recipe.Perform
import PipelineWaves.Run.Engine

/-!
# Executing pipelines

Runs in which steps are carried out by a workshop. The steps of a wave finish in
the order in which they were dispatched. A step whose handler breaks down leaves
no result of its own.
-/

set_option autoImplicit false

namespace PipelineWaves

namespace Workshop

def stepResult? (performance : Performance) (step : Step) (now : Instant) : Option StepResult :=
  let result (outcome : StepOutcome) (detail : Option String) : StepResult :=
    { stepId := step.id
      outcome
      stdout := performance.output.stdout
      stderr := performance.output.stderr
      duration := .zero
      startedAt := some now
      exitCode := performance.output.exitCode
      detail }
  match performance.result with
  | .ok _ => some (result .success none)
  | .error (.failed error) => some (result .failed (some error.message))
  | .error .brokeDown => none

def carryOut (workshop : Workshop) (now : Instant) (dispatch : Dispatch) (world : World) :
    Option StepResult × World :=
  let performance := workshop.perform dispatch.step.action dispatch.environment world
  (stepResult? performance dispatch.step now, performance.world)

def carryOutAll (workshop : Workshop) (now : Instant) :
    List Dispatch → World → List StepResult × World
  | [], world => ([], world)
  | dispatch :: rest, world =>
      let (result, world) := workshop.carryOut now dispatch world
      let (others, world) := workshop.carryOutAll now rest world
      (result.toList ++ others, world)

/-- The surroundings of a run; `interrupted` tells from the events whether to stop. -/
def surroundings (workshop : Workshop) (now : Instant) (interrupted : List RunEvent → Bool) :
    Surroundings World where
  isInterrupted := fun events _ => interrupted events
  perform := fun dispatches world => workshop.carryOutAll now dispatches world
  now := fun _ => now

end Workshop

end PipelineWaves
