import PipelineWaves.Outcome
import PipelineWaves.Run.Identifier
import PipelineWaves.Time.Duration

/-!
# Run events

What a run announces while it goes on, and the reasons it gives for steps that
do not run.
-/

set_option autoImplicit false

namespace PipelineWaves

inductive RunEvent where
  | runStarted (identifier : RunIdentifier) (pipelineName : String) (steps waves : Nat)
  | waveStarted (index : Nat) (steps : List String)
  | stepStarted (step : String)
  | stepSkipped (step reason : String)
  | stepSucceeded (step : String) (duration : Duration)
  | stepFailed (step error stderr : String)
  | waveCompleted (index : Nat)
  | runInterrupted (remaining : Nat)
  | runCompleted (identifier : RunIdentifier) (status : RunStatus)
deriving DecidableEq, Repr

namespace SkipReason

def interrupted : String := "run interrupted"

def conditionFalse : String := "condition evaluated to false"

def dependencyFailed (failed : String) : String := s!"dependency '{failed}' failed"

end SkipReason

end PipelineWaves
