import PipelineWaves.Environment
import PipelineWaves.Pipeline.Action

/-!
# Pipelines

A pipeline is a list of steps with a common environment. A step runs one action,
after the steps it depends on, in the common environment under its own
variables, and only if its condition holds.
-/

set_option autoImplicit false

namespace PipelineWaves

structure Step where
  id : String
  name : String
  action : Action
  dependsOn : List String
  environment : Environment
  condition : Option String
deriving DecidableEq, Repr

structure Pipeline where
  name : String
  description : String
  steps : List Step
  environment : Environment
deriving DecidableEq, Repr

namespace Pipeline

def step? (pipeline : Pipeline) (id : String) : Option Step :=
  pipeline.steps.find? fun step => step.id = id

def stepIds (pipeline : Pipeline) : List String :=
  pipeline.steps.map Step.id

/-- The environment a step runs in. -/
def environmentOf (pipeline : Pipeline) (step : Step) : Environment :=
  pipeline.environment.overlay step.environment

/-- The pipeline with further variables laid over its common environment. -/
def withOverrides (pipeline : Pipeline) (overrides : Environment) : Pipeline :=
  { pipeline with environment := pipeline.environment.overlay overrides }

end Pipeline

end PipelineWaves
