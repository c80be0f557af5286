import PipelineWaves.Dictionary

/-!
# Environments

The variables a step sees. A pipeline has one environment for all its steps; a
step lays its own variables over it and never changes it.
-/

set_option autoImplicit false

namespace PipelineWaves

abbrev Environment := Dictionary String

namespace Environment

def valueOf (environment : Environment) (name : String) : String :=
  (environment.get? name).getD ""

/-- Neither empty nor one of the two texts that stand for false. -/
def isTruthy (value : String) : Bool :=
  value ≠ "" && value ≠ "false" && value ≠ "0"

end Environment

end PipelineWaves
