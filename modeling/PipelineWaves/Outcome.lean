/-!
# Outcomes

How a step ends and how a whole run stands.
-/

set_option autoImplicit false

namespace PipelineWaves

inductive StepOutcome where
  | success
  | failed
  | skipped
deriving DecidableEq, Repr

namespace StepOutcome

def text : StepOutcome → String
  | success => "success"
  | failed => "failed"
  | skipped => "skipped"

/-- The word that a condition uses for an outcome. -/
def conditionWord : StepOutcome → String
  | success => "succeeded"
  | failed => "failed"
  | skipped => "skipped"

def ofConditionWord? : String → Option StepOutcome
  | "succeeded" => some success
  | "failed" => some failed
  | "skipped" => some skipped
  | _ => none

/-- The name under which reports store an outcome. -/
def reportName : StepOutcome → String
  | success => "Success"
  | failed => "Failed"
  | skipped => "Skipped"

def all : List StepOutcome := [success, failed, skipped]

theorem ofConditionWord?_conditionWord (outcome : StepOutcome) :
    ofConditionWord? outcome.conditionWord = some outcome := by
  cases outcome <;> rfl

end StepOutcome

inductive RunStatus where
  | pending
  | running
  | completed
  | failed
  | cancelled
deriving DecidableEq, Repr

namespace RunStatus

/-- The name under which reports store a status. -/
def reportName : RunStatus → String
  | pending => "Pending"
  | running => "Running"
  | completed => "Completed"
  | failed => "Failed"
  | cancelled => "Cancelled"

def all : List RunStatus := [pending, running, completed, failed, cancelled]

end RunStatus

end PipelineWaves
