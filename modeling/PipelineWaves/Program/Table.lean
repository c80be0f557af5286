import PipelineWaves.Compiled
import PipelineWaves.Recipe.Parameters

/-!
# Program tables

What a program knows of its pipeline: the steps in the order of the plan, each
with its whole environment, the waves and the dependents as positions in that
order, and one expression for every condition. A step that a condition asks
about is named by its position; a step without a position never has an outcome.
-/

set_option autoImplicit false

namespace PipelineWaves

inductive ProgramAction where
  | shell (command : String) (workingDirectory : Option String)
  | compile (sourceFile outputName optimize : String)
  | testRun (testFile : String) (filter : Option String)
  | checkout (repository branch path : String)
  | artifact (sourcePath destination : String)
  | cacheSave (key : String) (paths : List String) (directory : Option String)
  | cacheRestore (key : String) (directory : Option String)
  | custom (typeName : String) (parameters : List (String × String))
deriving DecidableEq, Repr

structure ProgramStep where
  id : String
  name : String
  environment : List (String × String)
  action : ProgramAction
deriving DecidableEq, Repr

/-- A boolean expression over the environment and the outcomes of a program. -/
inductive ProgramExpression where
  | constant (value : Bool)
  | truthy (name : String)
  | compare (left : Operand) (how : Comparison) (right : Operand)
  | outcomeIs (index : Nat) (outcome : StepOutcome)
  | not (inner : ProgramExpression)
  | and (left right : ProgramExpression)
  | or (left right : ProgramExpression)
deriving DecidableEq, Repr

structure ProgramTables where
  pipelineName : String
  steps : List ProgramStep
  waves : List (List Nat)
  dependents : List (List Nat)
  /-- Expressions by the position of their step. -/
  conditions : List (Nat × ProgramExpression)
deriving DecidableEq, Repr

namespace ProgramAction

def of : Action → ProgramAction
  | .shell command directory => .shell command directory
  | .compile sourceFile outputName optimize => .compile sourceFile outputName optimize.text
  | .testRun testFile filter => .testRun testFile filter
  | .checkout repository branch path => .checkout repository branch path
  | .artifact sourcePath destination => .artifact sourcePath destination
  | .cache .save key paths directory => .cacheSave key (splitPaths paths) directory
  | .cache .restore key _ directory => .cacheRestore key directory
  | .custom typeName parameters => .custom typeName parameters.entries

end ProgramAction

namespace ProgramStep

def of (pipeline : Pipeline) (step : Step) : ProgramStep :=
  { id := step.id
    name := step.name
    environment := (pipeline.environmentOf step).entries
    action := .of step.action }

end ProgramStep

namespace ProgramExpression

/-- The expression of a condition, where `positionOf` finds a step in the plan. -/
def of (positionOf : String → Option Nat) : Condition → ProgramExpression
  | .constant value => .constant value
  | .truthy (.variable name) => .truthy name
  | .truthy (.literal text) => .constant (text ≠ "")
  | .compare left how right => .compare left how right
  | .stepIs step outcome =>
      match positionOf step with
      | some index => .outcomeIs index outcome
      | none => .constant false
  | .not inner => .not (of positionOf inner)
  | .and left right => .and (of positionOf left) (of positionOf right)
  | .or left right => .or (of positionOf left) (of positionOf right)

end ProgramExpression

namespace ProgramTables

/-- The positions of the steps by their ids. -/
def indexOf (steps : List Step) : Dictionary Nat :=
  .ofList (steps.zipIdx.map fun entry => (entry.1.id, entry.2))

def positionsIn (index : Dictionary Nat) (ids : List String) : List Nat :=
  ids.filterMap index.get?

def conditionAt (compiled : CompiledPipeline) (positionOf : String → Option Nat)
    (entry : Step × Nat) : Option (Nat × ProgramExpression) :=
  (compiled.condition? entry.1.id).map fun condition =>
    (entry.2, ProgramExpression.of positionOf condition)

def of (compiled : CompiledPipeline) : ProgramTables :=
  let steps := compiled.planSteps
  let index := indexOf steps
  { pipelineName := compiled.pipeline.name
    steps := steps.map (ProgramStep.of compiled.pipeline)
    waves := compiled.graph.waveIds.map (positionsIn index)
    dependents := steps.map fun step =>
      (positionsIn index (compiled.graph.transitiveDependents step.id)).mergeSort
    conditions := steps.zipIdx.filterMap (conditionAt compiled index.get?) }

end ProgramTables

end PipelineWaves
