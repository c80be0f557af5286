import PipelineWaves.Condition.Reader
import PipelineWaves.Graph.Basic

/-!
# Compiled pipelines

A pipeline is compiled before it runs or is turned into a program: its graph is
built, then its conditions are read and checked in order of declaration. Every
variable that a condition mentions must be defined for its step, every step must
be declared.
-/

set_option autoImplicit false

namespace PipelineWaves

inductive BuildError where
  | graph (error : GraphError)
  | condition (step : String) (error : ConditionSyntaxError)
  | undefined (step : String) (reference : Reference)
deriving DecidableEq, Repr

namespace BuildError

def message : BuildError → String
  | graph error => error.message
  | condition step error =>
      s!"step '{step}': condition syntax error at {error.position}: " ++ error.fault.message
  | undefined step reference =>
      s!"step '{step}': condition references undefined {reference.kindText} '{reference.name}'"

end BuildError

structure CompiledPipeline where
  pipeline : Pipeline
  graph : Graph
  /-- The conditions of the steps that have one, in order of declaration. -/
  conditions : List (String × Condition)
deriving Repr

namespace CompiledPipeline

/-- Reads and checks the condition of one step. -/
def compileCondition (pipeline : Pipeline) (graph : Graph) (step : Step) (source : String) :
    Except BuildError Condition :=
  match Condition.parse source with
  | .error error => .error (.condition step.id error)
  | .ok condition =>
      match condition.firstUndefined? (pipeline.environmentOf step) graph.contains with
      | some reference => .error (.undefined step.id reference)
      | none => .ok condition

def compileConditions (pipeline : Pipeline) (graph : Graph) :
    List Step → Except BuildError (List (String × Condition))
  | [] => .ok []
  | step :: rest =>
      match step.condition with
      | none => compileConditions pipeline graph rest
      | some source =>
          match compileCondition pipeline graph step source with
          | .error error => .error error
          | .ok condition =>
              (compileConditions pipeline graph rest).map ((step.id, condition) :: ·)

def compile (pipeline : Pipeline) : Except BuildError CompiledPipeline :=
  match Graph.build pipeline with
  | .error error => .error (.graph error)
  | .ok graph =>
      (compileConditions pipeline graph pipeline.steps).map (⟨pipeline, graph, ·⟩)

def condition? (compiled : CompiledPipeline) (id : String) : Option Condition :=
  compiled.conditions.lookup id

/-- The steps in the order of the plan. -/
def planSteps (compiled : CompiledPipeline) : List Step :=
  compiled.graph.planIds.filterMap compiled.pipeline.step?

end CompiledPipeline

end PipelineWaves
