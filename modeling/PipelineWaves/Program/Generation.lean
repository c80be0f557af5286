import PipelineWaves.Definition.Loading
import PipelineWaves.Program.Delivery

/-!
# From a definition to a program on disk

Loads a definition, compiles its pipeline, generates the program and delivers
it. What happens is logged line by line, and a failure keeps the log so far. The
calls on files are a parameter here as they are in the delivery.
-/

set_option autoImplicit false

namespace PipelineWaves

inductive ProductionError where
  | notLoaded (error : LoadError)
  | notCompiled (pipelineName : String) (error : BuildError)
  | notGenerated (error : GenerationError)

namespace ProductionError

def invalidContext (pipelineName : String) : String := s!"Pipeline '{pipelineName}' is invalid"

def message : ProductionError → String
  | notLoaded error => error.message
  | notCompiled pipelineName error => invalidContext pipelineName ++ ": " ++ error.message
  | notGenerated error => error.message

end ProductionError

/-- What came of a definition, with the log and the state after it. -/
structure Production (State : Type) where
  result : Except ProductionError GeneratedProgram
  log : List String
  files : State

namespace Production

def parsing (path : FilePath) : String := s!"[1/3] Parsing {path.text}"

def validating (definition : Definition) : String :=
  s!"[2/3] Validating pipeline '{definition.name}' ({definition.steps.length} steps)"

def generating (out : FilePath) : String := s!"[3/3] Generating program into {out.text}"

def generated (program : GeneratedProgram) : String :=
  s!"Generated package '{program.packageName}'"

section Calls

variable {State : Type} (calls : FileCalls State)

/-- Generates and delivers the program of a compiled pipeline. -/
def deliver (compiled : CompiledPipeline) (identifier : RunIdentifier) (out : FilePath)
    (state : State) : Except GenerationError GeneratedProgram × State :=
  match compiled.generate with
  | .error error => (.error error, state)
  | .ok program =>
      match (program.deliver calls identifier out).outcome state with
      | (.ok _, after) => (.ok program, after)
      | (.error error, after) => (.error error, after)

/-- From the definition that `load` finds at a path to a program in `out`. -/
def runWith (load : State → FilePath → Except LoadError Definition) (identifier : RunIdentifier)
    (path out : FilePath) (state : State) : Production State :=
  let log := [parsing path]
  match load state path with
  | .error error => ⟨.error (.notLoaded error), log, state⟩
  | .ok definition =>
      let log := log ++ [validating definition]
      match CompiledPipeline.compile definition.toPipeline with
      | .error error => ⟨.error (.notCompiled definition.name error), log, state⟩
      | .ok compiled =>
          let log := log ++ [generating out]
          match deliver calls compiled identifier out state with
          | (.error error, after) => ⟨.error (.notGenerated error), log, after⟩
          | (.ok program, after) => ⟨.ok program, log ++ [generated program], after⟩

end Calls

def run (identifier : RunIdentifier) (path out : FilePath) (files : Files) : Production Files :=
  runWith Files.calls Definition.load identifier path out files

def logText {State : Type} (production : Production State) : String :=
  String.join (production.log.map fun line => line ++ "\n")

end Production

end PipelineWaves
