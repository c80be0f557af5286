import PipelineWaves.Program.Fragment
import PipelineWaves.Program.PackageName
import PipelineWaves.Program.Quoted
import PipelineWaves.Program.Table
import PipelineWaves.Recipe.Settings

/-!
# Written programs

The text of a program: its tables written as literals and put into the fixed
fragments. Writing fails only on a text that has no literal; the error names the
first field that holds one, in the order in which the fields are written. Equal
pipelines give equal programs.
-/

set_option autoImplicit false

namespace PipelineWaves

namespace ProgramText

def quoteEach (context : String) : List String → Except GenerationError (List String)
  | [] => .ok []
  | text :: rest => do
      let literal ← quote context text
      let literals ← quoteEach context rest
      .ok (literal :: literals)

/-- Quotes keys and values; each value has a context of its own. -/
def quotePairs (keyContext : String) (valueContext : String → String) :
    List (String × String) → Except GenerationError (List String)
  | [] => .ok []
  | (key, value) :: rest => do
      let keyLiteral ← quote keyContext key
      let valueLiteral ← quote (valueContext key) value
      let pairs ← quotePairs keyContext valueContext rest
      .ok (s!"({keyLiteral}, {valueLiteral})" :: pairs)

def braced (name fields : String) : String := name ++ " \x7b " ++ fields ++ " \x7d"

def listed (items : List String) : String := "&[" ++ ", ".intercalate items ++ "]"

def positions (indices : List Nat) : String :=
  "    &[" ++ ", ".intercalate (indices.map toString) ++ "],"

end ProgramText

open ProgramText

namespace ProgramAction

/-- An action as a literal of the step with the given id. -/
def text (stepId : String) (action : ProgramAction) : Except GenerationError String := do
  let context (field : String) : String := "steps." ++ stepId ++ "." ++ field
  let q (field value : String) : Except GenerationError String := quote (context field) value
  let option (field : String) (value : Option String) : Except GenerationError String :=
    quoteOption (context field) value
  match action with
  | .shell command directory =>
      let command ← q "command" command
      let directory ← option "working_dir" directory
      .ok (braced "Action::Shell" s!"command: {command}, working_dir: {directory}")
  | .compile sourceFile outputName optimize =>
      let sourceFile ← q "source_file" sourceFile
      let outputName ← q "output_name" outputName
      let optimize ← q "optimize" optimize
      .ok (braced "Action::Compile"
        s!"source_file: {sourceFile}, output_name: {outputName}, optimize: {optimize}")
  | .testRun testFile filter =>
      let testFile ← q "test_file" testFile
      let filter ← option "filter" filter
      .ok (braced "Action::TestRun" s!"test_file: {testFile}, filter: {filter}")
  | .checkout repository branch path =>
      let repository ← q "repository" repository
      let branch ← q "branch" branch
      let path ← q "path" path
      .ok (braced "Action::Checkout"
        s!"repository: {repository}, branch: {branch}, path: {path}")
  | .artifact sourcePath destination =>
      let sourcePath ← q "source_path" sourcePath
      let destination ← q "destination" destination
      .ok (braced "Action::Artifact"
        s!"source_path: {sourcePath}, destination: {destination}")
  | .cacheSave key paths directory =>
      let paths ← quoteEach (context "paths") paths
      let key ← q "key" key
      let directory ← option "cache_dir" directory
      .ok (braced "Action::CacheSave"
        s!"key: {key}, paths: {listed paths}, cache_dir: {directory}")
  | .cacheRestore key directory =>
      let key ← q "key" key
      let directory ← option "cache_dir" directory
      .ok (braced "Action::CacheRestore" s!"key: {key}, cache_dir: {directory}")
  | .custom typeName parameters =>
      let pairs ← quotePairs (context "parameters")
        (fun key => context ("parameters." ++ key)) parameters
      let typeName ← q "type_name" typeName
      .ok (braced "Action::Custom"
        s!"type_name: {typeName}, parameters: {listed pairs}")

end ProgramAction

namespace ProgramStep

def text (index : Nat) (step : ProgramStep) : Except GenerationError String := do
  let context (field : String) : String := "steps." ++ step.id ++ "." ++ field
  let pairs ← quotePairs (context "env") (fun key => context ("env." ++ key)) step.environment
  let id ← quote (context "id") step.id
  let name ← quote (context "name") step.name
  let action ← step.action.text step.id
  .ok ("\n".intercalate
    [s!"    // {index}: " ++ comment step.name, "    Step \x7b", s!"        id: {id},",
      s!"        name: {name},", s!"        env: {listed pairs},",
      s!"        action: {action},", "    \x7d,"])

end ProgramStep

namespace ProgramExpression

def operandText (context : String) : Operand → Except GenerationError String
  | .variable name => do .ok s!"env_get(env, {← quote context name})"
  | .literal text => quote context text

def comparisonText : Comparison → String
  | .equal => "=="
  | .different => "!="

def outcomeText : StepOutcome → String
  | .success => "Success"
  | .failed => "Failed"
  | .skipped => "Skipped"

/-- Expressions whose text already stands in parentheses. -/
def isEnclosed : ProgramExpression → Bool
  | .compare _ _ _ => true
  | .outcomeIs _ _ => true
  | .and _ _ => true
  | .or _ _ => true
  | _ => false

def text (context : String) : ProgramExpression → Except GenerationError String
  | .constant value => .ok (if value then "true" else "false")
  | .truthy name => do .ok s!"truthy(env_get(env, {← quote context name}))"
  | .compare left how right => do
      let left ← operandText context left
      let right ← operandText context right
      .ok s!"({left} {comparisonText how} {right})"
  | .outcomeIs index outcome =>
      .ok s!"(outcomes[{index}] == Some(Outcome::{outcomeText outcome}))"
  | .not inner => do
      let innerText ← text context inner
      .ok (if inner.isEnclosed then "!" ++ innerText else s!"!({innerText})")
  | .and left right => do
      let left ← text context left
      let right ← text context right
      .ok s!"({left} && {right})"
  | .or left right => do
      let left ← text context left
      let right ← text context right
      .ok s!"({left} || {right})"

end ProgramExpression

/-- A file of a generated program, by its path in the output directory. -/
structure ProgramFile where
  path : FilePath
  contents : String
deriving DecidableEq, Repr

structure GeneratedProgram where
  packageName : String
  files : List ProgramFile
deriving DecidableEq, Repr

namespace GeneratedProgram

def manifestPath : FilePath := ⟨"Cargo.toml"⟩

def mainPath : FilePath := ⟨"src/main.rs"⟩

def file? (program : GeneratedProgram) (path : FilePath) : Option String :=
  (program.files.find? fun file => file.path.sameAs path).map ProgramFile.contents

def main? (program : GeneratedProgram) : Option String := program.file? mainPath

def manifest? (program : GeneratedProgram) : Option String := program.file? manifestPath

end GeneratedProgram

namespace ProgramTables

/-- The texts of one step: its entry and, if it has a condition, its arm. -/
def stepTexts (tables : ProgramTables) (entry : ProgramStep × Nat) :
    Except GenerationError (String × Option String) := do
  let (step, index) := entry
  let text ← step.text index
  match tables.conditions.lookup index with
  | none => .ok (text, none)
  | some expression =>
      let condition ← expression.text ("steps." ++ step.id ++ ".condition")
      .ok (text, some s!"        {index} => {condition},")

def allStepTexts (tables : ProgramTables) :
    List (ProgramStep × Nat) → Except GenerationError (List (String × Option String))
  | [] => .ok []
  | entry :: rest => do
      let texts ← stepTexts tables entry
      let others ← allStepTexts tables rest
      .ok (texts :: others)

/-- The values of all placeholders. -/
def values (tables : ProgramTables) : Except GenerationError (List (String × String)) := do
  let texts ← tables.allStepTexts tables.steps.zipIdx
  let name ← quote "name" tables.pipelineName
  let toolchain ← quote "toolchain" RecipeSettings.standard.toolchain
  let handler ← quote "handler prefix" handlerPrefix
  let application ← quote "app name" applicationName
  let lines (items : List String) : String := "\n".intercalate items
  .ok
    [("pipeline_comment", comment tables.pipelineName),
      ("pipeline_name", name),
      ("default_toolchain", toolchain),
      ("handler_prefix", handler),
      ("app_name", application),
      ("steps", lines (texts.map Prod.fst)),
      ("waves", lines (tables.waves.map positions)),
      ("dependents", lines (tables.dependents.map positions)),
      ("conditions", lines (texts.filterMap Prod.snd)),
      ("package_name", PackageName.of tables.pipelineName)]

def program (tables : ProgramTables) : Except GenerationError GeneratedProgram := do
  let values ← tables.values
  let manifest ← ProgramFragment.render ProgramFragment.manifestName values
  let main ← ProgramFragment.render ProgramFragment.programName values
  .ok ⟨PackageName.of tables.pipelineName,
    [⟨GeneratedProgram.manifestPath, manifest⟩, ⟨GeneratedProgram.mainPath, main⟩]⟩

end ProgramTables

namespace CompiledPipeline

/-- The program of a compiled pipeline. -/
def generate (compiled : CompiledPipeline) : Except GenerationError GeneratedProgram :=
  (ProgramTables.of compiled).program

end CompiledPipeline

end PipelineWaves
