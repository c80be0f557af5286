import PipelineWaves.FilePath

/-!
# Recipe errors

Why an action failed. Each of them fails only its own step.
-/

set_option autoImplicit false

namespace PipelineWaves

inductive RecipeError where
  | missingParameter (name : String)
  | invalidParameter (name reason : String)
  | notSpawned (program reason : String)
  | exited (code : Int)
  | filesystem (path : FilePath) (reason : String)
  | handlerFailed (typeName reason : String)
deriving DecidableEq, Repr

namespace RecipeError

def message : RecipeError → String
  | missingParameter name => s!"missing required parameter '{name}'"
  | invalidParameter name reason => s!"invalid value for parameter '{name}': {reason}"
  | notSpawned program reason => s!"failed to spawn '{program}': {reason}"
  | exited code => s!"process exited with code {code}"
  | filesystem path reason => s!"filesystem error at {path.text}: {reason}"
  | handlerFailed typeName reason => s!"custom handler '{typeName}' failed: {reason}"

end RecipeError

end PipelineWaves
