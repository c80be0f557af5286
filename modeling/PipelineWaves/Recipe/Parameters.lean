import PipelineWaves.Dictionary
import PipelineWaves.Recipe.Error
import PipelineWaves.Text.Blank

/-!
# Parameters of actions

Checks on the parameters of actions, and the forms in which they travel: path
lists split at commas, cache keys that name one file of the cache directory, and
custom parameters as arguments of the form `--key=value`, which split again at
their first equals sign.
-/

set_option autoImplicit false

namespace PipelineWaves

def containsNul (text : String) : Bool := text.toList.contains '\x00'

def nulReason : String := "contains a NUL character"

def requireParameter (name value : String) : Except RecipeError Unit :=
  if Text.isBlankText value then .error (.missingParameter name)
  else if containsNul value then .error (.invalidParameter name nulReason)
  else .ok ()

def commaPieces (text : String) : List String := text.splitOn ","

/-- The trimmed pieces between commas; blank pieces are dropped. -/
def splitPaths (text : String) : List String :=
  ((commaPieces text).map Text.trimBlank).filter fun piece => piece ≠ ""

def containsDoubleDot : List Char → Bool
  | '.' :: '.' :: _ => true
  | _ :: rest => containsDoubleDot rest
  | [] => false

/-- What is wrong with a cache key. -/
def keyFault? (key : String) : Option String :=
  let characters := key.toList
  if Text.isBlankText key then some "must not be empty"
  else if characters.contains '/' || characters.contains '\\' then
    some "must not contain path separators"
  else if containsDoubleDot characters then some "must not contain '..'"
  else if containsNul key then some nulReason
  else none

def validateKey (key : String) : Except RecipeError Unit :=
  match keyFault? key with
  | some reason => .error (.invalidParameter "key" reason)
  | none => .ok ()

def handlerArguments (parameters : Dictionary String) : List String :=
  parameters.entries.map fun entry => "--" ++ entry.1 ++ "=" ++ entry.2

/-- Key and value on the two sides of the first equals sign. -/
def splitKeyValue (text : String) : Option (String × String) :=
  let characters := text.toList
  let key := characters.takeWhile fun character => character ≠ '='
  match characters.drop key.length with
  | [] => none
  | _ :: value => if key.isEmpty then none else some (String.ofList key, String.ofList value)

def keyValueMessage (text : String) : String := "Invalid KEY=VALUE pair: " ++ text

end PipelineWaves
