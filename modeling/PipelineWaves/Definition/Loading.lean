import PipelineWaves.Compiled
import PipelineWaves.Definition.Basic
import PipelineWaves.Files.Call
import PipelineWaves.Json.Source
import PipelineWaves.Yaml.Source

/-!
# Loading definitions

A definition is a file. Its extension says how it is written: `yaml` and `yml`
for YAML, anything else for JSON. A `DefinitionError` says what is wrong with a
text, a `LoadError` with a file.
-/

set_option autoImplicit false

namespace PipelineWaves

inductive DefinitionError where
  | json (error : ReadError)
  | yaml (error : ReadError)
  | unusable (fault : DefinitionFault)

inductive LoadError where
  | unreadable (path : FilePath) (fault : FileFault)
  | invalid (path : FilePath) (error : DefinitionError)

namespace DefinitionError

/-- The message of a misfit in YAML, with its place unless that is the whole document. -/
def yamlMessage (place : Option String) (error : ShapeError) : String :=
  let message := error.message YamlSource.wording
  match place with
  | some place => if place = YamlSource.rootPlace then message else place ++ ": " ++ message
  | none => message

/-- The message of a fault in the text itself. -/
def faultMessage : TextFault → String
  | .malformed => "malformed text"
  | .unfinished => "unfinished text"

def message : DefinitionError → String
  | json (.fault fault) => faultMessage fault
  | json (.shape _ error) => error.message JsonDocument.wording
  | yaml (.fault fault) => faultMessage fault
  | yaml (.shape place error) => yamlMessage place error
  | unusable fault => fault.message

end DefinitionError

namespace LoadError

/-- What was being done with which file. -/
def context : LoadError → String
  | unreadable path _ => s!"Failed to read pipeline file {path.text}"
  | invalid path _ => s!"Invalid pipeline definition in {path.text}"

def cause : LoadError → String
  | unreadable _ fault => fault.text
  | invalid _ error => error.message

def message (error : LoadError) : String := error.context ++ ": " ++ error.cause

end LoadError

namespace Definition

def check (definition : Definition) : Except DefinitionError Definition :=
  match definition.fault? with
  | some fault => .error (.unusable fault)
  | none => .ok definition

def ofJson (text : String) : Except DefinitionError Definition :=
  match JsonDocument.readAll Definition.read text with
  | .ok definition => definition.check
  | .error error => .error (.json error)

def ofYaml (text : String) : Except DefinitionError Definition :=
  match YamlSource.readAll Definition.read text with
  | .ok definition => definition.check
  | .error error => .error (.yaml error)

def isYaml (path : FilePath) : Bool :=
  path.extension? = some "yaml" || path.extension? = some "yml"

def load (files : Files) (path : FilePath) : Except LoadError Definition :=
  match files.text path with
  | .error fault => .error (.unreadable path fault)
  | .ok text =>
      match if isYaml path then ofYaml text else ofJson text with
      | .ok definition => .ok definition
      | .error error => .error (.invalid path error)

end Definition

end PipelineWaves
