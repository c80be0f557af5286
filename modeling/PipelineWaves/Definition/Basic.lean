import PipelineWaves.Pipeline.Written

/-!
# Pipeline definitions

A definition is a pipeline as its author writes it: variables may be any scalar
values, and a step without a name takes its id. `fault?` finds the first field
that a pipeline could not use; the dependencies between steps are not looked at
here. Unlike written pipelines, definitions refuse unknown fields everywhere.
-/

set_option autoImplicit false

namespace PipelineWaves

structure StepDefinition where
  id : String
  name : Option String
  action : Action
  dependsOn : List String
  environment : Dictionary Json
  condition : Option String

structure Definition where
  name : String
  description : String
  environment : Dictionary Json
  steps : List StepDefinition

/-- A field value that no pipeline can use. -/
inductive DefinitionFault where
  | blankName
  | emptyVariableName (field : String)
  | unsuitableVariable (field variableName : String)
  | invalidStepId (id : String)
  | blankCondition (step : String)
deriving DecidableEq, Repr

namespace DefinitionFault

def message : DefinitionFault → String
  | blankName => "Pipeline name must not be empty"
  | emptyVariableName field => s!"Field '{field}' contains an empty variable name"
  | unsuitableVariable field variableName =>
      s!"Field '{field}': variable '{variableName}' must be a string, number, boolean or null"
  | invalidStepId id =>
      s!"Step '{id}': field 'id' may only contain letters, digits, '_' and '-'"
  | blankCondition step => s!"Step '{step}': field 'condition' must not be empty"

end DefinitionFault

namespace Definition

def isComposite : Json → Bool
  | .list _ => true
  | .object _ => true
  | _ => false

/-- The text of a variable given as a scalar value. -/
def variableText : Json → String
  | .text value => value
  | .null => ""
  | other => other.compact

def environmentFault? (field : String) (environment : Dictionary Json) : Option DefinitionFault :=
  environment.entries.findSome? fun entry =>
    if entry.1 = "" then some (.emptyVariableName field)
    else if isComposite entry.2 then some (.unsuitableVariable field entry.1)
    else none

def isStepIdCharacter (character : Char) : Bool :=
  character.isAlphanum || character = '_' || character = '-'

def isStepId (id : String) : Bool :=
  id ≠ "" && id.toList.all isStepIdCharacter

def stepFault? (step : StepDefinition) : Option DefinitionFault :=
  if !isStepId step.id then some (.invalidStepId step.id)
  else
    match environmentFault? ("steps." ++ step.id ++ ".env") step.environment with
    | some fault => some fault
    | none =>
        match step.condition with
        | some condition =>
            if Text.isBlankText condition then some (.blankCondition step.id) else none
        | none => none

/-- The first unusable field, in the order in which the fields are declared. -/
def fault? (definition : Definition) : Option DefinitionFault :=
  if Text.isBlankText definition.name then some .blankName
  else
    match environmentFault? "env" definition.environment with
    | some fault => some fault
    | none => definition.steps.findSome? stepFault?

def stepOf (step : StepDefinition) : Step :=
  { id := step.id
    name := step.name.getD step.id
    action := step.action
    dependsOn := step.dependsOn
    environment := step.environment.mapValues variableText
    condition := step.condition }

def toPipeline (definition : Definition) : Pipeline :=
  { name := definition.name
    description := definition.description
    steps := definition.steps.map stepOf
    environment := definition.environment.mapValues variableText }

end Definition

structure StepDefinitionDraft where
  id : Option String
  name : Option String
  action : Option Action
  dependsOn : List String
  environment : Dictionary Json
  condition : Option String

namespace Readable

variable {Source : Type} [Readable Source]

def environmentValues (source : Source) : Except ReadError (Dictionary Json) := do
  .ok (Dictionary.ofList (← fieldsOf json source))

end Readable

namespace StepDefinition

variable {Source : Type} [Readable Source]

def assign (draft : StepDefinitionDraft) (field : String) (source : Source) :
    Except ReadError StepDefinitionDraft :=
  match field with
  | "id" => do .ok { draft with id := some (← Readable.string source) }
  | "name" => do .ok { draft with name := ← Readable.option Readable.string source }
  | "action" => do .ok { draft with action := some (← Action.read source) }
  | "depends_on" => do
      .ok { draft with dependsOn := ← Readable.listOf Readable.string source }
  | "env" => do .ok { draft with environment := ← Readable.environmentValues source }
  | _ => do .ok { draft with condition := ← Readable.option Readable.string source }

def schema : Schema Source StepDefinitionDraft StepDefinition :=
  { title := "struct StepConfig"
    fields :=
      [.required "id", .optional "name", .required "action", .optional "depends_on",
        .optional "env", ⟨"condition", ["if"], false⟩]
    skipsUnknown := false
    start := ⟨none, none, none, [], Dictionary.empty, none⟩
    assign
    build := fun draft => do
      let id ← ShapeError.required "id" draft.id
      let action ← ShapeError.required "action" draft.action
      .ok ⟨id, draft.name, action, draft.dependsOn, draft.environment, draft.condition⟩ }

def read (source : Source) : Except ReadError StepDefinition := schema.read source

end StepDefinition

structure DefinitionDraft where
  name : Option String
  description : String
  environment : Dictionary Json
  steps : Option (List StepDefinition)

namespace Definition

variable {Source : Type} [Readable Source]

def assign (draft : DefinitionDraft) (field : String) (source : Source) :
    Except ReadError DefinitionDraft :=
  match field with
  | "name" => do .ok { draft with name := some (← Readable.string source) }
  | "description" => do .ok { draft with description := ← Readable.string source }
  | "env" => do .ok { draft with environment := ← Readable.environmentValues source }
  | _ => do .ok { draft with steps := some (← Readable.listOf StepDefinition.read source) }

def schema : Schema Source DefinitionDraft Definition :=
  { title := "struct PipelineConfig"
    fields :=
      [.required "name", .optional "description", .optional "env", .required "steps"]
    skipsUnknown := false
    start := ⟨none, "", Dictionary.empty, none⟩
    assign
    build := fun draft => do
      let name ← ShapeError.required "name" draft.name
      let steps ← ShapeError.required "steps" draft.steps
      .ok ⟨name, draft.description, draft.environment, steps⟩ }

def read (source : Source) : Except ReadError Definition := schema.read source

end Definition

end PipelineWaves
