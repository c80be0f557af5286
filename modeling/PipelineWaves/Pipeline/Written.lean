import PipelineWaves.Pipeline.Basic
import PipelineWaves.Shape.Content

/-!
# Pipelines as written content

How pipelines, steps and actions are written as JSON values and read back from
any readable source. An action names its kind in the field `type` and refuses
fields it does not know; steps and pipelines skip them.
-/

set_option autoImplicit false

namespace PipelineWaves

def Dictionary.toJson (dictionary : Dictionary String) : Json :=
  .object (dictionary.entries.map fun entry => (entry.1, .text entry.2))

namespace Readable

variable {Source : Type} [Readable Source]

def dictionary (source : Source) : Except ReadError (Dictionary String) := do
  .ok (Dictionary.ofList (← fieldsOf string source))

end Readable

namespace OptimizeMode

def read {Source : Type} [Readable Source] (source : Source) : Except ReadError OptimizeMode :=
  Readable.oneOf all text source

end OptimizeMode

namespace CacheOperation

def read {Source : Type} [Readable Source] (source : Source) : Except ReadError CacheOperation :=
  Readable.oneOf all text source

end CacheOperation

/-- The fields of an action read so far. -/
structure ActionDraft where
  texts : List (String × String)
  options : List (String × Option String)
  optimize : OptimizeMode
  operation : Option CacheOperation
  parameters : Dictionary String

namespace ActionDraft

def start : ActionDraft := ⟨[], [], .debug, none, Dictionary.empty⟩

def withText (name : String) (draft : ActionDraft) (source : Content) :
    Except ReadError ActionDraft := do
  let value ← Readable.string source
  .ok { draft with texts := (name, value) :: draft.texts }

def withOption (name : String) (draft : ActionDraft) (source : Content) :
    Except ReadError ActionDraft := do
  let value ← Readable.option Readable.string source
  .ok { draft with options := (name, value) :: draft.options }

def text (draft : ActionDraft) (name : String) : Except ShapeError String :=
  ShapeError.required name (draft.texts.lookup name)

def option (draft : ActionDraft) (name : String) : Option String :=
  (draft.options.lookup name).getD none

end ActionDraft

namespace ActionKind

/-- The name of a kind in messages about its fields. -/
def title : ActionKind → String
  | shell => "struct variant Action::Shell"
  | compile => "struct variant Action::Compile"
  | testRun => "struct variant Action::TestRun"
  | checkout => "struct variant Action::Checkout"
  | artifact => "struct variant Action::Artifact"
  | cache => "struct variant Action::Cache"
  | custom => "struct variant Action::Custom"

def fields : ActionKind → List FieldName
  | shell => [.required "command", .optional "working_dir"]
  | compile => [.required "source_file", .required "output_name", .optional "optimize"]
  | testRun => [.required "test_file", .optional "filter"]
  | checkout => [.required "repository", .required "branch", .required "path"]
  | artifact => [.required "source_path", .required "destination"]
  | cache =>
      [.required "action", .required "key", .optional "paths", .optional "cache_dir"]
  | custom => [.required "type_name", .optional "parameters"]

def assign (draft : ActionDraft) (field : String) (source : Content) :
    Except ReadError ActionDraft :=
  match field with
  | "working_dir" | "filter" | "cache_dir" => draft.withOption field source
  | "optimize" => do .ok { draft with optimize := ← OptimizeMode.read source }
  | "action" => do .ok { draft with operation := some (← CacheOperation.read source) }
  | "parameters" => do .ok { draft with parameters := ← Readable.dictionary source }
  | _ => draft.withText field source

def build (kind : ActionKind) (draft : ActionDraft) : Except ShapeError Action := do
  match kind with
  | shell => .ok (.shell (← draft.text "command") (draft.option "working_dir"))
  | compile =>
      .ok (.compile (← draft.text "source_file") (← draft.text "output_name") draft.optimize)
  | testRun => .ok (.testRun (← draft.text "test_file") (draft.option "filter"))
  | checkout =>
      .ok (.checkout (← draft.text "repository") (← draft.text "branch") (← draft.text "path"))
  | artifact => .ok (.artifact (← draft.text "source_path") (← draft.text "destination"))
  | cache =>
      let operation ← ShapeError.required "action" draft.operation
      .ok (.cache operation (← draft.text "key") ((draft.texts.lookup "paths").getD "")
        (draft.option "cache_dir"))
  | custom => .ok (.custom (← draft.text "type_name") draft.parameters)

def schema (kind : ActionKind) : Schema Content ActionDraft Action :=
  { title := kind.title
    fields := kind.fields
    skipsUnknown := false
    start := ActionDraft.start
    assign
    build := kind.build }

def known : List String := all.map text

variable {Source : Type} [Readable Source]

/-- The kind that the value of the field `type` names. -/
def read (source : Source) : Except ReadError ActionKind :=
  Readable.within source do
    let name ← Readable.text source "variant identifier"
    match all.find? fun kind => kind.text = name with
    | some kind => .ok kind
    | none => .error (.of (.unknownVariant name known))

end ActionKind

namespace Action

def title : String := "internally tagged enum Action"

variable {Source : Type} [Readable Source]

/-- Takes the kind out of the fields and the content of all other fields. -/
def readTagged (kind : Option ActionKind) (others : List (Content × Content)) :
    List (FieldKey × Source) → Except ReadError (Option ActionKind × List (Content × Content))
  | [] => .ok (kind, others.reverse)
  | (key, source) :: rest => do
      let key ← key.content
      match key with
      | .text "type" =>
          if kind.isSome then .error (.of (.duplicateField "type"))
          else readTagged (some (← ActionKind.read source)) others rest
      | key => readTagged kind ((key, ← Readable.content source) :: others) rest

def taggedContent (source : Source) : Except ReadError (ActionKind × Content) :=
  Readable.within source do
    match ← Readable.anyLayout source title with
    | .positions items =>
        match items.items with
        | [] =>
            items.finish 0
            .error (.of (.missingField "type"))
        | first :: rest =>
            let kind ← ActionKind.read first
            let rest ← Readable.readEach Readable.content rest
            items.finish items.items.length
            .ok (kind, .list rest)
    | .names fields =>
        let (kind, others) ← readTagged none [] fields.fields
        fields.finish
        match kind with
        | some kind => .ok (kind, .object others)
        | none => .error (.of (.missingField "type"))

def read (source : Source) : Except ReadError Action := do
  let (kind, content) ← taggedContent source
  kind.schema.readAny content

def toJson (action : Action) : Json :=
  let fields : List (String × Json) :=
    match action with
    | .shell command directory =>
        [("command", .text command), ("working_dir", .ofOption directory)]
    | .compile sourceFile outputName optimize =>
        [("source_file", .text sourceFile), ("output_name", .text outputName),
          ("optimize", .text optimize.text)]
    | .testRun testFile filter => [("test_file", .text testFile), ("filter", .ofOption filter)]
    | .checkout repository branch path =>
        [("repository", .text repository), ("branch", .text branch), ("path", .text path)]
    | .artifact sourcePath destination =>
        [("source_path", .text sourcePath), ("destination", .text destination)]
    | .cache operation key paths directory =>
        [("action", .text operation.text), ("key", .text key), ("paths", .text paths),
          ("cache_dir", .ofOption directory)]
    | .custom typeName parameters =>
        [("type_name", .text typeName), ("parameters", parameters.toJson)]
  .object (("type", .text action.kind.text) :: fields)

end Action

structure StepDraft where
  id : Option String
  name : Option String
  action : Option Action
  dependsOn : List String
  environment : Environment
  condition : Option String

namespace Step

variable {Source : Type} [Readable Source]

def assign (draft : StepDraft) (field : String) (source : Source) :
    Except ReadError StepDraft :=
  match field with
  | "id" => do .ok { draft with id := some (← Readable.string source) }
  | "name" => do .ok { draft with name := some (← Readable.string source) }
  | "action" => do .ok { draft with action := some (← Action.read source) }
  | "depends_on" => do
      .ok { draft with dependsOn := ← Readable.listOf Readable.string source }
  | "env" => do .ok { draft with environment := ← Readable.dictionary source }
  | _ => do .ok { draft with condition := ← Readable.option Readable.string source }

def schema : Schema Source StepDraft Step :=
  { title := "struct Step"
    fields :=
      [.required "id", .required "name", .required "action", .optional "depends_on",
        .optional "env", .optional "condition"]
    skipsUnknown := true
    start := ⟨none, none, none, [], Dictionary.empty, none⟩
    assign
    build := fun draft => do
      let id ← ShapeError.required "id" draft.id
      let name ← ShapeError.required "name" draft.name
      let action ← ShapeError.required "action" draft.action
      .ok ⟨id, name, action, draft.dependsOn, draft.environment, draft.condition⟩ }

def read (source : Source) : Except ReadError Step := schema.read source

def toJson (step : Step) : Json :=
  .object
    [("id", .text step.id), ("name", .text step.name), ("action", step.action.toJson),
      ("depends_on", .list (step.dependsOn.map .text)), ("env", step.environment.toJson),
      ("condition", .ofOption step.condition)]

end Step

structure PipelineDraft where
  name : Option String
  description : String
  steps : Option (List Step)
  environment : Environment

namespace Pipeline

variable {Source : Type} [Readable Source]

def assign (draft : PipelineDraft) (field : String) (source : Source) :
    Except ReadError PipelineDraft :=
  match field with
  | "name" => do .ok { draft with name := some (← Readable.string source) }
  | "description" => do .ok { draft with description := ← Readable.string source }
  | "steps" => do .ok { draft with steps := some (← Readable.listOf Step.read source) }
  | _ => do .ok { draft with environment := ← Readable.dictionary source }

def schema : Schema Source PipelineDraft Pipeline :=
  { title := "struct Pipeline"
    fields :=
      [.required "name", .optional "description", .required "steps", .optional "env"]
    skipsUnknown := true
    start := ⟨none, "", none, Dictionary.empty⟩
    assign
    build := fun draft => do
      let name ← ShapeError.required "name" draft.name
      let steps ← ShapeError.required "steps" draft.steps
      .ok ⟨name, draft.description, steps, draft.environment⟩ }

def read (source : Source) : Except ReadError Pipeline := schema.read source

def toJson (pipeline : Pipeline) : Json :=
  .object
    [("name", .text pipeline.name), ("description", .text pipeline.description),
      ("steps", .list (pipeline.steps.map Step.toJson)),
      ("env", pipeline.environment.toJson)]

end Pipeline

end PipelineWaves
