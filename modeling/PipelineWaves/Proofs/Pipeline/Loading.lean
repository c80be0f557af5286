import PipelineWaves.Definition.Loading
import PipelineWaves.Proofs.Shape.Record
import PipelineWaves.Proofs.Text.Trimmed

/-!
# Loading written pipelines

A pipeline that was written as a JSON value is read back from it unchanged: each kind of action
from its own fields, each step with all of its own, and the pipeline with its steps in order.

The text of a pipeline is read in two ways: as a pipeline, and as a definition, whose schema
refuses unknown fields and takes any scalar as a variable. Both ways lead back to the pipeline;
a definition is refused only for a field that no definition may have.
-/

set_option autoImplicit false

namespace PipelineWaves

open Readable

theorem OptimizeMode.read_written (mode : OptimizeMode) :
    OptimizeMode.read (Content.ofJson (.text mode.text)) = .ok mode := by
  cases mode <;> rfl

theorem CacheOperation.read_written (operation : CacheOperation) :
    CacheOperation.read (Content.ofJson (.text operation.text)) = .ok operation := by
  cases operation <;> rfl

theorem ActionKind.read_written {Source : Type} [Readable Source] {source : Json → Source}
    (shows : Shows source) (kind : ActionKind) :
    ActionKind.read (source (.text kind.text)) = .ok kind := by
  rw [ActionKind.read, shows.text]
  cases kind <;> rfl

namespace Action

/-- The fields of a written action next to its kind. -/
def writtenFields (action : Action) : List (String × Json) :=
  match action.toJson with
  | .object (_ :: fields) => fields
  | _ => []

theorem to_json_eq (action : Action) :
    action.toJson = .object (("type", .text action.kind.text) :: action.writtenFields) := by
  cases action <;> rfl

theorem written_fields_not_kind (action : Action) :
    ∀ field ∈ action.writtenFields, field.1 ≠ "type" := by
  cases action <;> simp [writtenFields, toJson]

/-- What has been read when all fields of an action have been taken in. -/
def draft : Action → ActionDraft
  | .shell command directory =>
      { ActionDraft.start with
        texts := [("command", command)]
        options := [("working_dir", directory)] }
  | .compile sourceFile outputName optimize =>
      { ActionDraft.start with
        texts := [("output_name", outputName), ("source_file", sourceFile)]
        optimize }
  | .testRun testFile filter =>
      { ActionDraft.start with
        texts := [("test_file", testFile)]
        options := [("filter", filter)] }
  | .checkout repository branch path =>
      { ActionDraft.start with
        texts := [("path", path), ("branch", branch), ("repository", repository)] }
  | .artifact sourcePath destination =>
      { ActionDraft.start with
        texts := [("destination", destination), ("source_path", sourcePath)] }
  | .cache operation key paths directory =>
      { ActionDraft.start with
        texts := [("paths", paths), ("key", key)]
        options := [("cache_dir", directory)]
        operation := some operation }
  | .custom typeName parameters =>
      { ActionDraft.start with
        texts := [("type_name", typeName)]
        parameters }

theorem takes_fields (action : Action) :
    action.kind.schema.Takes (shownFields Content.ofJson action.writtenFields) action := by
  refine ⟨action.draft, ?_, ?_⟩
  · cases action <;>
      simp [writtenFields, toJson, kind, draft, Schema.field?, FieldName.required,
        FieldName.optional, ActionKind.schema, ActionKind.fields, ActionKind.assign,
        ActionDraft.start, ActionDraft.withText, ActionDraft.withOption, except_ok_bind,
        Content.shows.string, Content.shows.option, Content.shows.dictionary,
        OptimizeMode.read_written, CacheOperation.read_written]
  · cases action <;> rfl

variable {Source : Type} [Readable Source] {source : Json → Source}

/-- Once the kind is known, all other fields are kept as content. -/
theorem read_tagged_others (shows : Shows source) (kind : ActionKind)
    {fields : List (String × Json)} (notKind : ∀ field ∈ fields, field.1 ≠ "type")
    (others : List (Content × Content)) :
    readTagged (some kind) others (shownFields source fields) =
      .ok (some kind, others.reverse ++ Content.fieldsOfJson fields) := by
  induction fields generalizing others with
  | nil => simp [shownFields, readTagged, Content.fieldsOfJson]
  | cons field rest induction =>
      obtain ⟨name, value⟩ := field
      obtain ⟨first, notKindLater⟩ := List.forall_mem_cons.1 notKind
      have later := induction notKindLater ((.text name, Content.ofJson value) :: others)
      rw [List.reverse_cons, List.append_assoc] at later
      rw [shownFields, List.map_cons, readTagged]
      simp only [FieldKey.named, bind, Except.bind]
      split
      · rename_i _ isKind
        exact absurd (Content.text.inj isKind) first
      · rw [shows.content]
        exact later

theorem tagged_content_written (shows : Shows source) (action : Action) :
    taggedContent (source action.toJson) =
      .ok (action.kind, Content.ofJson (.object action.writtenFields)) := by
  have read : readTagged none [] (shownFields source
      (("type", .text action.kind.text) :: action.writtenFields)) =
        .ok (some action.kind, Content.fieldsOfJson action.writtenFields) := by
    have others := read_tagged_others shows action.kind action.written_fields_not_kind []
    rw [List.reverse_nil, List.nil_append] at others
    rw [shownFields, List.map_cons, readTagged]
    simp only [FieldKey.named, bind, Except.bind, ActionKind.read_written shows]
    exact others
  rw [to_json_eq, taggedContent, shows.any_layout]
  simp only [bind, Except.bind, read]
  rfl

/-- An action is read back as it was written. -/
theorem read_written (shows : Shows source) (action : Action) :
    Action.read (source action.toJson) = .ok action := by
  rw [Action.read, tagged_content_written shows]
  exact Content.shows.read_any_record action.takes_fields

end Action

section Steps

variable {Source : Type} [Readable Source] {source : Json → Source} (shows : Shows source)
include shows

theorem Step.read_written (step : Step) : Step.read (source step.toJson) = .ok step := by
  refine shows.read_record ⟨⟨some step.id, some step.name, some step.action, step.dependsOn,
    step.environment, step.condition⟩, ?_, rfl⟩
  simp [Schema.field?, FieldName.required, FieldName.optional, Step.schema, Step.assign,
    except_ok_bind, shows.string, Action.read_written shows, shows.texts, shows.dictionary,
    shows.option]

/-- A pipeline is read back as it was written. -/
theorem Pipeline.read_written (pipeline : Pipeline) :
    Pipeline.read (source pipeline.toJson) = .ok pipeline := by
  have steps : listOf Step.read (source (.list (pipeline.steps.map Step.toJson))) =
      .ok pipeline.steps := by
    have read := shows.list_of fun step (_ : step ∈ pipeline.steps) => Step.read_written shows step
    rwa [List.map_id'] at read
  refine shows.read_record ⟨⟨some pipeline.name, pipeline.description, some pipeline.steps,
    pipeline.environment⟩, ?_, rfl⟩
  simp [Schema.field?, FieldName.required, FieldName.optional, Pipeline.schema, Pipeline.assign,
    except_ok_bind, shows.string, steps, shows.dictionary]

end Steps

namespace Json.Plain

theorem of_option {depth : Nat} (value : Option String) : (Json.ofOption value).Plain depth := by
  cases value with
  | none => exact null
  | some value => exact text value

theorem texts {depth : Nat} (values : List String) :
    (Json.list (values.map .text)).Plain (depth + 1) := by
  refine list fun item member => ?_
  obtain ⟨value, _, rfl⟩ := List.mem_map.1 member
  exact text value

theorem dictionary {depth : Nat} (dictionary : Dictionary String) :
    dictionary.toJson.Plain (depth + 1) := by
  refine object fun field member => ?_
  obtain ⟨entry, _, rfl⟩ := List.mem_map.1 member
  exact text entry.2

theorem action (action : Action) : action.toJson.Plain 2 := by
  cases action <;>
    exact object (by simp [text, of_option, dictionary])

theorem step (step : Step) : step.toJson.Plain 3 :=
  object (by simp [text, of_option, texts, dictionary, action])

theorem pipeline (pipeline : Pipeline) : pipeline.toJson.Plain 5 := by
  have steps : (Json.list (pipeline.steps.map Step.toJson)).Plain 4 := by
    refine list fun item member => ?_
    obtain ⟨step, _, rfl⟩ := List.mem_map.1 member
    exact Json.Plain.step step
  exact object (by simp [text, dictionary, steps])

end Json.Plain

namespace Step

def definition (step : Step) : StepDefinition :=
  { id := step.id
    name := some step.name
    action := step.action
    dependsOn := step.dependsOn
    environment := step.environment.mapValues .text
    condition := step.condition }

end Step

namespace Pipeline

def definition (pipeline : Pipeline) : Definition :=
  { name := pipeline.name
    description := pipeline.description
    environment := pipeline.environment.mapValues .text
    steps := pipeline.steps.map Step.definition }

end Pipeline

open JsonDocument

theorem environment_values_written (environment : Environment) :
    environmentValues (ofValue environment.toJson) = .ok (environment.mapValues .text) := by
  have read : fieldsOf json (ofValue environment.toJson) =
      .ok (environment.mapValues Json.text).entries :=
    JsonDocument.shows.fields_of (fun value => json_of_value (.text value)) environment.entries
  rw [environmentValues, read]
  exact congrArg Except.ok (Dictionary.ofList_entries _)

theorem StepDefinition.read_written (step : Step) :
    StepDefinition.read (ofValue step.toJson) = .ok step.definition := by
  have shows := JsonDocument.shows
  have name : option string (ofValue (.text step.name)) = .ok (some step.name) :=
    shows.option (some step.name)
  refine shows.read_record ⟨⟨some step.id, some step.name, some step.action, step.dependsOn,
    step.environment.mapValues .text, step.condition⟩, ?_, rfl⟩
  simp [Schema.field?, FieldName.required, FieldName.optional, StepDefinition.schema,
    StepDefinition.assign, except_ok_bind, shows.string, name, Action.read_written shows,
    shows.texts, environment_values_written, shows.option]

theorem Definition.read_written (pipeline : Pipeline) :
    Definition.read (ofValue pipeline.toJson) = .ok pipeline.definition := by
  have shows := JsonDocument.shows
  have steps : listOf StepDefinition.read (ofValue (.list (pipeline.steps.map Step.toJson))) =
      .ok (pipeline.steps.map Step.definition) :=
    shows.list_of fun step _ => StepDefinition.read_written step
  refine shows.read_record ⟨⟨some pipeline.name, pipeline.description,
    pipeline.environment.mapValues .text, some (pipeline.steps.map Step.definition)⟩, ?_, rfl⟩
  simp [Schema.field?, FieldName.required, FieldName.optional, Definition.schema,
    Definition.assign, except_ok_bind, shows.string, steps, environment_values_written]

/-- Variables that were written as texts keep these texts. -/
theorem map_variable_text (environment : Environment) :
    (environment.mapValues Json.text).mapValues Definition.variableText = environment := by
  have written : Definition.variableText ∘ Json.text = id := rfl
  refine Dictionary.ext fun key => ?_
  rw [Dictionary.get?_mapValues, Dictionary.get?_mapValues, Option.map_map, written, Option.map_id,
    id]

theorem Pipeline.definition_to_pipeline (pipeline : Pipeline) :
    pipeline.definition.toPipeline = pipeline := by
  have stepOf : Definition.stepOf ∘ Step.definition = id := by
    funext step
    exact congrArg (fun environment => { step with environment }) (map_variable_text _)
  rw [Definition.toPipeline, Pipeline.definition, List.map_map, stepOf, List.map_id,
    map_variable_text]

/-- What a definition asks of the fields of a step. -/
structure Step.PassesFieldChecks (step : Step) : Prop where
  id_not_empty : step.id ≠ ""
  id_characters : ∀ character ∈ step.id.toList,
    character.isAlphanum = true ∨ character = '_' ∨ character = '-'
  keys_not_empty : "" ∉ step.environment.keys
  condition_not_blank : ∀ condition, step.condition = some condition →
    ∃ character ∈ condition.toList, Text.isBlank character = false

/-- What a definition asks of the fields of a pipeline. -/
structure Pipeline.PassesFieldChecks (pipeline : Pipeline) : Prop where
  name_not_blank : ∃ character ∈ pipeline.name.toList, Text.isBlank character = false
  keys_not_empty : "" ∉ pipeline.environment.keys
  steps : ∀ step ∈ pipeline.steps, step.PassesFieldChecks

theorem environment_fault_none_iff {field : String} {environment : Environment} :
    Definition.environmentFault? field (environment.mapValues .text) = none ↔
      "" ∉ environment.keys := by
  rw [Definition.environmentFault?, List.findSome?_eq_none_iff]
  constructor
  · intro none member
    obtain ⟨entry, entryMember, empty⟩ := List.mem_map.1 member
    have fault := none _ (List.mem_map_of_mem entryMember)
    simp [empty] at fault
  · intro notEmpty entry member
    obtain ⟨written, writtenMember, rfl⟩ := List.mem_map.1 member
    have named : written.1 ≠ "" := fun empty =>
      notEmpty (empty ▸ List.mem_map_of_mem writtenMember)
    simp [named, Definition.isComposite]

theorem step_id_iff {id : String} :
    Definition.isStepId id = true ↔ id ≠ "" ∧ ∀ character ∈ id.toList,
      character.isAlphanum = true ∨ character = '_' ∨ character = '-' := by
  simp [Definition.isStepId, Definition.isStepIdCharacter, or_assoc]

theorem Definition.step_fault_none_iff {step : StepDefinition} :
    Definition.stepFault? step = none ↔ Definition.isStepId step.id = true ∧
      Definition.environmentFault? ("steps." ++ step.id ++ ".env") step.environment = none ∧
      ∀ condition, step.condition = some condition → Text.isBlankText condition = false := by
  unfold Definition.stepFault?
  cases Definition.isStepId step.id with
  | false => simp
  | true =>
      cases Definition.environmentFault? ("steps." ++ step.id ++ ".env") step.environment with
      | some fault => simp
      | none => cases step.condition <;> simp

theorem Definition.fault_none_iff {definition : Definition} :
    definition.fault? = none ↔ Text.isBlankText definition.name = false ∧
      Definition.environmentFault? "env" definition.environment = none ∧
      ∀ step ∈ definition.steps, Definition.stepFault? step = none := by
  unfold Definition.fault?
  cases Text.isBlankText definition.name with
  | true => simp
  | false => cases Definition.environmentFault? "env" definition.environment <;> simp

theorem Step.no_fault_iff {step : Step} :
    Definition.stepFault? step.definition = none ↔ step.PassesFieldChecks := by
  rw [Definition.step_fault_none_iff]
  constructor
  · rintro ⟨id, environment, condition⟩
    obtain ⟨notEmpty, characters⟩ := step_id_iff.1 id
    exact ⟨notEmpty, characters, environment_fault_none_iff.1 environment,
      fun source written => Text.not_blank_iff.1 (condition source written)⟩
  · intro passes
    exact ⟨step_id_iff.2 ⟨passes.id_not_empty, passes.id_characters⟩,
      environment_fault_none_iff.2 passes.keys_not_empty,
      fun source written => Text.not_blank_iff.2 (passes.condition_not_blank source written)⟩

theorem Pipeline.no_fault_iff {pipeline : Pipeline} :
    pipeline.definition.fault? = none ↔ pipeline.PassesFieldChecks := by
  rw [Definition.fault_none_iff]
  constructor
  · rintro ⟨name, environment, steps⟩
    exact ⟨Text.not_blank_iff.1 name, environment_fault_none_iff.1 environment,
      fun step member => Step.no_fault_iff.1 (steps _ (List.mem_map_of_mem member))⟩
  · intro passes
    refine ⟨Text.not_blank_iff.2 passes.name_not_blank,
      environment_fault_none_iff.2 passes.keys_not_empty, fun definition member => ?_⟩
    obtain ⟨step, stepMember, rfl⟩ := List.mem_map.1 member
    exact Step.no_fault_iff.2 (passes.steps step stepMember)

/-- The text of a pipeline is read back as that pipeline, and a definition read from it makes that
pipeline again, if no field is one that a definition refuses. -/
theorem written_pipeline_loads_back (pipeline : Pipeline) {text : String}
    (written : text = pipeline.toJson.compact ∨ text = pipeline.toJson.pretty) :
    JsonDocument.readAll Pipeline.read text = .ok pipeline ∧
      (pipeline.PassesFieldChecks → ∃ definition,
        Definition.ofJson text = .ok definition ∧ definition.toPipeline = pipeline) ∧
      (¬ pipeline.PassesFieldChecks → ∃ fault, Definition.ofJson text = .error (.unusable fault)) := by
  have plain := Json.Plain.pipeline pipeline
  have asPipeline := read_all_written plain (by decide) written
    (Pipeline.read_written JsonDocument.shows pipeline)
  have loaded : Definition.ofJson text = pipeline.definition.check := by
    rw [Definition.ofJson,
      read_all_written plain (by decide) written (Definition.read_written pipeline)]
  refine ⟨asPipeline, fun passes => ?_, fun refused => ?_⟩
  · refine ⟨pipeline.definition, ?_, pipeline.definition_to_pipeline⟩
    rw [loaded, Definition.check, Pipeline.no_fault_iff.2 passes]
  · obtain ⟨fault, found⟩ := Option.ne_none_iff_exists'.1 (mt Pipeline.no_fault_iff.1 refused)
    exact ⟨fault, by rw [loaded, Definition.check, found]⟩

/-- One step of each kind, with texts that have to be escaped. -/
def awkwardPipeline : Pipeline :=
  { name := "say \"hi\"\t"
    description := "\x00\x1f\n\r\x08\x0c\\u0041 \x7b\x7d \u2028"
    steps :=
      [⟨"a", "", .shell "echo \"$A\"" (some "\\"), ["b", "b"],
          Dictionary.ofList [("A", "\n"), (" ", "")], some "b succeeded"⟩,
        ⟨"b", "\"", .compile "main.c" "main" .releaseSmall, [], {}, none⟩,
        ⟨"c-1", "C", .testRun "t" none, [], {}, none⟩,
        ⟨"D_2", "D", .checkout "," ":" "]", [], {}, none⟩,
        ⟨"-", "E", .artifact "\t" "", ["ghost"], {}, none⟩,
        ⟨"_", "F", .cache .save "k" "a, b" (some ""), [], {}, some "\x07"⟩,
        ⟨"9", "G", .custom "type" (Dictionary.ofList [("type", "null"), ("", "\x7f")]), [], {},
          none⟩]
    environment := Dictionary.ofList [("type", "\"\\\"")] }

theorem awkward_pipeline_loads_back :
    JsonDocument.readAll Pipeline.read awkwardPipeline.toJson.pretty = .ok awkwardPipeline ∧
      ∃ definition, Definition.ofJson awkwardPipeline.toJson.pretty = .ok definition ∧
        definition.toPipeline = awkwardPipeline := by
  have noFault : awkwardPipeline.definition.fault? = none := by decide +kernel
  obtain ⟨asPipeline, asDefinition, _⟩ :=
    written_pipeline_loads_back awkwardPipeline (Or.inr rfl)
  exact ⟨asPipeline, asDefinition (Pipeline.no_fault_iff.1 noFault)⟩

end PipelineWaves
