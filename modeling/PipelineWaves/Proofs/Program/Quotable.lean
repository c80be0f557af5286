import PipelineWaves.Proofs.Condition.Mention
import PipelineWaves.Proofs.Condition.Writing
import PipelineWaves.Proofs.Program.Decoding
import PipelineWaves.Proofs.Recipe.PathList

/-!
# What a program quotes

Writing a program can fail at the texts that it quotes, and nowhere else. `quotedFields`
lists these texts for a compiled pipeline, each with the name that an error gives to its
field; a restored cache has no paths there and a condition only the literals that it
compares. A writer `Quotes` the fields when it fails exactly if one of them holds a NUL
character, with an error that names such a field. Each function that writes a part of a
program has its fields, and the fields of the whole are those of the parts.
-/

set_option autoImplicit false

namespace PipelineWaves

/-- A text that a program quotes, with the name of its field. -/
structure QuotedField where
  context : String
  text : String
deriving DecidableEq, Repr

namespace QuotedField

def HasNul (field : QuotedField) : Prop := '\x00' ∈ field.text.toList

instance : DecidablePred HasNul :=
  fun field => inferInstanceAs (Decidable ('\x00' ∈ field.text.toList))

def optional (context : String) (text : Option String) : List QuotedField :=
  text.toList.map (QuotedField.mk context)

/-- Keys and values; each value has a name of its own. -/
def pairs (keyContext : String) (valueContext : String → String)
    (entries : List (String × String)) : List QuotedField :=
  entries.flatMap fun entry => [⟨keyContext, entry.1⟩, ⟨valueContext entry.1, entry.2⟩]

end QuotedField

open QuotedField

def Action.quotedFields (context : String → String) : Action → List QuotedField
  | .shell command directory =>
      ⟨context "command", command⟩ :: optional (context "working_dir") directory
  | .compile sourceFile outputName _ =>
      [⟨context "source_file", sourceFile⟩, ⟨context "output_name", outputName⟩]
  | .testRun testFile filter =>
      ⟨context "test_file", testFile⟩ :: optional (context "filter") filter
  | .checkout repository branch path =>
      [⟨context "repository", repository⟩, ⟨context "branch", branch⟩, ⟨context "path", path⟩]
  | .artifact sourcePath destination =>
      [⟨context "source_path", sourcePath⟩, ⟨context "destination", destination⟩]
  | .cache .save key paths directory =>
      ⟨context "paths", paths⟩ :: ⟨context "key", key⟩ :: optional (context "cache_dir") directory
  | .cache .restore key _ directory =>
      ⟨context "key", key⟩ :: optional (context "cache_dir") directory
  | .custom typeName parameters =>
      pairs (context "parameters") (fun key => context ("parameters." ++ key))
        parameters.entries ++ [⟨context "type_name", typeName⟩]

def Operand.literals : Operand → List String
  | .variable _ => []
  | .literal text => [text]

/-- The literals that the condition compares. A literal that stands alone is not among them. -/
def Condition.comparedLiterals : Condition → List String
  | .constant _ => []
  | .truthy _ => []
  | .compare left _ right => left.literals ++ right.literals
  | .stepIs _ _ => []
  | .not inner => inner.comparedLiterals
  | .and left right => left.comparedLiterals ++ right.comparedLiterals
  | .or left right => left.comparedLiterals ++ right.comparedLiterals

/-- The name of a field of a step. -/
def stepContext (id field : String) : String := "steps." ++ id ++ "." ++ field

/-- The fields of a step that runs in the environment. -/
def Step.quotedFields (environment : Environment) (step : Step) : List QuotedField :=
  pairs (stepContext step.id "env") (fun key => stepContext step.id ("env." ++ key))
      environment.entries ++
    ⟨stepContext step.id "id", step.id⟩ :: ⟨stepContext step.id "name", step.name⟩ ::
      step.action.quotedFields (stepContext step.id)

namespace CompiledPipeline

def conditionFields (compiled : CompiledPipeline) (step : Step) : List QuotedField :=
  ((compiled.condition? step.id).toList.flatMap Condition.comparedLiterals).map
    (QuotedField.mk (stepContext step.id "condition"))

def stepFields (compiled : CompiledPipeline) (step : Step) : List QuotedField :=
  step.quotedFields (compiled.pipeline.environmentOf step) ++ compiled.conditionFields step

def quotedFields (compiled : CompiledPipeline) : List QuotedField :=
  ⟨"name", compiled.pipeline.name⟩ :: compiled.pipeline.steps.flatMap compiled.stepFields

end CompiledPipeline

/-- The writer fails exactly if a field has a NUL character, and names such a field. -/
structure Quotes {Result : Type} (writer : Except GenerationError Result)
    (fields : List QuotedField) : Prop where
  free : ∀ result, writer = .ok result → ∀ field ∈ fields, ¬field.HasNul
  named : ∀ error, writer = .error error →
    ∃ field ∈ fields, field.HasNul ∧ error = .notQuotable field.context

namespace Quotes

variable {Result Other : Type} {writer : Except GenerationError Result}
  {fields others : List QuotedField}

theorem ok_iff (quotes : Quotes writer fields) :
    (∃ result, writer = .ok result) ↔ ∀ field ∈ fields, ¬field.HasNul := by
  constructor
  · rintro ⟨result, written⟩
    exact quotes.free result written
  · intro free
    cases written : writer with
    | ok result => exact ⟨result, rfl⟩
    | error error =>
        obtain ⟨field, member, nul, _⟩ := quotes.named error written
        exact absurd nul (free field member)

/-- The one field with a NUL character is the one that is named. -/
theorem error_of_only (quotes : Quotes writer fields) {field : QuotedField}
    (only : (fields.filter fun other => other.HasNul) = [field]) :
    writer = .error (.notQuotable field.context) := by
  have sole {other : QuotedField} : other = field ↔ other ∈ fields ∧ other.HasNul := by
    rw [← List.mem_singleton, ← only, List.mem_filter, decide_eq_true_eq]
  cases written : writer with
  | ok result =>
      obtain ⟨member, nul⟩ := sole.1 (rfl : field = field)
      exact absurd nul (quotes.free result written field member)
  | error error =>
      obtain ⟨other, member, nul, same⟩ := quotes.named error written
      rw [same, sole.2 ⟨member, nul⟩]

theorem ok (result : Result) : Quotes (.ok result) [] where
  free _ _ _ member := absurd member List.not_mem_nil
  named _ failed := by cases failed

theorem refused {field : QuotedField} (member : field ∈ fields) (nul : field.HasNul) :
    @Quotes Result (.error (.notQuotable field.context)) fields where
  free _ done := by cases done
  named error failed := by
    cases failed
    exact ⟨field, member, nul, rfl⟩

/-- What is written later may rely on what has been written. -/
theorem bind_ok (first : Quotes writer fields) {next : Result → Except GenerationError Other}
    (later : ∀ result, writer = .ok result → Quotes (next result) others) :
    Quotes (writer >>= next) (fields ++ others) := by
  cases written : writer with
  | error error =>
      obtain ⟨field, member, nul, rfl⟩ := first.named error written
      exact refused (List.mem_append_left _ member) nul
  | ok result =>
      have free := first.free result written
      have rest := later result written
      refine ⟨fun other done => ?_, fun error failed => ?_⟩
      · exact List.forall_mem_append.2 ⟨free, rest.free other done⟩
      · obtain ⟨field, member, holds⟩ := rest.named error failed
        exact ⟨field, List.mem_append_right _ member, holds⟩

theorem bind (first : Quotes writer fields) {next : Result → Except GenerationError Other}
    (later : ∀ result, Quotes (next result) others) :
    Quotes (writer >>= next) (fields ++ others) :=
  first.bind_ok fun result _ => later result

theorem last (first : Quotes writer fields) (finish : Result → Other) :
    Quotes (writer >>= fun result => .ok (finish result)) fields := by
  have quotes := first.bind fun result => Quotes.ok (finish result)
  rwa [List.append_nil] at quotes

/-- Fields matter for their NUL characters only. -/
theorem of_nuls (quotes : Quotes writer fields)
    (kept : ∀ field ∈ fields, field.HasNul →
      ∃ other ∈ others, other.HasNul ∧ other.context = field.context)
    (needed : ∀ other ∈ others, other.HasNul → ∃ field ∈ fields, field.HasNul) :
    Quotes writer others where
  free result written other member nul := by
    obtain ⟨field, isField, hasNul⟩ := needed other member nul
    exact quotes.free result written field isField hasNul
  named error failed := by
    obtain ⟨field, member, nul, same⟩ := quotes.named error failed
    obtain ⟨other, isOther, otherNul, context⟩ := kept field member nul
    exact ⟨other, isOther, otherNul, by rw [same, context]⟩

theorem of_mem (quotes : Quotes writer fields)
    (same : ∀ field, field.HasNul → (field ∈ fields ↔ field ∈ others)) : Quotes writer others :=
  quotes.of_nuls (fun field member nul => ⟨field, (same field nul).1 member, nul, rfl⟩)
    fun other member nul => ⟨other, (same other nul).2 member, nul⟩

end Quotes

namespace ProgramText

theorem quote_quotes (context text : String) : Quotes (quote context text) [⟨context, text⟩] := by
  by_cases nul : HasNul ⟨context, text⟩
  · rw [quote_of_nul context nul]
    exact Quotes.refused List.mem_cons_self nul
  · rw [quote_of_no_nul context nul]
    refine ⟨fun _ _ => by simpa using nul, ?_⟩
    intro error failed
    cases failed

/-- A text without a NUL character is no field that writing depends on. -/
theorem quote_free {text : String} (context : String) (free : '\x00' ∉ text.toList) :
    Quotes (quote context text) [] := by
  rw [quote_of_no_nul context free]
  exact .ok _

theorem quote_option_quotes (context : String) (text : Option String) :
    Quotes (quoteOption context text) (optional context text) := by
  cases text with
  | none => exact .ok "None"
  | some text => exact (quote_quotes context text).last _

theorem quote_each_quotes (context : String) (texts : List String) :
    Quotes (quoteEach context texts) (texts.map (QuotedField.mk context)) := by
  induction texts with
  | nil => exact .ok []
  | cons text rest induction =>
      exact (quote_quotes context text).bind fun _ => induction.last _

theorem quote_pairs_quotes (keyContext : String) (valueContext : String → String)
    (entries : List (String × String)) :
    Quotes (quotePairs keyContext valueContext entries)
      (pairs keyContext valueContext entries) := by
  induction entries with
  | nil => exact .ok []
  | cons entry rest induction =>
      exact (quote_quotes keyContext entry.1).bind fun _ =>
        (quote_quotes (valueContext entry.1) entry.2).bind fun _ => induction.last _

end ProgramText

open ProgramText

/-- A NUL character is neither a comma nor blank, so that it stays in some path of the list. -/
theorem split_paths_nuls {writer : Except GenerationError (List String)} {context paths : String}
    (quotes : Quotes writer ((splitPaths paths).map (QuotedField.mk context))) :
    Quotes writer [⟨context, paths⟩] := by
  have kept : (∃ path ∈ splitPaths paths, '\x00' ∈ path.toList) ↔ '\x00' ∈ paths.toList :=
    mem_split_paths (by decide) (by decide) paths
  apply quotes.of_nuls
  · intro field member nul
    obtain ⟨path, isPath, rfl⟩ := List.mem_map.1 member
    exact ⟨_, List.mem_cons_self, kept.1 ⟨path, isPath, nul⟩, rfl⟩
  · intro other member nul
    obtain rfl := List.mem_singleton.1 member
    obtain ⟨path, isPath, inPath⟩ := kept.2 nul
    exact ⟨_, List.mem_map_of_mem isPath, inPath⟩

theorem optimize_mode_free (mode : OptimizeMode) : '\x00' ∉ mode.text.toList := by
  cases mode <;> decide

theorem ProgramAction.text_quotes (stepId : String) (action : Action) :
    Quotes ((ProgramAction.of action).text stepId)
      (action.quotedFields (stepContext stepId)) := by
  cases action with
  | shell command directory =>
      exact (quote_quotes _ command).bind fun _ => (quote_option_quotes _ directory).last _
  | compile sourceFile outputName optimize =>
      exact (quote_quotes _ sourceFile).bind fun _ => (quote_quotes _ outputName).bind fun _ =>
        (quote_free _ (optimize_mode_free optimize)).last _
  | testRun testFile filter =>
      exact (quote_quotes _ testFile).bind fun _ => (quote_option_quotes _ filter).last _
  | checkout repository branch path =>
      exact (quote_quotes _ repository).bind fun _ => (quote_quotes _ branch).bind fun _ =>
        (quote_quotes _ path).last _
  | artifact sourcePath destination =>
      exact (quote_quotes _ sourcePath).bind fun _ => (quote_quotes _ destination).last _
  | cache operation key paths directory =>
      cases operation with
      | save =>
          exact (split_paths_nuls (quote_each_quotes _ (splitPaths paths))).bind fun _ =>
            (quote_quotes _ key).bind fun _ => (quote_option_quotes _ directory).last _
      | restore =>
          exact (quote_quotes _ key).bind fun _ => (quote_option_quotes _ directory).last _
  | custom typeName parameters =>
      exact (quote_pairs_quotes _ _ parameters.entries).bind fun _ =>
        (quote_quotes _ typeName).last _

theorem ProgramStep.text_quotes (pipeline : Pipeline) (step : Step) (index : Nat) :
    Quotes ((ProgramStep.of pipeline step).text index)
      (step.quotedFields (pipeline.environmentOf step)) :=
  (quote_pairs_quotes _ _ (pipeline.environmentOf step).entries).bind fun _ =>
    (quote_quotes _ step.id).bind fun _ => (quote_quotes _ step.name).bind fun _ =>
      (ProgramAction.text_quotes step.id step.action).last _

namespace ConditionToken

theorem lexeme_variable {first : Char} {rest : List Char} {name : String} {taken : Nat}
    (read : lexeme first rest = .ok (.variable name, taken)) :
    ∀ character ∈ name.toList, isWordCharacter character = true := by
  obtain ⟨spelled, _⟩ := spelled_of_lexeme read
  cases spelled with
  | written isWord spells => exact isWord.2

end ConditionToken

theorem variable_free {source : String} {condition : Condition}
    (parsed : Condition.parse source = .ok condition) {name : String}
    (mentioned : Reference.variable name ∈ condition.references) : '\x00' ∉ name.toList := by
  obtain ⟨mentions, lists, references⟩ := mentions_of_parse parsed
  rw [← references] at mentioned
  obtain ⟨mention, member, isVariable⟩ := List.mem_map.1 mentioned
  obtain ⟨⟨_, first, rest, taken, _, _, read⟩, token⟩ :=
    Mention.IsIn.starts ((lists.is_in_iff mention).2 member)
  rw [token, isVariable] at read
  intro nul
  exact absurd (ConditionToken.lexeme_variable read _ nul) (by decide)

theorem operand_text_quotes (context : String) {operand : Operand}
    (free : ∀ name, Reference.variable name ∈ operand.references → '\x00' ∉ name.toList) :
    Quotes (ProgramExpression.operandText context operand)
      (operand.literals.map (QuotedField.mk context)) := by
  match operand with
  | .variable name => exact (quote_free context (free name List.mem_cons_self)).last _
  | .literal text => exact quote_quotes context text

theorem expression_text_quotes (context : String) (positionOf : String → Option Nat)
    {condition : Condition}
    (free : ∀ name, Reference.variable name ∈ condition.references → '\x00' ∉ name.toList) :
    Quotes ((ProgramExpression.of positionOf condition).text context)
      (condition.comparedLiterals.map (QuotedField.mk context)) := by
  induction condition with
  | constant value => exact .ok _
  | truthy operand =>
      match operand with
      | .variable name => exact (quote_free context (free name List.mem_cons_self)).last _
      | .literal text => exact .ok _
  | compare left how right =>
      have quotesLeft := operand_text_quotes context fun name mentioned =>
        free name (List.mem_append_left _ mentioned)
      have quotesRight := operand_text_quotes context fun name mentioned =>
        free name (List.mem_append_right _ mentioned)
      rw [Condition.comparedLiterals, List.map_append]
      exact quotesLeft.bind fun _ => quotesRight.last _
  | stepIs step outcome =>
      rw [ProgramExpression.of]
      cases positionOf step with
      | none => exact .ok _
      | some index => exact .ok _
  | not inner induction => exact (induction free).last _
  | and left right leftInduction rightInduction =>
      have quotesLeft := leftInduction fun name mentioned =>
        free name (List.mem_append_left _ mentioned)
      have quotesRight := rightInduction fun name mentioned =>
        free name (List.mem_append_right _ mentioned)
      rw [Condition.comparedLiterals, List.map_append]
      exact quotesLeft.bind fun _ => quotesRight.last _
  | or left right leftInduction rightInduction =>
      have quotesLeft := leftInduction fun name mentioned =>
        free name (List.mem_append_left _ mentioned)
      have quotesRight := rightInduction fun name mentioned =>
        free name (List.mem_append_right _ mentioned)
      rw [Condition.comparedLiterals, List.map_append]
      exact quotesLeft.bind fun _ => quotesRight.last _

namespace ProgramTables

open CompiledPipeline

theorem condition_context (id : String) :
    "steps." ++ id ++ ".condition" = stepContext id "condition" := by
  have joined : ".condition" = "." ++ "condition" := rfl
  rw [stepContext, joined, String.append_assoc, String.append_assoc, String.append_assoc]

theorem step_texts_quote {pipeline : Pipeline} {compiled : CompiledPipeline}
    (compiles : compile pipeline = .ok compiled) {step : Step} (member : step ∈ pipeline.steps)
    {index : Nat} (atIndex : compiled.planSteps[index]? = some step) :
    Quotes ((of compiled).stepTexts (.of compiled.pipeline step, index))
      (compiled.stepFields step) := by
  have found := condition_at atIndex
  refine (ProgramStep.text_quotes compiled.pipeline step index).bind fun _ => ?_
  rw [conditionFields]
  cases has : compiled.condition? step.id with
  | none =>
      rw [has, Option.map_none] at found
      simp only [found]
      exact .ok _
  | some condition =>
      rw [has, Option.map_some] at found
      obtain ⟨source, _, parsed⟩ := (condition?_eq_some_iff compiles member).1 has
      simp only [found, Option.toList_some, List.flatMap_singleton, ← condition_context]
      exact (expression_text_quotes _ _ fun name => variable_free parsed).last _

theorem all_step_texts_quote {tables : ProgramTables} {pipeline : Pipeline}
    {fieldsOf : Step → List QuotedField} {steps : List Step} {start : Nat}
    (each : ∀ index step, steps[index]? = some step →
      Quotes (tables.stepTexts (.of pipeline step, start + index)) (fieldsOf step)) :
    Quotes (tables.allStepTexts ((steps.map (ProgramStep.of pipeline)).zipIdx start))
      (steps.flatMap fieldsOf) := by
  induction steps generalizing start with
  | nil => exact .ok []
  | cons step rest induction =>
      have later : Quotes
          (tables.allStepTexts ((rest.map (ProgramStep.of pipeline)).zipIdx (start + 1)))
          (rest.flatMap fieldsOf) := by
        refine induction fun index other atIndex => ?_
        rw [Nat.add_assoc, Nat.add_comm 1 index]
        exact each (index + 1) other atIndex
      exact (each 0 step rfl).bind fun _ => later.last _

theorem values_quote {pipeline : Pipeline} {compiled : CompiledPipeline}
    (compiles : compile pipeline = .ok compiled) :
    Quotes (of compiled).values compiled.quotedFields := by
  have plans := compiled_plans compiles
  have planned := plan_steps_perm plans
  have same := (compile_parts compiles).1
  have texts : Quotes ((of compiled).allStepTexts (of compiled).steps.zipIdx)
      (compiled.planSteps.flatMap compiled.stepFields) := by
    refine all_step_texts_quote fun index step atIndex => ?_
    have member : step ∈ pipeline.steps := by
      rw [← same]
      exact planned.mem_iff.1 (List.mem_of_getElem? atIndex)
    rw [Nat.zero_add]
    exact step_texts_quote compiles member atIndex
  have written : Quotes (of compiled).values (compiled.planSteps.flatMap compiled.stepFields ++
      [⟨"name", compiled.pipeline.name⟩]) :=
    texts.bind fun _ => (quote_quotes "name" compiled.pipeline.name).bind fun _ =>
      (quote_free "toolchain" (by decide)).bind fun _ =>
        (quote_free "handler prefix" (by decide)).bind fun _ =>
          (quote_free "app name" (by decide)).last _
  refine written.of_mem fun field _ => ?_
  rw [quotedFields, List.mem_append, List.mem_singleton, List.mem_cons, or_comm,
    (planned.flatMap_right compiled.stepFields).mem_iff]

/-- The fragments have a value for each placeholder, so only the values can fail. -/
theorem program_quotes {tables : ProgramTables} {fields : List QuotedField}
    (quotes : Quotes tables.values fields) : Quotes tables.program fields := by
  rw [← List.append_nil fields]
  refine quotes.bind_ok fun values written => ?_
  obtain ⟨_, _, keys, _⟩ := values_ok written
  rw [render_manifest keys, except_ok_bind, render_program keys, except_ok_bind]
  exact .ok _

end ProgramTables

theorem CompiledPipeline.generate_quotes {pipeline : Pipeline} {compiled : CompiledPipeline}
    (compiles : CompiledPipeline.compile pipeline = .ok compiled) :
    Quotes compiled.generate compiled.quotedFields :=
  ProgramTables.program_quotes (ProgramTables.values_quote compiles)

end PipelineWaves
