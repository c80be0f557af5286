import PipelineWaves.Proofs.Condition.Writing
import PipelineWaves.Proofs.Pipeline.Loading
import PipelineWaves.Proofs.Rearrangement
import PipelineWaves.Proofs.StepEnvironment

/-!
# Asking about a step

The shortest question about a step is its id, blank space and the word of an outcome. An id
that loads is a word, so that the question is always two tokens. The grammar keeps three
words for itself: steps with one of these ids load, and the question about them is refused.
For every other declared step it compiles, whichever step asks it, and holds exactly when the
outcome is the one recorded.
-/

set_option autoImplicit false

namespace PipelineWaves

open ConditionGrammar

/-- The id of a step, blank characters and the word of an outcome. -/
def stepQuestion (id : String) (blanks : List Char) (outcome : StepOutcome) : String :=
  id ++ (String.ofList blanks ++ outcome.conditionWord)

/-- The condition holds whenever the step is recorded with the outcome, and only then. -/
def Condition.ChecksStep (condition : Condition) (id : String) (outcome : StepOutcome) : Prop :=
  ∀ (environment : Environment) (outcomes : Outcomes),
    condition.evaluate environment outcomes = true ↔ outcomes id = some outcome

theorem Condition.step_is_checks_step (id : String) (outcome : StepOutcome) :
    (Condition.stepIs id outcome).ChecksStep id outcome := by
  intro environment outcomes
  rw [Condition.evaluate, decide_eq_true_eq]

theorem step_id_plain_word {id : String} (accepted : Definition.isStepId id = true) :
    IsPlainWord id := by
  obtain ⟨notEmpty, characters⟩ := step_id_iff.1 accepted
  refine ⟨⟨fun empty => notEmpty (String.toList_eq_nil_iff.1 empty), ?_⟩, ?_⟩
  · intro character member
    rcases characters character member with plain | rfl | rfl
    · simp [ConditionToken.isWordCharacter, plain]
    · decide
    · decide
  · -- The mark of a variable has a dot, which no id has.
    intro marked
    have dot : '.' ∈ id.toList := marked.subset (by decide)
    rcases characters '.' dot with plain | isLow | isDash
    · exact absurd plain (by decide)
    · exact absurd isLow (by decide)
    · exact absurd isDash (by decide)

section

variable {id : String} {blanks : List Char} {outcome : StepOutcome}

theorem scan_step_question (outcome : StepOutcome) (accepted : Definition.isStepId id = true)
    (separated : blanks ≠ []) (blank : ∀ character ∈ blanks, Text.isBlank character = true) :
    ∃ placed, ConditionToken.scan (stepQuestion id blanks outcome) = .ok placed ∧
      placed.map PlacedToken.token = [.word id, outcomeToken outcome] := by
  have spaced : ConditionToken.Spaced [.word id, outcomeToken outcome]
      (stepQuestion id blanks outcome).toList := by
    rw [stepQuestion, String.toList_append, String.toList_append, String.toList_ofList]
    exact .cons (.word id) separated blank (.last (.word outcome.conditionWord))
  refine spaced.scans ?_ 0
  simpa using ⟨step_id_plain_word accepted, Condition.outcome_token_lexical outcome⟩

theorem parse_step_question (accepted : Definition.isStepId id = true) (separated : blanks ≠ [])
    (blank : ∀ character ∈ blanks, Text.isBlank character = true) (free : id ∉ reservedWords) :
    Condition.parse (stepQuestion id blanks outcome) = .ok (.stepIs id outcome) := by
  obtain ⟨placed, scanned, tokens⟩ := scan_step_question outcome accepted separated blank
  rw [Condition.parse, scanned]
  refine Condition.of_tokens_ok_iff_derives.2 ?_
  rw [tokens]
  have derives : DerivesNegation [.word id, outcomeToken outcome] (.stepIs id outcome) :=
    ⟨.of (.stepIs ⟨id, free⟩ outcome), rfl, rfl⟩
  exact derives.conjunction.disjunction

/-- After a constant no outcome may follow, and after a negation the outcome is itself a step,
about which nothing is asked. -/
theorem reserved_word_refused {finish first second : Nat} (reserved : id ∈ reservedWords) :
    ∃ failure, Condition.ofTokens finish [⟨first, .word id⟩, ⟨second, outcomeToken outcome⟩] =
      .error failure := by
  simp only [reservedWords, List.mem_cons, List.not_mem_nil, or_false] at reserved
  rw [Condition.of_tokens_eq_run]
  rcases reserved with rfl | rfl | rfl <;> cases outcome <;> exact ⟨_, rfl⟩

theorem reserved_step_question (accepted : Definition.isStepId id = true)
    (separated : blanks ≠ []) (blank : ∀ character ∈ blanks, Text.isBlank character = true)
    (reserved : id ∈ reservedWords) :
    ∃ failure, Condition.parse (stepQuestion id blanks outcome) = .error failure := by
  obtain ⟨placed, scanned, tokens⟩ := scan_step_question outcome accepted separated blank
  obtain ⟨⟨first, _⟩, others, rfl, rfl, othersTokens⟩ := List.map_eq_cons_iff.1 tokens
  obtain ⟨⟨second, _⟩, none, rfl, rfl, noTokens⟩ := List.map_eq_cons_iff.1 othersTokens
  obtain rfl := List.map_eq_nil_iff.1 noTokens
  rw [Condition.parse, scanned]
  exact reserved_word_refused reserved

end

namespace Definition

variable {files : Files} {path : FilePath} {definition : Definition}

theorem check_no_fault {written : Definition} (checked : written.check = .ok definition) :
    definition.fault? = none := by
  rw [check] at checked
  cases found : written.fault? with
  | some fault => simp [found] at checked
  | none =>
      simp only [found] at checked
      cases checked
      exact found

theorem of_yaml_no_fault {text : String} (read : ofYaml text = .ok definition) :
    definition.fault? = none := by
  rw [ofYaml] at read
  split at read
  · exact check_no_fault read
  · cases read

theorem of_json_no_fault {text : String} (read : ofJson text = .ok definition) :
    definition.fault? = none := by
  rw [ofJson] at read
  split at read
  · exact check_no_fault read
  · cases read

theorem load_no_fault (loads : load files path = .ok definition) : definition.fault? = none := by
  rw [load] at loads
  split at loads
  · cases loads
  · next text _ =>
      split at loads
      · next read =>
          cases loads
          split at read
          · exact of_yaml_no_fault read
          · exact of_json_no_fault read
      · cases loads

theorem loaded_step_id (loads : load files path = .ok definition) {step : StepDefinition}
    (member : step ∈ definition.steps) : isStepId step.id = true :=
  (step_fault_none_iff.1 ((fault_none_iff.1 (load_no_fault loads)).2.2 step member)).1

end Definition

namespace CompiledPipeline

theorem compile_step_check {pipeline : Pipeline} {graph : Graph} {target : Step} {source : String}
    {outcome : StepOutcome} (built : Graph.build pipeline = .ok graph)
    (declared : target ∈ pipeline.steps)
    (parsed : Condition.parse source = .ok (.stepIs target.id outcome)) (asking : Step) :
    compileCondition pipeline graph asking source = .ok (.stepIs target.id outcome) := by
  have contained : graph.contains target.id = true :=
    (contains_iff (Graph.build_plans built) target.id).2 (List.mem_map_of_mem declared)
  have defined : (Condition.stepIs target.id outcome).firstUndefined?
      (pipeline.environmentOf asking) graph.contains = none := by
    simp [Condition.firstUndefined?, contained]
  simp only [compileCondition, parsed, defined]

end CompiledPipeline

/-- The question about a step is read as the check for it, whatever blank space it is written
with, unless the id is a word of the grammar: then it is refused. In a definition that loads,
any step may ask about any other with a free id; the check compiles and is what the compiled
pipeline keeps, and it holds exactly for the recorded outcome. -/
theorem declared_steps_can_be_asked_about {blanks : List Char} (separated : blanks ≠ [])
    (blank : ∀ character ∈ blanks, Text.isBlank character = true) (outcome : StepOutcome) :
    (∀ id, Definition.isStepId id = true →
      (id ∉ reservedWords →
        Condition.parse (stepQuestion id blanks outcome) = .ok (.stepIs id outcome)) ∧
      (id ∈ reservedWords →
        ∃ failure, Condition.parse (stepQuestion id blanks outcome) = .error failure)) ∧
    ∀ (files : Files) (path : FilePath) (definition : Definition),
      Definition.load files path = .ok definition →
      ∀ (overrides : List (String × String)), ∀ target ∈ definition.steps,
        target.id ∉ reservedWords →
        (∀ (graph : Graph) (asking : Step),
          Graph.build (definition.pipelineUnder overrides) = .ok graph →
          ∃ condition, CompiledPipeline.compileCondition (definition.pipelineUnder overrides) graph
              asking (stepQuestion target.id blanks outcome) = .ok condition ∧
            condition.ChecksStep target.id outcome) ∧
        ∀ compiled, CompiledPipeline.load files path overrides = .ok compiled →
          ∀ asking ∈ definition.steps,
            asking.condition = some (stepQuestion target.id blanks outcome) →
            ∃ condition, compiled.condition? asking.id = some condition ∧
              condition.ChecksStep target.id outcome := by
  refine ⟨fun id accepted => ⟨parse_step_question accepted separated blank,
    reserved_step_question accepted separated blank⟩, ?_⟩
  intro files path definition loads overrides target declared free
  have parsed : Condition.parse (stepQuestion target.id blanks outcome) =
      .ok (.stepIs target.id outcome) :=
    parse_step_question (Definition.loaded_step_id loads declared) separated blank free
  have checks := Condition.step_is_checks_step target.id outcome
  constructor
  · intro graph asking built
    have declaredStep : Definition.stepOf target ∈ (definition.pipelineUnder overrides).steps :=
      List.mem_map_of_mem declared
    exact ⟨_, CompiledPipeline.compile_step_check built declaredStep parsed asking, checks⟩
  · intro compiled compiles asking member written
    have askingStep : Definition.stepOf asking ∈ (definition.pipelineUnder overrides).steps :=
      List.mem_map_of_mem member
    exact ⟨_, (CompiledPipeline.condition?_eq_some_iff
      ((CompiledPipeline.load_ok_iff loads).1 compiles) askingStep).2 ⟨_, written, parsed⟩, checks⟩

def askingText : String :=
  "\x7b\"name\":\"r\",\"steps\":[
    \x7b\"id\":\"or\",\"action\":\x7b\"type\":\"shell\",\"command\":\"make\"\x7d\x7d,
    \x7b\"id\":\"s\",\"action\":\x7b\"type\":\"shell\",\"command\":\"make\"\x7d,
      \"depends_on\":[\"or\"],\"if\":\"or\u2003 failed\"\x7d]\x7d"

def askingFiles : Files := ⟨.directory [("p", .ofText askingText false)], []⟩

theorem operator_step_can_be_asked_about :
    (∀ character ∈ ['\u2003', ' '], Text.isBlank character = true) ∧
    Definition.isStepId "or" = true ∧ "or" ∉ reservedWords ∧
    Condition.parse "or\u2003 failed" = .ok (.stepIs "or" .failed) ∧
    ∃ definition compiled, Definition.load askingFiles ⟨"p"⟩ = .ok definition ∧
      CompiledPipeline.load askingFiles ⟨"p"⟩ [] = .ok compiled ∧
      ∃ condition, compiled.condition? "s" = some condition ∧
        condition.ChecksStep "or" .failed := by
  have separated : ['\u2003', ' '] ≠ [] := List.cons_ne_nil _ _
  have blank : ∀ character ∈ ['\u2003', ' '], Text.isBlank character = true :=
    List.all_eq_true.1 (by decide)
  have asked := declared_steps_can_be_asked_about separated blank .failed
  have accepted : Definition.isStepId "or" = true := by decide
  have free : "or" ∉ reservedWords := by decide
  have evaluated : ((Definition.load askingFiles ⟨"p"⟩).toOption.bind fun definition =>
      (CompiledPipeline.compile (definition.pipelineUnder [])).toOption.map fun _ =>
        definition.steps.map fun step => (step.id, step.condition)) =
      some [("or", none), ("s", some (stepQuestion "or" ['\u2003', ' '] .failed))] := by
    decide +kernel
  obtain ⟨definition, found, rest⟩ := Option.bind_eq_some_iff.1 evaluated
  obtain ⟨compiled, alsoFound, same⟩ := Option.map_eq_some_iff.1 rest
  have loads := except_ok_of_to_option found
  have compiles := (CompiledPipeline.load_ok_iff loads).2 (except_ok_of_to_option alsoFound)
  obtain ⟨target, others, steps, isTarget, othersSame⟩ := List.map_eq_cons_iff.1 same
  obtain ⟨asking, none, rfl, isAsking, _⟩ := List.map_eq_cons_iff.1 othersSame
  obtain ⟨targetId, _⟩ := Prod.mk.inj isTarget
  obtain ⟨askingId, written⟩ := Prod.mk.inj isAsking
  refine ⟨blank, accepted, free, (asked.1 "or" accepted).1 free, definition, compiled, loads,
    compiles, ?_⟩
  have declared : target ∈ definition.steps := by simp [steps]
  have asks : asking ∈ definition.steps := by simp [steps]
  rw [← targetId] at written free ⊢
  rw [← askingId]
  exact (asked.2 _ _ definition loads [] target declared free).2 compiled compiles asking asks
    written

/-- An id that loads, and a question about it of which the constant is read alone. -/
theorem constant_step_cannot_be_asked_about :
    Definition.isStepId "true" = true ∧
      Condition.parse (stepQuestion "true" [' '] .success) =
        .error ⟨5, .unexpectedToken (.word "succeeded")⟩ := by
  decide +kernel

end PipelineWaves
