import PipelineWaves.Compiled
import PipelineWaves.Proofs.Graph.Place

/-!
# Compiled pipelines

What a compiled pipeline keeps of the pipeline it came from: its graph is the
graph of the pipeline, and a step has a compiled condition exactly when its
condition text can be read, which then mentions only names that exist.
-/

set_option autoImplicit false

namespace PipelineWaves

namespace Condition

theorem undefined_eq_find (environment : Environment) (declared : String → Bool)
    (operand : Operand) :
    operand.undefined? environment =
      operand.references.find? fun reference => !isDefined environment declared reference := by
  cases operand with
  | «variable» name =>
      rw [Operand.undefined?, Operand.references, List.find?_singleton, isDefined]
      cases environment.contains name <;> rfl
  | literal text => rfl

/-- The check stops at the first reference that does not exist. -/
theorem first_undefined_eq_find (environment : Environment) (declared : String → Bool)
    (condition : Condition) :
    condition.firstUndefined? environment declared =
      condition.references.find? fun reference => !isDefined environment declared reference := by
  induction condition with
  | constant value => rfl
  | truthy operand => exact undefined_eq_find environment declared operand
  | compare left how right =>
      rw [firstUndefined?, references, List.find?_append,
        undefined_eq_find environment declared left, undefined_eq_find environment declared right]
      exact Option.orElse_eq_or
  | stepIs step outcome =>
      rw [firstUndefined?, references, List.find?_singleton, isDefined]
      cases declared step <;> rfl
  | not inner induction => rw [firstUndefined?, references, induction]
  | and left right leftInduction rightInduction
  | or left right leftInduction rightInduction =>
      rw [firstUndefined?, references, List.find?_append, leftInduction, rightInduction]
      exact Option.orElse_eq_or

end Condition

namespace CompiledPipeline

theorem compile_condition_ok {pipeline : Pipeline} {graph : Graph} {step : Step} {source : String}
    {condition : Condition}
    (compiles : compileCondition pipeline graph step source = .ok condition) :
    Condition.parse source = .ok condition ∧
      condition.firstUndefined? (pipeline.environmentOf step) graph.contains = none := by
  rw [compileCondition] at compiles
  cases parsed : Condition.parse source with
  | error failure => simp [parsed] at compiles
  | ok read =>
      simp only [parsed] at compiles
      cases undefined : read.firstUndefined? (pipeline.environmentOf step) graph.contains with
      | some reference => simp [undefined] at compiles
      | none =>
          simp only [undefined] at compiles
          cases compiles
          exact ⟨rfl, undefined⟩

/-- A compiled list starts with the condition of the first step, if it has one. -/
theorem compile_conditions_cons {pipeline : Pipeline} {graph : Graph} {step : Step}
    {rest : List Step} {conditions : List (String × Condition)}
    (compiles : compileConditions pipeline graph (step :: rest) = .ok conditions) :
    ∃ others, compileConditions pipeline graph rest = .ok others ∧
      match step.condition with
      | none => conditions = others
      | some source => ∃ condition,
          compileCondition pipeline graph step source = .ok condition ∧
            conditions = (step.id, condition) :: others := by
  rw [compileConditions] at compiles
  cases written : step.condition with
  | none =>
      simp only [written] at compiles
      exact ⟨conditions, compiles, rfl⟩
  | some source =>
      simp only [written] at compiles
      cases own : compileCondition pipeline graph step source with
      | error failure => simp [own] at compiles
      | ok condition =>
          simp only [own] at compiles
          cases later : compileConditions pipeline graph rest with
          | error failure =>
              rw [later] at compiles
              cases compiles
          | ok others =>
              rw [later] at compiles
              cases compiles
              exact ⟨others, rfl, condition, own, rfl⟩

theorem compile_conditions_keys {pipeline : Pipeline} {graph : Graph} {steps : List Step}
    {conditions : List (String × Condition)}
    (compiles : compileConditions pipeline graph steps = .ok conditions) :
    ∀ entry ∈ conditions, entry.1 ∈ steps.map Step.id := by
  induction steps generalizing conditions with
  | nil =>
      cases compiles
      simp
  | cons step rest induction =>
      obtain ⟨others, later, own⟩ := compile_conditions_cons compiles
      intro entry member
      rw [List.map_cons]
      cases written : step.condition with
      | none =>
          simp only [written] at own
          exact List.mem_cons_of_mem _ (induction later entry (own ▸ member))
      | some source =>
          simp only [written] at own
          obtain ⟨condition, _, same⟩ := own
          rw [same] at member
          rcases List.mem_cons.1 member with first | other
          · rw [first]
            exact List.mem_cons_self
          · exact List.mem_cons_of_mem _ (induction later entry other)

theorem lookup_eq_none_of_keys {conditions : List (String × Condition)} {id : String}
    (absent : ∀ entry ∈ conditions, entry.1 ≠ id) : conditions.lookup id = none := by
  rw [List.lookup_eq_none_iff]
  intro entry member
  simpa using fun same : id = entry.1 => absent entry member same.symm

theorem compile_conditions_lookup {pipeline : Pipeline} {graph : Graph} {steps : List Step}
    {conditions : List (String × Condition)} {step : Step}
    (distinct : (steps.map Step.id).Nodup)
    (compiles : compileConditions pipeline graph steps = .ok conditions) (member : step ∈ steps) :
    match step.condition with
    | none => conditions.lookup step.id = none
    | some source => ∃ condition, compileCondition pipeline graph step source = .ok condition ∧
        conditions.lookup step.id = some condition := by
  induction steps generalizing conditions with
  | nil => cases member
  | cons first rest induction =>
      obtain ⟨others, later, own⟩ := compile_conditions_cons compiles
      rw [List.map_cons, List.nodup_cons] at distinct
      rcases List.mem_cons.1 member with same | other
      · subst same
        have absent : others.lookup step.id = none := by
          apply lookup_eq_none_of_keys
          intro entry present same
          exact distinct.1 (same ▸ compile_conditions_keys later entry present)
        cases written : step.condition with
        | none =>
            simp only [written] at own
            exact own ▸ absent
        | some source =>
            simp only [written] at own
            obtain ⟨condition, compiled, same⟩ := own
            refine ⟨condition, compiled, ?_⟩
            rw [same, List.lookup_cons_self]
      · have different : step.id ≠ first.id :=
          fun same => distinct.1 (same ▸ List.mem_map_of_mem other)
        have inner := induction distinct.2 later other
        have skipsFirst : conditions.lookup step.id = others.lookup step.id := by
          cases written : first.condition with
          | none =>
              simp only [written] at own
              rw [own]
          | some source =>
              simp only [written] at own
              obtain ⟨condition, _, same⟩ := own
              rw [same, lookup_cons_eq_if, if_neg different]
        rwa [skipsFirst]

variable {pipeline : Pipeline} {compiled : CompiledPipeline}

theorem compile_parts (compiles : compile pipeline = .ok compiled) :
    compiled.pipeline = pipeline ∧ Graph.build pipeline = .ok compiled.graph ∧
      compileConditions pipeline compiled.graph pipeline.steps = .ok compiled.conditions := by
  rw [compile] at compiles
  cases built : Graph.build pipeline with
  | error failure => simp [built] at compiles
  | ok graph =>
      simp only [built] at compiles
      cases conditions : compileConditions pipeline graph pipeline.steps with
      | error failure =>
          rw [conditions] at compiles
          cases compiles
      | ok list =>
          rw [conditions] at compiles
          cases compiles
          exact ⟨rfl, rfl, conditions⟩

theorem compile_plans (compiles : compile pipeline = .ok compiled) :
    compiled.graph.Plans pipeline :=
  Graph.build_plans (compile_parts compiles).2.1

theorem compiled_plans (compiles : compile pipeline = .ok compiled) :
    compiled.graph.Plans compiled.pipeline :=
  (compile_parts compiles).1.symm ▸ compile_plans compiles

theorem exists_condition (compiles : compile pipeline = .ok compiled) {step : Step}
    (member : step ∈ pipeline.steps) {source : String} (written : step.condition = some source) :
    ∃ condition, compiled.condition? step.id = some condition ∧
      Condition.parse source = .ok condition := by
  have lookup := compile_conditions_lookup (compile_plans compiles).distinct
    (compile_parts compiles).2.2 member
  simp only [written] at lookup
  obtain ⟨condition, own, found⟩ := lookup
  exact ⟨condition, found, (compile_condition_ok own).1⟩

theorem condition_source (compiles : compile pipeline = .ok compiled) {step : Step}
    (member : step ∈ pipeline.steps) {condition : Condition}
    (has : compiled.condition? step.id = some condition) :
    ∃ source, step.condition = some source ∧
      compileCondition pipeline compiled.graph step source = .ok condition := by
  have lookup := compile_conditions_lookup (compile_plans compiles).distinct
    (compile_parts compiles).2.2 member
  rw [condition?] at has
  cases written : step.condition with
  | none =>
      simp only [written] at lookup
      rw [lookup] at has
      cases has
  | some source =>
      simp only [written] at lookup
      obtain ⟨read, own, found⟩ := lookup
      rw [found] at has
      cases has
      exact ⟨source, rfl, own⟩

theorem condition?_eq_some_iff (compiles : compile pipeline = .ok compiled) {step : Step}
    (member : step ∈ pipeline.steps) {condition : Condition} :
    compiled.condition? step.id = some condition ↔
      ∃ source, step.condition = some source ∧ Condition.parse source = .ok condition := by
  constructor
  · intro has
    obtain ⟨source, written, own⟩ := condition_source compiles member has
    exact ⟨source, written, (compile_condition_ok own).1⟩
  · rintro ⟨source, written, parsed⟩
    obtain ⟨other, has, otherParsed⟩ := exists_condition compiles member written
    rw [parsed] at otherParsed
    cases otherParsed
    exact has

theorem condition_defined (compiles : compile pipeline = .ok compiled) {step : Step}
    (member : step ∈ pipeline.steps) {condition : Condition}
    (has : compiled.condition? step.id = some condition) :
    ∀ reference ∈ condition.references,
      Condition.isDefined (pipeline.environmentOf step) compiled.graph.contains reference = true := by
  obtain ⟨_, _, own⟩ := condition_source compiles member has
  have noneUndefined := (compile_condition_ok own).2
  rw [Condition.first_undefined_eq_find, List.find?_eq_none] at noneUndefined
  simpa using noneUndefined

/-- The steps that a condition asks about are declared. -/
theorem condition_steps_declared (compiles : compile pipeline = .ok compiled) {step : Step}
    (member : step ∈ pipeline.steps) {condition : Condition}
    (has : compiled.condition? step.id = some condition) {id : String}
    (asked : id ∈ condition.steps) : id ∈ pipeline.stepIds := by
  obtain ⟨reference, mentioned, isStep⟩ := List.mem_filterMap.1 asked
  have defined := condition_defined compiles member has reference mentioned
  match reference with
  | .variable name => cases isStep
  | .step name =>
      cases isStep
      obtain ⟨node, isNode, same⟩ := List.any_eq_true.1 defined
      rw [← (compile_plans compiles).node_ids_eq]
      exact List.mem_map.2 ⟨node, isNode, of_decide_eq_true same⟩

end CompiledPipeline

end PipelineWaves
