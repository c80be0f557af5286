import PipelineWaves.Proofs.Graph.Plan
import PipelineWaves.Proofs.Program.Generation

/-!
# Conditions of programs

A program decides by the position of a step which arm of its condition function
applies. The text of that arm is read with the usual strength of the operators:
it is one well-formed boolean expression, and in the environment of the table it
has the value of the step's condition, whatever outcomes are recorded.
-/

set_option autoImplicit false

namespace PipelineWaves

def GeneratedProgram.HasArms (program : GeneratedProgram) (arms : List (Nat × String)) : Prop :=
  ∃ before after, program.main? = some
    (before ++ Template.terminated ProgramFragment.conditionHead
      ++ "\n".intercalate (arms.map ProgramTables.armText) ++ "\n"
      ++ Template.terminated ProgramFragment.conditionTail ++ after)

/-- What a program holds for a step with a condition: the position of the step, its entry in
the table and the expression of the first arm for that position. -/
structure EmittedCondition (compiled : CompiledPipeline) (program : GeneratedProgram)
    (step : Step) (index : Nat) (entry : ProgramStep) (expression : String) : Prop where
  position : compiled.graph.planIds[index]? = some step.id
  entry : (ProgramTables.of compiled).steps[index]? = some entry
  arm : ∃ arms, program.HasArms arms ∧ arms.lookup index = some expression

namespace CompiledPipeline

variable {compiled : CompiledPipeline} {program : GeneratedProgram}

theorem emitted_condition (plans : compiled.graph.Plans compiled.pipeline)
    (generated : compiled.generate = .ok program) {step : Step} {condition : Condition}
    (member : step ∈ compiled.pipeline.steps)
    (has : compiled.condition? step.id = some condition) :
    ∃ index expression,
      EmittedCondition compiled program step index (.of compiled.pipeline step) expression ∧
      ExpressionTerm.read expression =
        some (ProgramExpression.of
          (fun id => compiled.graph.planIds.findIdx? fun other => other = id) condition).term := by
  have declared : step.id ∈ compiled.pipeline.stepIds := List.mem_map_of_mem member
  obtain ⟨index, _, atIndex⟩ := position_of_planned (plans.mem_plan_ids.2 declared)
  have planned := plan_steps_at plans member atIndex
  have entry : (ProgramTables.of compiled).steps[index]? =
      some (ProgramStep.of compiled.pipeline step) := by
    rw [ProgramTables.of, List.getElem?_map, planned, Option.map_some]
  obtain ⟨values, written, main⟩ := ProgramTables.values_of_program generated
  obtain ⟨texts, textsWritten, _, atConditions⟩ := ProgramTables.values_ok written
  obtain ⟨arms, sameArms, _, _, atArms⟩ := ProgramTables.arms_of_texts textsWritten
  have isArm := atArms index _ (Nat.zero_le index) entry
  rw [ProgramTables.IsArm, ProgramTables.condition_at planned, index_of_plan plans, has,
    Option.map_some] at isArm
  obtain ⟨expression, expressionWritten, atArm⟩ := isArm
  rw [sameArms] at atConditions
  obtain ⟨before, after, filled⟩ := ProgramFragment.conditions_in_filled atConditions
  rw [filled] at main
  exact ⟨index, expression, ⟨atIndex, entry, arms, ⟨before, after, main⟩, atArm⟩,
    ProgramExpression.read_text expressionWritten⟩

end CompiledPipeline

/-- The expression of a step has the value of the condition of the step. -/
theorem emitted_conditions_keep_value {pipeline : Pipeline} {compiled : CompiledPipeline}
    {program : GeneratedProgram} (compiles : CompiledPipeline.compile pipeline = .ok compiled)
    (generated : compiled.generate = .ok program) {step : Step} {source : String}
    (member : step ∈ pipeline.steps) (written : step.condition = some source) :
    ∃ index entry expression term condition,
      EmittedCondition compiled program step index entry expression ∧
      entry.environment = (pipeline.environmentOf step).entries ∧
      ExpressionTerm.read expression = some term ∧
      Condition.parse source = .ok condition ∧
      ∀ outcomes : Outcomes,
        term.value ⟨entry.environment, compiled.graph.planIds.map outcomes⟩ =
          some (.boolean (condition.evaluate (pipeline.environmentOf step) outcomes)) := by
  have plans := CompiledPipeline.compile_plans compiles
  have samePipeline := (CompiledPipeline.compile_parts compiles).1
  obtain ⟨condition, has, parsed⟩ := CompiledPipeline.exists_condition compiles member written
  have known : ∀ id ∈ condition.steps, ∃ index,
      (compiled.graph.planIds.findIdx? fun other => other = id) = some index ∧
        compiled.graph.planIds[index]? = some id := by
    intro id asked
    have declared := CompiledPipeline.condition_steps_declared compiles member has asked
    exact position_of_planned (plans.mem_plan_ids.2 declared)
  subst samePipeline
  obtain ⟨index, expression, emitted, read⟩ :=
    CompiledPipeline.emitted_condition plans generated member has
  exact ⟨index, .of compiled.pipeline step, expression, _, condition, emitted, rfl, read, parsed,
    fun outcomes => value_of_condition _ outcomes condition known⟩

theorem release_pipeline_conditions :
    ∃ compiled program step source index entry expression term condition,
      CompiledPipeline.compile releasePipeline = .ok compiled ∧
      compiled.generate = .ok program ∧
      step ∈ releasePipeline.steps ∧ step.condition = some source ∧
      EmittedCondition compiled program step index entry expression ∧
      entry.environment = (releasePipeline.environmentOf step).entries ∧
      ExpressionTerm.read expression = some term ∧
      Condition.parse source = .ok condition ∧
      ∀ outcomes : Outcomes,
        term.value ⟨entry.environment, compiled.graph.planIds.map outcomes⟩ =
          some (.boolean (condition.evaluate (releasePipeline.environmentOf step) outcomes)) := by
  have accepted : ∃ compiled, CompiledPipeline.compile releasePipeline = .ok compiled ∧
      (ProgramTables.of compiled).values.isOk = true :=
    ⟨_, by cbv, by decide +kernel⟩
  obtain ⟨compiled, compiles, canWrite⟩ := accepted
  obtain ⟨values, written⟩ := ProgramTables.values_of_is_ok canWrite
  have generated := ProgramTables.program_of_values written
  have member : releasePipeline.steps[4] ∈ releasePipeline.steps := List.getElem_mem _
  obtain ⟨index, entry, expression, term, condition, keeps⟩ :=
    emitted_conditions_keep_value compiles generated member rfl
  exact ⟨compiled, _, releasePipeline.steps[4], _, index, entry, expression, term, condition,
    compiles, generated, member, rfl, keeps⟩

end PipelineWaves
