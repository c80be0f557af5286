import PipelineWaves.Proofs.Compilation
import PipelineWaves.Proofs.Graph.Validity

/-!
# Rearranged pipelines

What a pipeline keeps when its steps are declared in another order: which step
depends on which, whether it compiles, and the wave of every step. The order decides
only where a step stands within its wave, and which of several faults is reported.
-/

set_option autoImplicit false

namespace PipelineWaves

namespace Pipeline

/-- The same pipeline with its steps declared in another order. -/
structure IsRearranged (pipeline other : Pipeline) : Prop where
  steps : other.steps.Perm pipeline.steps
  rest : other = { pipeline with steps := other.steps }

variable {pipeline other : Pipeline}

namespace IsRearranged

theorem environment_of (rearranged : pipeline.IsRearranged other) (step : Step) :
    other.environmentOf step = pipeline.environmentOf step := by
  rw [rearranged.rest]
  rfl

theorem step_ids_perm (rearranged : pipeline.IsRearranged other) :
    other.stepIds.Perm pipeline.stepIds :=
  rearranged.steps.map Step.id

theorem depends_on_eq (rearranged : pipeline.IsRearranged other) :
    other.DependsOn = pipeline.DependsOn := by
  funext id dependency
  simp only [DependsOn, rearranged.steps.mem_iff]

theorem is_ancestor_eq (rearranged : pipeline.IsRearranged other) :
    other.IsAncestor = pipeline.IsAncestor := by
  funext ancestor id
  rw [IsAncestor, IsAncestor, rearranged.depends_on_eq]

theorem symm (rearranged : pipeline.IsRearranged other) : other.IsRearranged pipeline where
  steps := rearranged.steps.symm
  rest := by
    rw [rearranged.rest]

theorem distinct (rearranged : pipeline.IsRearranged other) (distinct : pipeline.HasDistinctIds) :
    other.HasDistinctIds :=
  rearranged.step_ids_perm.nodup_iff.2 distinct

theorem known (rearranged : pipeline.IsRearranged other) (known : pipeline.KnowsDependencies) :
    other.KnowsDependencies := by
  intro step member dependency listed
  rw [rearranged.step_ids_perm.mem_iff]
  exact known step (rearranged.steps.mem_iff.1 member) dependency listed

theorem acyclic (rearranged : pipeline.IsRearranged other) (acyclic : pipeline.IsAcyclic) :
    other.IsAcyclic := by
  intro id
  rw [rearranged.is_ancestor_eq]
  exact acyclic id

end IsRearranged

end Pipeline

namespace CompiledPipeline

variable {pipeline other : Pipeline}

theorem contains_iff {graph : Graph} (plans : graph.Plans pipeline) (id : String) :
    graph.contains id = true ↔ id ∈ pipeline.stepIds := by
  rw [← plans.node_ids_eq]
  simp [Graph.contains, nodeIds]

theorem compile_conditions_of_each {graph : Graph} {steps : List Step}
    (each : ∀ step ∈ steps, ∀ source, step.condition = some source →
      ∃ condition, compileCondition pipeline graph step source = .ok condition) :
    ∃ conditions, compileConditions pipeline graph steps = .ok conditions := by
  induction steps with
  | nil => exact ⟨[], rfl⟩
  | cons step rest induction =>
      obtain ⟨others, later⟩ :=
        induction fun other member => each other (List.mem_cons_of_mem step member)
      rw [compileConditions]
      cases written : step.condition with
      | none => exact ⟨others, later⟩
      | some source =>
          obtain ⟨condition, own⟩ := each step List.mem_cons_self source written
          exact ⟨(step.id, condition) :: others, by simp only [own, later]; rfl⟩

theorem compile_condition_rearranged (rearranged : pipeline.IsRearranged other)
    {graph otherGraph : Graph} (plans : graph.Plans pipeline) (otherPlans : otherGraph.Plans other)
    (step : Step) (source : String) :
    compileCondition other otherGraph step source = compileCondition pipeline graph step source := by
  have sameSteps : otherGraph.contains = graph.contains := by
    funext id
    rw [Bool.eq_iff_iff, contains_iff plans, contains_iff otherPlans,
      rearranged.step_ids_perm.mem_iff]
  rw [compileCondition, compileCondition, sameSteps, rearranged.environment_of]

theorem compile_rearranged (rearranged : pipeline.IsRearranged other) {compiled : CompiledPipeline}
    (compiles : compile pipeline = .ok compiled) :
    ∃ otherCompiled, compile other = .ok otherCompiled := by
  have plans := compile_plans compiles
  obtain ⟨graph, built⟩ := Graph.build_ok_of_acyclic (rearranged.distinct plans.distinct)
    (rearranged.known plans.known) (rearranged.acyclic plans.acyclic)
  have otherPlans := Graph.build_plans built
  have each : ∀ step ∈ other.steps, ∀ source, step.condition = some source →
      ∃ condition, compileCondition other graph step source = .ok condition := by
    intro step member source written
    have declared := rearranged.steps.mem_iff.1 member
    obtain ⟨condition, has, _⟩ := exists_condition compiles declared written
    obtain ⟨same, sameWritten, own⟩ := condition_source compiles declared has
    rw [written] at sameWritten
    cases sameWritten
    exact ⟨condition, (compile_condition_rearranged rearranged plans otherPlans step source).trans
      own⟩
  obtain ⟨conditions, compilesAll⟩ := compile_conditions_of_each each
  exact ⟨⟨other, graph, conditions⟩, by simp only [compile, built, compilesAll]; rfl⟩

end CompiledPipeline

namespace Graph.Plans

variable {pipeline other : Pipeline} {graph otherGraph : Graph}

theorem wave_of_rearranged (plans : graph.Plans pipeline)
    (rearranged : pipeline.IsRearranged other) (otherPlans : otherGraph.Plans other)
    (id : String) : otherGraph.waveOf id = graph.waveOf id := by
  by_cases declared : id ∈ pipeline.stepIds
  · obtain ⟨step, member, rfl⟩ := List.mem_map.1 declared
    obtain ⟨index, place⟩ := plans.wave_of_step member
    have otherMember := rearranged.steps.mem_iff.2 member
    obtain ⟨otherIndex, otherPlace⟩ := otherPlans.wave_of_step otherMember
    have longest := plans.wave_of_longest_chain member place
    have otherLongest := otherPlans.wave_of_longest_chain otherMember otherPlace
    simp only [Pipeline.HasChain, rearranged.depends_on_eq] at longest otherLongest
    rw [place, otherPlace, longest.unique otherLongest]
  · have otherUndeclared : id ∉ other.stepIds :=
      fun inOther => declared (rearranged.step_ids_perm.mem_iff.1 inOther)
    rw [plans.wave_of_undeclared declared, otherPlans.wave_of_undeclared otherUndeclared]

end Graph.Plans

end PipelineWaves
