import PipelineWaves.Proofs.Condition.Mention
import PipelineWaves.Proofs.Rearrangement
import PipelineWaves.Proofs.Run.Comparison

/-!
# Declaration order

The order in which steps are declared decides their order within a wave, and so what
a condition sees of the steps that its own step does not depend on. Where conditions
ask only about ancestors, nothing of that shows: a rearranged pipeline ends every
step alike. Ancestors lie in earlier waves, so the proof goes from wave to wave.
-/

set_option autoImplicit false

namespace PipelineWaves

/-- Every condition that can be read asks only about steps that its own step depends on,
directly or not. -/
def Pipeline.AsksOnlyAncestors (pipeline : Pipeline) : Prop :=
  ∀ step ∈ pipeline.steps, ∀ source condition, step.condition = some source →
    Condition.parse source = .ok condition →
      ∀ id ∈ condition.steps, pipeline.IsAncestor id step.id

namespace CompiledPipeline

variable {pipeline other : Pipeline} {compiled otherCompiled : CompiledPipeline}

theorem condition_holds_rearranged (asks : pipeline.AsksOnlyAncestors)
    (rearranged : pipeline.IsRearranged other) (compiles : compile pipeline = .ok compiled)
    (otherCompiles : compile other = .ok otherCompiled) {step : Step}
    (member : step ∈ pipeline.steps) {first second : Outcomes}
    (agree : ∀ ancestor, pipeline.IsAncestor ancestor step.id →
      first ancestor = second ancestor) :
    compiled.conditionHolds first step = otherCompiled.conditionHolds second step := by
  have otherMember := rearranged.steps.mem_iff.2 member
  have samePipeline := (compile_parts compiles).1
  have otherSame := (compile_parts otherCompiles).1
  have sameCondition : otherCompiled.condition? step.id = compiled.condition? step.id := by
    apply Option.ext
    intro condition
    rw [condition?_eq_some_iff compiles member, condition?_eq_some_iff otherCompiles otherMember]
  rw [conditionHolds, conditionHolds, sameCondition, samePipeline, otherSame,
    rearranged.environment_of]
  cases has : compiled.condition? step.id with
  | none => rfl
  | some condition =>
      obtain ⟨source, written, parsed⟩ := (condition?_eq_some_iff compiles member).1 has
      apply evaluate_congr
      intro id asked
      exact agree id (asks step member source condition written parsed id asked)

end CompiledPipeline

section Waves

variable {compiled otherCompiled : CompiledPipeline} {endings : StepEndings}
  {first second : String → Option StepResult} {firstLog secondLog : List Dispatch}

/-- Where the ancestors of a step end alike in both pipelines, the step has the same turn. -/
theorem same_turn_rearranged
    (asks : compiled.pipeline.AsksOnlyAncestors)
    (rearranged : compiled.pipeline.IsRearranged otherCompiled.pipeline)
    (compiles : CompiledPipeline.compile compiled.pipeline = .ok compiled)
    (otherCompiles : CompiledPipeline.compile otherCompiled.pipeline = .ok otherCompiled)
    {step : Step} (member : step ∈ compiled.pipeline.steps)
    (settled : Settled compiled endings first firstLog step)
    (otherSettled : Settled otherCompiled endings second secondLog step)
    (agree : ∀ ancestor, compiled.pipeline.IsAncestor ancestor step.id →
      outcomeIn first ancestor = outcomeIn second ancestor) :
    SameTurn compiled.pipeline first second endings endings step.id := by
  have plans := CompiledPipeline.compile_plans compiles
  have otherPlans := CompiledPipeline.compile_plans otherCompiles
  apply settled.same_turn otherSettled rearranged.is_ancestor_eq
  · exact has_failed_ancestor_of_outcomes agree
  · apply CompiledPipeline.condition_holds_rearranged asks rearranged compiles otherCompiles member
    intro ancestor reaches
    have otherReaches : otherCompiled.pipeline.IsAncestor ancestor step.id :=
      rearranged.is_ancestor_eq ▸ reaches
    rw [plans.outcomes_seen_of_ancestor first reaches,
      otherPlans.outcomes_seen_of_ancestor second otherReaches, agree ancestor reaches]

theorem outcomes_eq_rearranged
    (asks : compiled.pipeline.AsksOnlyAncestors)
    (rearranged : compiled.pipeline.IsRearranged otherCompiled.pipeline)
    (compiles : CompiledPipeline.compile compiled.pipeline = .ok compiled)
    (otherCompiles : CompiledPipeline.compile otherCompiled.pipeline = .ok otherCompiled)
    (settled : ∀ step ∈ compiled.pipeline.steps, Settled compiled endings first firstLog step)
    (otherSettled : ∀ step ∈ otherCompiled.pipeline.steps,
      Settled otherCompiled endings second secondLog step) :
    ∀ step ∈ compiled.pipeline.steps, outcomeIn first step.id = outcomeIn second step.id := by
  have plans := CompiledPipeline.compile_plans compiles
  have inWave : ∀ index, ∀ step ∈ compiled.pipeline.steps,
      compiled.graph.waveOf step.id = some index →
        outcomeIn first step.id = outcomeIn second step.id := by
    intro index
    induction index using Nat.strong_induction_on with
    | _ index earlierWaves =>
        intro step member place
        have otherMember := rearranged.steps.mem_iff.2 member
        refine (same_turn_rearranged asks rearranged compiles otherCompiles member
          (settled step member) (otherSettled step otherMember) ?_).outcome_eq rfl
        intro ancestor reaches
        obtain ⟨earlier, below, earlierPlace⟩ := plans.wave_of_lt_of_ancestor reaches place
        obtain ⟨ancestorStep, ancestorMember, rfl⟩ :=
          List.mem_map.1 (plans.declared_of_wave earlierPlace)
        exact earlierWaves earlier below ancestorStep ancestorMember earlierPlace
  intro step member
  obtain ⟨index, place⟩ := plans.wave_of_step member
  exact inWave index step member place

end Waves

/-- Whether a pipeline compiles, the wave of each step and how each step of an
uninterrupted run ends do not depend on the order of declaration, if conditions ask only
about ancestors. -/
theorem declaration_order_keeps_outcomes {pipeline other : Pipeline}
    (asks : pipeline.AsksOnlyAncestors) (rearranged : pipeline.IsRearranged other) :
    ((∃ compiled, CompiledPipeline.compile pipeline = .ok compiled) ↔
      ∃ compiled, CompiledPipeline.compile other = .ok compiled) ∧
    ∀ compiled otherCompiled, CompiledPipeline.compile pipeline = .ok compiled →
      CompiledPipeline.compile other = .ok otherCompiled →
        (∀ id, compiled.graph.waveOf id = otherCompiled.graph.waveOf id) ∧
        ∀ (endings : StepEndings) (First Second : Type) (first : Surroundings First)
          (second : Surroundings Second), first.IsUninterrupted → second.IsUninterrupted →
          first.LeavesResults endings → second.LeavesResults endings →
          ∀ identifier otherIdentifier start otherStart,
            let report := (compiled.run first identifier start).report
            let otherReport := (otherCompiled.run second otherIdentifier otherStart).report
            (∀ id, outcomeIn report.result? id = outcomeIn otherReport.result? id) ∧
              report.status = otherReport.status := by
  refine ⟨⟨?_, ?_⟩, ?_⟩
  · rintro ⟨compiled, compiles⟩
    exact CompiledPipeline.compile_rearranged rearranged compiles
  · rintro ⟨compiled, compiles⟩
    exact CompiledPipeline.compile_rearranged rearranged.symm compiles
  intro compiled otherCompiled compiles otherCompiles
  have plans := CompiledPipeline.compile_plans compiles
  have otherPlans := CompiledPipeline.compile_plans otherCompiles
  have samePipeline := (CompiledPipeline.compile_parts compiles).1
  have otherSame := (CompiledPipeline.compile_parts otherCompiles).1
  subst samePipeline otherSame
  refine ⟨fun id => (plans.wave_of_rearranged rearranged otherPlans id).symm, ?_⟩
  intro endings First Second first second uninterrupted alsoUninterrupted leaves alsoLeaves
    identifier otherIdentifier start otherStart report otherReport
  have inPlan := outcomes_eq_rearranged asks rearranged compiles otherCompiles
    (CompiledPipeline.run_settled plans uninterrupted leaves identifier start)
    (CompiledPipeline.run_settled otherPlans alsoUninterrupted alsoLeaves otherIdentifier
      otherStart)
  have samePlanned : ∀ id, id ∈ compiled.graph.planIds ↔ id ∈ otherCompiled.graph.planIds := by
    intro id
    rw [plans.mem_plan_ids, otherPlans.mem_plan_ids, rearranged.step_ids_perm.mem_iff]
  have outcomes : ∀ id, outcomeIn report.result? id = outcomeIn otherReport.result? id := by
    intro id
    by_cases declared : id ∈ compiled.pipeline.stepIds
    · obtain ⟨step, member, rfl⟩ := List.mem_map.1 declared
      exact inPlan step member
    · have notPlanned := mt plans.mem_plan_ids.1 declared
      rw [compiled.outcome_of_unplanned first identifier start notPlanned,
        otherCompiled.outcome_of_unplanned second otherIdentifier otherStart
          (mt (samePlanned id).2 notPlanned)]
  refine ⟨outcomes, ?_⟩
  have sameSuccess := CompiledPipeline.report_success_congr samePlanned fun id _ => outcomes id
  rw [CompiledPipeline.report_status uninterrupted,
    CompiledPipeline.report_status alsoUninterrupted, sameSuccess]

def deliverySteps : List Step :=
  [⟨"fetch", "Fetch", .checkout "origin" "main" ".", [], {}, none⟩,
    ⟨"lint", "Lint", .shell "make lint" none, ["fetch"], {}, none⟩,
    ⟨"package", "Package", .shell "make package" none, ["fetch"], {},
      some "fetch succeeded and $CHANNEL == 'stable'"⟩,
    ⟨"announce", "Announce", .shell "make announce" none, ["package"], {},
      some "not (fetch failed) and package skipped"⟩,
    ⟨"publish", "Publish", .shell "make publish" none, ["package", "lint"], {}, none⟩]

def deliveryPipeline (steps : List Step) : Pipeline :=
  { name := "delivery"
    description := ""
    steps
    environment := Dictionary.ofList [("CHANNEL", "beta")] }

theorem delivery_asks_only_ancestors : (deliveryPipeline deliverySteps).AsksOnlyAncestors := by
  have packageOnFetch : (deliveryPipeline deliverySteps).DependsOn "package" "fetch" :=
    ⟨deliverySteps[2], by simp [deliveryPipeline, deliverySteps], rfl, by simp [deliverySteps]⟩
  have announceOnPackage : (deliveryPipeline deliverySteps).DependsOn "announce" "package" :=
    ⟨deliverySteps[3], by simp [deliveryPipeline, deliverySteps], rfl, by simp [deliverySteps]⟩
  have fetchBeforePackage := Relation.TransGen.single packageOnFetch
  have packageBeforeAnnounce := Relation.TransGen.single announceOnPackage
  have fetchBeforeAnnounce := packageBeforeAnnounce.tail packageOnFetch
  have ofPackage : ∃ condition,
      Condition.parse "fetch succeeded and $CHANNEL == 'stable'" = .ok condition ∧
        condition.steps = ["fetch"] := ⟨_, by cbv, by cbv⟩
  have ofAnnounce : ∃ condition,
      Condition.parse "not (fetch failed) and package skipped" = .ok condition ∧
        condition.steps = ["fetch", "package"] := ⟨_, by cbv, by cbv⟩
  intro step member source condition written parsed id asked
  simp only [deliveryPipeline, deliverySteps, List.mem_cons, List.not_mem_nil, or_false] at member
  rcases member with rfl | rfl | rfl | rfl | rfl
  case inr.inr.inl =>
    obtain ⟨read, reads, steps⟩ := ofPackage
    cases written
    cases reads.symm.trans parsed
    rw [steps, List.mem_singleton] at asked
    exact asked ▸ fetchBeforePackage
  case inr.inr.inr.inl =>
    obtain ⟨read, reads, steps⟩ := ofAnnounce
    cases written
    cases reads.symm.trans parsed
    rw [steps, List.mem_cons, List.mem_singleton] at asked
    rcases asked with rfl | rfl
    · exact fetchBeforeAnnounce
    · exact packageBeforeAnnounce
  all_goals cases written

theorem delivery_pipeline_declaration_order :
    ∃ compiled other,
      CompiledPipeline.compile (deliveryPipeline deliverySteps) = .ok compiled ∧
      CompiledPipeline.compile (deliveryPipeline deliverySteps.reverse) = .ok other ∧
      compiled.graph.waveIds = [["fetch"], ["lint", "package"], ["announce", "publish"]] ∧
      other.graph.waveIds = [["fetch"], ["package", "lint"], ["publish", "announce"]] ∧
      (∀ id, compiled.graph.waveOf id = other.graph.waveOf id) ∧
      let report := (compiled.run (lastFirst lintFails) .zero ()).report
      let otherReport := (other.run (lastFirst lintFails) .zero ()).report
      report.results.map StepResult.outcome =
        [.success, .failed, .skipped, .success, .skipped] ∧
      (∀ id, outcomeIn report.result? id = outcomeIn otherReport.result? id) ∧
        report.status = otherReport.status := by
  have accepted : ∃ compiled,
      CompiledPipeline.compile (deliveryPipeline deliverySteps) = .ok compiled ∧
      compiled.graph.waveIds = [["fetch"], ["lint", "package"], ["announce", "publish"]] ∧
      (compiled.run (lastFirst lintFails) .zero ()).report.results.map StepResult.outcome =
        [.success, .failed, .skipped, .success, .skipped] := ⟨_, by cbv, by cbv, by cbv⟩
  have otherAccepted : ∃ other,
      CompiledPipeline.compile (deliveryPipeline deliverySteps.reverse) = .ok other ∧
      other.graph.waveIds = [["fetch"], ["package", "lint"], ["publish", "announce"]] :=
    ⟨_, by cbv, by cbv⟩
  obtain ⟨compiled, compiles, waves, outcomes⟩ := accepted
  obtain ⟨other, otherCompiles, otherWaves⟩ := otherAccepted
  have rearranged : (deliveryPipeline deliverySteps).IsRearranged
      (deliveryPipeline deliverySteps.reverse) := ⟨List.reverse_perm _, rfl⟩
  obtain ⟨sameWaves, sameRuns⟩ :=
    (declaration_order_keeps_outcomes delivery_asks_only_ancestors rearranged).2 compiled other
      compiles otherCompiles
  have leaves : (lastFirst lintFails).LeavesResults lintFails :=
    Surroundings.leaves_results_of_carries_out fun _ _ => List.reverse_perm _
  exact ⟨compiled, other, compiles, otherCompiles, waves, otherWaves, sameWaves, outcomes,
    sameRuns lintFails Unit Unit _ _ (fun _ _ => rfl) (fun _ _ => rfl) leaves leaves .zero .zero
      () ()⟩

end PipelineWaves
