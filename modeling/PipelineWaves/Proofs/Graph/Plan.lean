import Mathlib
import PipelineWaves.Proofs.Graph.Place

/-!
# Plans

The plan of a graph is a layering by longest chains. It holds every declared step
once, no wave is empty, a wave keeps the order of declaration, and no step stands
later than its dependencies force it to.
-/

set_option autoImplicit false

namespace PipelineWaves

namespace Graph

/-- The place that the dependencies of a step force on it. -/
structure IsForcedPlace (graph : Graph) (pipeline : Pipeline) (step : Step) (index : Nat) :
    Prop where
  zero_iff : index = 0 ↔ step.dependsOn = []
  after_dependencies :
    ∀ dependency ∈ step.dependsOn, ∃ earlier < index, graph.waveOf dependency = some earlier
  one_after_greatest : step.dependsOn ≠ [] → ∃ greatest, index = greatest + 1 ∧
    IsGreatest {wave | ∃ dependency ∈ step.dependsOn, graph.waveOf dependency = some wave} greatest
  longest_chain : IsGreatest {length | pipeline.HasChain step.id length} index

theorem Plans.forced_place {graph : Graph} {pipeline : Pipeline} (plans : graph.Plans pipeline)
    {step : Step} {index : Nat} (member : step ∈ pipeline.steps)
    (place : graph.waveOf step.id = some index) : graph.IsForcedPlace pipeline step index where
  zero_iff := plans.wave_of_eq_zero_iff member place
  after_dependencies := plans.wave_of_dependency_lt member place
  one_after_greatest := by
    intro someDependency
    cases index with
    | zero => exact absurd ((plans.wave_of_eq_zero_iff member place).1 rfl) someDependency
    | succ previous => exact ⟨previous, rfl, plans.wave_of_greatest_dependency member place⟩
  longest_chain := plans.wave_of_longest_chain member place

/-- The waves hold each declared step once, in order of declaration within a wave,
and each step in the wave that its longest chain of dependencies forces. -/
theorem waves_layer_longest_chains (pipeline : Pipeline) (graph : Graph)
    (built : build pipeline = .ok graph) :
    pipeline.stepIds.Nodup ∧ graph.planIds.Perm pipeline.stepIds ∧
      (∀ wave ∈ graph.waveIds, wave ≠ [] ∧ wave.Sublist pipeline.stepIds) ∧
      ∀ step ∈ pipeline.steps, ∃ index,
        graph.waveOf step.id = some index ∧ graph.IsForcedPlace pipeline step index := by
  have plans := build_plans built
  refine ⟨plans.distinct, plans.plan_ids_perm, ?_, ?_⟩
  · intro wave member
    exact ⟨plans.wave_ids_ne_nil wave member, plans.wave_ids_sublist wave member⟩
  · intro step member
    obtain ⟨index, place⟩ := plans.wave_of_step member
    exact ⟨index, place, plans.forced_place member place⟩

end Graph

def releasePipeline : Pipeline :=
  { name := "release"
    description := ""
    steps :=
      [⟨"publish", "Publish", .shell "make publish" none, ["package", "lint", "package"], {},
          some "not (package skipped) and $CHANNEL == 'beta'"⟩,
        ⟨"fetch", "Fetch", .checkout "origin" "main" ".", [], {}, none⟩,
        ⟨"lint", "Lint", .shell "make lint" none, [], {}, none⟩,
        ⟨"package", "Package", .shell "make package" none, ["fetch"], {}, none⟩,
        ⟨"announce", "Announce", .shell "make announce" none, ["fetch"], {},
          some "$CHANNEL == 'stable' or lint failed and not fetch succeeded"⟩,
        ⟨"archive", "Archive", .shell "make archive" none, ["announce"], {}, none⟩]
    environment := Dictionary.ofList [("CHANNEL", "beta")] }

theorem release_pipeline_waves :
    ∃ graph, Graph.build releasePipeline = .ok graph ∧
      graph.waveIds = [["fetch", "lint"], ["package", "announce"], ["publish", "archive"]] ∧
      ∀ step ∈ releasePipeline.steps, ∃ index,
        graph.waveOf step.id = some index ∧ graph.IsForcedPlace releasePipeline step index := by
  have built : ∃ graph, Graph.build releasePipeline = .ok graph ∧
      graph.waveIds = [["fetch", "lint"], ["package", "announce"], ["publish", "archive"]] :=
    ⟨_, by cbv, by cbv⟩
  obtain ⟨graph, accepted, waves⟩ := built
  exact ⟨graph, accepted, waves,
    (Graph.waves_layer_longest_chains releasePipeline graph accepted).2.2.2⟩

end PipelineWaves
