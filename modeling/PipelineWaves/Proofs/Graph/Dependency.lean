import Mathlib.Logic.Relation
import PipelineWaves.Graph.Basic
import PipelineWaves.Proofs.Graph.Layers

/-!
# Dependencies between steps

What a pipeline says about the order of its steps, and what a graph built from it
keeps of that. `Graph.Plans` collects it: the nodes are the steps, ids are
distinct, dependencies are declared and the waves are layers with nothing left.
Every statement about built graphs is derived from `Graph.Plans`.
-/

set_option autoImplicit false

namespace PipelineWaves

namespace Pipeline

/-- The step `id` lists `dependency`. -/
def DependsOn (pipeline : Pipeline) (id dependency : String) : Prop :=
  ∃ step ∈ pipeline.steps, step.id = id ∧ dependency ∈ step.dependsOn

/-- One or more dependencies lead from `id` to `ancestor`. -/
def IsAncestor (pipeline : Pipeline) (ancestor id : String) : Prop :=
  Relation.TransGen pipeline.DependsOn id ancestor

def HasDistinctIds (pipeline : Pipeline) : Prop := pipeline.stepIds.Nodup

def KnowsDependencies (pipeline : Pipeline) : Prop :=
  ∀ step ∈ pipeline.steps, ∀ dependency ∈ step.dependsOn, dependency ∈ pipeline.stepIds

def IsAcyclic (pipeline : Pipeline) : Prop := ∀ id, ¬pipeline.IsAncestor id id

theorem depends_on_declared {pipeline : Pipeline} {id dependency : String}
    (depends : pipeline.DependsOn id dependency) : id ∈ pipeline.stepIds := by
  obtain ⟨step, member, same, _⟩ := depends
  exact same ▸ List.mem_map_of_mem member

theorem descendant_declared {pipeline : Pipeline} {ancestor id : String}
    (reaches : pipeline.IsAncestor ancestor id) : id ∈ pipeline.stepIds := by
  obtain ⟨first, depends, _⟩ := Relation.TransGen.head'_iff.1 reaches
  exact depends_on_declared depends

theorem step_eq_of_id_eq {pipeline : Pipeline} {left right : Step}
    (distinct : pipeline.HasDistinctIds) (leftMember : left ∈ pipeline.steps)
    (rightMember : right ∈ pipeline.steps) (same : left.id = right.id) : left = right :=
  List.inj_on_of_nodup_map distinct leftMember rightMember same

theorem step?_of_mem {pipeline : Pipeline} {step : Step} (distinct : pipeline.HasDistinctIds)
    (member : step ∈ pipeline.steps) : pipeline.step? step.id = some step := by
  have someFound : (pipeline.step? step.id).isSome := by
    rw [step?, List.find?_isSome]
    exact ⟨step, member, by simp⟩
  obtain ⟨found, foundEq⟩ := Option.isSome_iff_exists.1 someFound
  have sameId : found.id = step.id := by simpa using List.find?_some foundEq
  have foundMember := List.mem_of_find?_eq_some foundEq
  rw [foundEq, step_eq_of_id_eq distinct foundMember member sameId]

end Pipeline

theorem mem_node_dependencies {step : Step} {dependency : String} :
    dependency ∈ (Graph.nodeOf step).dependencies ↔ dependency ∈ step.dependsOn := by
  simp [Graph.nodeOf]

theorem node_ids_of_steps (steps : List Step) :
    nodeIds (steps.map Graph.nodeOf) = steps.map Step.id := by
  simp [nodeIds, Graph.nodeOf, Function.comp_def]

theorem first_repeated_none_iff {seen ids : List String} :
    Graph.firstRepeated seen ids = none ↔ ids.Nodup ∧ ∀ id ∈ ids, id ∉ seen := by
  induction ids generalizing seen with
  | nil => simp [Graph.firstRepeated]
  | cons id rest induction =>
      rw [Graph.firstRepeated]
      by_cases repeated : id ∈ seen
      · simp [repeated]
      · simp only [List.contains_eq_mem, repeated, decide_false, Bool.false_eq_true, if_false,
          induction, List.nodup_cons, List.mem_cons, forall_eq_or_imp, not_or]
        grind

theorem first_unknown_none_iff {pipeline : Pipeline} :
    Graph.firstUnknown pipeline.stepIds pipeline.steps = none ↔ pipeline.KnowsDependencies := by
  simp [Graph.firstUnknown, Pipeline.KnowsDependencies]

namespace Graph

/-- What a graph keeps of the pipeline it was built from. -/
structure Plans (graph : Graph) (pipeline : Pipeline) : Prop where
  nodes : graph.nodes = pipeline.steps.map nodeOf
  distinct : pipeline.HasDistinctIds
  known : pipeline.KnowsDependencies
  layers : Layers [] graph.nodes graph.waves []

/-- The waves of the steps and the steps that never become free. -/
def placement (pipeline : Pipeline) : Placement :=
  placeWaves ((pipeline.steps.map nodeOf).map WaitingNode.ofNode)

def stuckNodes (pipeline : Pipeline) : List GraphNode := waitingNodes (placement pipeline).stuck

theorem placement_layers {pipeline : Pipeline} (distinct : pipeline.HasDistinctIds) :
    Layers [] (pipeline.steps.map nodeOf) (placement pipeline).waves (stuckNodes pipeline) := by
  have distinctNodes :
      DistinctWith [] (waitingNodes ((pipeline.steps.map nodeOf).map WaitingNode.ofNode)) := by
    rw [DistinctWith, waiting_nodes_start, node_ids_of_steps, List.nil_append]
    exact distinct
  have layers := place_waves_layers distinctNodes (counted_start _)
  rwa [waiting_nodes_start] at layers

theorem build_of_repeated {pipeline : Pipeline} {id : String}
    (repeated : firstRepeated [] pipeline.stepIds = some id) :
    build pipeline = .error (.duplicateStep id) := by
  simp only [build, repeated]

theorem build_of_unknown {pipeline : Pipeline} {id dependency : String}
    (distinct : pipeline.HasDistinctIds)
    (unknown : firstUnknown pipeline.stepIds pipeline.steps = some (id, dependency)) :
    build pipeline = .error (.unknownDependency id dependency) := by
  have noneRepeated : firstRepeated [] pipeline.stepIds = none :=
    first_repeated_none_iff.2 ⟨distinct, by simp⟩
  simp only [build, noneRepeated, unknown]

theorem build_of_known {pipeline : Pipeline} (distinct : pipeline.HasDistinctIds)
    (known : pipeline.KnowsDependencies) :
    build pipeline =
      if stuckNodes pipeline = [] then
        .ok ⟨pipeline.steps.map nodeOf, (placement pipeline).waves⟩
      else .error (.cyclicDependency (cycleAmong (stuckNodes pipeline))) := by
  have noneRepeated : firstRepeated [] pipeline.stepIds = none :=
    first_repeated_none_iff.2 ⟨distinct, by simp⟩
  simp only [build, noneRepeated, first_unknown_none_iff.2 known]
  simp [stuckNodes, placement, waitingNodes]

theorem build_plans {pipeline : Pipeline} {graph : Graph}
    (built : build pipeline = .ok graph) : graph.Plans pipeline := by
  cases repeated : firstRepeated [] pipeline.stepIds with
  | some id => simp [build_of_repeated repeated] at built
  | none =>
      have distinct : pipeline.HasDistinctIds := (first_repeated_none_iff.1 repeated).1
      cases unknown : firstUnknown pipeline.stepIds pipeline.steps with
      | some pair => simp [build_of_unknown distinct unknown] at built
      | none =>
          have known := first_unknown_none_iff.1 unknown
          have layers := placement_layers distinct
          rw [build_of_known distinct known] at built
          split at built
          · rename_i noneStuck
            rw [noneStuck] at layers
            cases built
            exact ⟨rfl, distinct, known, layers⟩
          · cases built

end Graph

end PipelineWaves
