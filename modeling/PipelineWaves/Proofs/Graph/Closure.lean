import Mathlib
import PipelineWaves.Proofs.Graph.Ancestor
import PipelineWaves.Proofs.Graph.Plan

/-!
# Dependents

What a built graph answers about the steps around a step. Its neighbours are the steps that
its pipeline lists, seen from either side, and the transitive dependents are their closure.
As no step reaches itself, being an ancestor is a strict order, and the waves respect it.
-/

set_option autoImplicit false

namespace PipelineWaves

namespace Graph

namespace Plans

variable {graph : Graph} {pipeline : Pipeline}

theorem node?_of_step (plans : graph.Plans pipeline) {step : Step}
    (member : step ∈ pipeline.steps) :
    graph.nodes.find? (fun node => node.id = step.id) = some (nodeOf step) := by
  have found := Pipeline.step?_of_mem plans.distinct member
  rw [plans.nodes, List.find?_map]
  exact congrArg (Option.map nodeOf) found

theorem node?_of_undeclared (plans : graph.Plans pipeline) {id : String}
    (undeclared : id ∉ pipeline.stepIds) :
    graph.nodes.find? (fun node => node.id = id) = none := by
  rw [← plans.node_ids_eq] at undeclared
  rw [List.find?_eq_none]
  intro node present
  simpa using fun same : node.id = id => undeclared (same ▸ mem_node_ids present)

theorem dependency_declared (plans : graph.Plans pipeline) {id dependency : String}
    (depends : pipeline.DependsOn id dependency) : dependency ∈ pipeline.stepIds := by
  obtain ⟨step, member, _, listed⟩ := depends
  exact plans.known step member dependency listed

theorem mem_dependencies_of_iff (plans : graph.Plans pipeline) {id dependency : String} :
    dependency ∈ graph.dependenciesOf id ↔ pipeline.DependsOn id dependency := by
  rw [dependenciesOf]
  by_cases declared : id ∈ pipeline.stepIds
  · obtain ⟨step, member, rfl⟩ := List.mem_map.1 declared
    have planned := plans.plan_nodes_perm.mem_iff.2 (plans.node_of_step_mem member)
    rw [plans.node?_of_step member]
    exact (plans.depends_on_node planned).symm
  · rw [plans.node?_of_undeclared declared]
    exact iff_of_false List.not_mem_nil fun depends =>
      declared (Pipeline.depends_on_declared depends)

theorem mem_dependents_of_iff (plans : graph.Plans pipeline) {id dependency : String} :
    id ∈ graph.dependentsOf dependency ↔ pipeline.DependsOn id dependency := by
  rw [dependentsOf, List.mem_map]
  constructor
  · rintro ⟨node, member, rfl⟩
    obtain ⟨present, lists⟩ := List.mem_filter.1 member
    have planned := plans.plan_nodes_perm.mem_iff.2 present
    exact (plans.depends_on_node planned).2 (by simpa using lists)
  · rintro ⟨step, member, rfl, listed⟩
    refine ⟨nodeOf step, List.mem_filter.2 ⟨plans.node_of_step_mem member, ?_⟩, rfl⟩
    simpa using mem_node_dependencies.2 listed

theorem ancestor_declared (plans : graph.Plans pipeline) {ancestor id : String}
    (reaches : pipeline.IsAncestor ancestor id) : ancestor ∈ pipeline.stepIds := by
  obtain ⟨last, _, depends⟩ := Relation.TransGen.tail'_iff.1 reaches
  exact plans.dependency_declared depends

theorem mem_transitive_dependents_iff (plans : graph.Plans pipeline) {id other : String} :
    other ∈ graph.transitiveDependents id ↔ pipeline.IsAncestor id other := by
  rw [← plans.is_ancestor_iff, isAncestor, List.contains_iff_mem]

theorem is_ancestor_iff_dependencies (plans : graph.Plans pipeline) {ancestor id : String} :
    graph.isAncestor ancestor id = true ↔
      Relation.TransGen (fun near far => far ∈ graph.dependenciesOf near) id ancestor := by
  have sameEdges : (fun near far => far ∈ graph.dependenciesOf near) = pipeline.DependsOn := by
    funext near far
    exact propext plans.mem_dependencies_of_iff
  rw [plans.is_ancestor_iff, sameEdges, Pipeline.IsAncestor]

theorem is_ancestor_iff_dependents (plans : graph.Plans pipeline) {ancestor id : String} :
    graph.isAncestor ancestor id = true ↔
      Relation.TransGen (fun near far => far ∈ graph.dependentsOf near) ancestor id := by
  have sameEdges : (fun near far => far ∈ graph.dependentsOf near) =
      Function.swap pipeline.DependsOn := by
    funext near far
    exact propext plans.mem_dependents_of_iff
  rw [plans.is_ancestor_iff, sameEdges, Relation.transGen_swap, Pipeline.IsAncestor]

end Plans

/-- The answer to a question for the transitive dependents of `id`. -/
structure ListsDependents (graph : Graph) (pipeline : Pipeline) (id : String) : Prop where
  in_declared_order : (graph.transitiveDependents id).Sublist pipeline.stepIds
  once : (graph.transitiveDependents id).Nodup
  reaching : ∀ other, other ∈ graph.transitiveDependents id ↔ pipeline.IsAncestor id other
  undeclared : id ∉ pipeline.stepIds → graph.transitiveDependents id = []
  not_itself : id ∉ graph.transitiveDependents id

theorem Plans.lists_dependents {graph : Graph} {pipeline : Pipeline}
    (plans : graph.Plans pipeline) (id : String) : graph.ListsDependents pipeline id := by
  have inOrder : (graph.transitiveDependents id).Sublist pipeline.stepIds := by
    rw [← plans.node_ids_eq]
    exact List.filter_sublist
  refine ⟨inOrder, plans.distinct.sublist inOrder, ?_, ?_, ?_⟩
  · exact fun other => plans.mem_transitive_dependents_iff
  · intro undeclared
    rw [List.eq_nil_iff_forall_not_mem]
    exact fun other member =>
      undeclared (plans.ancestor_declared (plans.mem_transitive_dependents_iff.1 member))
  · exact fun member => plans.acyclic id (plans.mem_transitive_dependents_iff.1 member)

theorem Plans.ancestors_ordered {graph : Graph} {pipeline : Pipeline}
    (plans : graph.Plans pipeline) :
    IsStrictOrder String fun ancestor id => graph.isAncestor ancestor id = true where
  irrefl id := by
    rw [plans.is_ancestor_iff]
    exact plans.acyclic id
  trans first middle last := by
    simp only [plans.is_ancestor_iff]
    exact fun below above => Relation.TransGen.trans above below

theorem Plans.ancestor_in_earlier_wave {graph : Graph} {pipeline : Pipeline}
    (plans : graph.Plans pipeline) {ancestor id : String}
    (isAncestor : graph.isAncestor ancestor id = true) :
    ∃ earlier later, graph.waveOf ancestor = some earlier ∧ graph.waveOf id = some later ∧
      earlier < later := by
  have reaches := plans.is_ancestor_iff.1 isAncestor
  obtain ⟨later, place⟩ := plans.wave_of_declared (Pipeline.descendant_declared reaches)
  obtain ⟨earlier, below, earlierPlace⟩ := plans.wave_of_lt_of_ancestor reaches place
  exact ⟨earlier, later, earlierPlace, place, below⟩

end Graph

end PipelineWaves
