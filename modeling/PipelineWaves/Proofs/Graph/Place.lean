import Mathlib.Data.List.Chain
import Mathlib.Order.Bounds.Basic
import PipelineWaves.Proofs.Graph.Dependency

/-!
# Places in a plan

Where a step of a built graph stands. Its wave comes after the waves of all its
dependencies and directly after one of them, so the index of the wave is the
length of the longest chain of dependencies that starts at the step.
-/

set_option autoImplicit false

namespace PipelineWaves

namespace Graph.Plans

variable {graph : Graph} {pipeline : Pipeline}

theorem node_ids_eq (plans : graph.Plans pipeline) :
    nodeIds graph.nodes = pipeline.stepIds := by
  rw [plans.nodes, node_ids_of_steps]
  rfl

theorem plan_nodes_perm (plans : graph.Plans pipeline) :
    graph.waves.flatten.Perm graph.nodes := by
  simpa using layers_perm plans.layers

theorem plan_ids_eq_node_ids (graph : Graph) :
    graph.planIds = nodeIds graph.waves.flatten := by
  rw [planIds, waveIds, nodeIds, List.map_flatten]

theorem plan_ids_perm (plans : graph.Plans pipeline) :
    graph.planIds.Perm pipeline.stepIds := by
  rw [plan_ids_eq_node_ids, ← plans.node_ids_eq]
  exact node_ids_perm plans.plan_nodes_perm

theorem plan_ids_nodup (plans : graph.Plans pipeline) : graph.planIds.Nodup :=
  plans.plan_ids_perm.nodup_iff.2 plans.distinct

theorem mem_plan_ids (plans : graph.Plans pipeline) {id : String} :
    id ∈ graph.planIds ↔ id ∈ pipeline.stepIds :=
  plans.plan_ids_perm.mem_iff

theorem wave_ids_ne_nil (plans : graph.Plans pipeline) :
    ∀ wave ∈ graph.waveIds, wave ≠ [] := by
  intro wave member
  obtain ⟨nodes, present, same⟩ := List.mem_map.1 member
  subst same
  simpa using layers_wave_ne_nil plans.layers nodes present

theorem wave_ids_sublist (plans : graph.Plans pipeline) :
    ∀ wave ∈ graph.waveIds, wave.Sublist pipeline.stepIds := by
  intro wave member
  obtain ⟨nodes, present, same⟩ := List.mem_map.1 member
  rw [← same, ← plans.node_ids_eq]
  exact (layers_wave_sublist plans.layers nodes present).map GraphNode.id

theorem node_of_step_mem (plans : graph.Plans pipeline) {step : Step}
    (member : step ∈ pipeline.steps) : nodeOf step ∈ graph.nodes := by
  rw [plans.nodes]
  exact List.mem_map_of_mem member

theorem step_of_node (plans : graph.Plans pipeline) {node : GraphNode}
    (member : node ∈ graph.waves.flatten) : ∃ step ∈ pipeline.steps, nodeOf step = node := by
  have present := plans.plan_nodes_perm.mem_iff.1 member
  rw [plans.nodes] at present
  exact List.mem_map.1 present

/-- Every step stands in some wave, with the waves before and after it. -/
theorem exists_wave (plans : graph.Plans pipeline) {step : Step}
    (member : step ∈ pipeline.steps) :
    ∃ before wave after, graph.waves = before ++ wave :: after ∧ nodeOf step ∈ wave := by
  have placed := plans.plan_nodes_perm.mem_iff.2 (plans.node_of_step_mem member)
  obtain ⟨wave, present, inside⟩ := List.mem_flatten.1 placed
  obtain ⟨before, after, split⟩ := List.append_of_mem present
  exact ⟨before, wave, after, split, inside⟩

theorem wave_of_eq (plans : graph.Plans pipeline) {before after : List (List GraphNode)}
    {wave : List GraphNode} {node : GraphNode} (split : graph.waves = before ++ wave :: after)
    (member : node ∈ wave) : graph.waveOf node.id = some before.length := by
  have notBefore : ∀ earlier ∈ before.map nodeIds, node.id ∉ earlier := by
    intro earlier present inside
    have distinct := plans.plan_ids_nodup
    rw [plan_ids_eq_node_ids, split, List.flatten_append, node_ids_append] at distinct
    obtain ⟨nodes, nodesPresent, same⟩ := List.mem_map.1 present
    have left : node.id ∈ nodeIds before.flatten := by
      rw [← same] at inside
      obtain ⟨other, otherMember, otherId⟩ := List.mem_map.1 inside
      rw [← otherId]
      exact mem_node_ids (List.mem_flatten.2 ⟨nodes, nodesPresent, otherMember⟩)
    have right : node.id ∈ nodeIds (wave :: after).flatten :=
      mem_node_ids (List.mem_flatten.2 ⟨wave, by simp, member⟩)
    exact (List.nodup_append.1 distinct).2.2 _ left _ right rfl
  have here : node.id ∈ nodeIds wave := mem_node_ids member
  have ids : graph.waveIds = before.map nodeIds ++ nodeIds wave :: after.map nodeIds := by
    rw [waveIds, split, List.map_append, List.map_cons]
    rfl
  have noneBefore :
      (before.map nodeIds).findIdx? (fun earlier => earlier.contains node.id) = none := by
    rw [List.findIdx?_eq_none_iff]
    intro earlier present
    simpa using notBefore earlier present
  rw [waveOf, ids, List.findIdx?_append, noneBefore, List.findIdx?_cons]
  simp [here]

theorem wave_of_id_eq (plans : graph.Plans pipeline) {before after : List (List GraphNode)}
    {wave : List GraphNode} {id : String} (split : graph.waves = before ++ wave :: after)
    (member : id ∈ nodeIds wave) : graph.waveOf id = some before.length := by
  obtain ⟨node, inside, same⟩ := List.mem_map.1 member
  exact same ▸ plans.wave_of_eq split inside

theorem wave_of_wave_ids (plans : graph.Plans pipeline) {before after : List (List String)}
    {wave : List String} {id : String} (split : graph.waveIds = before ++ wave :: after)
    (member : id ∈ wave) : graph.waveOf id = some before.length := by
  obtain ⟨earlier, rest, splitWaves, rfl, ids⟩ := List.map_eq_append_iff.1 split
  obtain ⟨nodes, later, rfl, rfl, rfl⟩ := List.map_eq_cons_iff.1 ids
  rw [List.length_map]
  exact plans.wave_of_id_eq splitWaves member

theorem wave_of_step (plans : graph.Plans pipeline) {step : Step}
    (member : step ∈ pipeline.steps) : ∃ index, graph.waveOf step.id = some index := by
  obtain ⟨before, wave, after, split, inside⟩ := plans.exists_wave member
  exact ⟨before.length, plans.wave_of_eq split inside⟩

theorem wave_of_declared (plans : graph.Plans pipeline) {id : String}
    (declared : id ∈ pipeline.stepIds) : ∃ index, graph.waveOf id = some index := by
  obtain ⟨step, member, same⟩ := List.mem_map.1 declared
  exact same ▸ plans.wave_of_step member

theorem wave_of_earlier (plans : graph.Plans pipeline) {before after : List (List GraphNode)}
    {wave : List GraphNode} {id : String} (split : graph.waves = before ++ wave :: after)
    (member : id ∈ nodeIds before.flatten) :
    ∃ index < before.length, graph.waveOf id = some index := by
  obtain ⟨node, present, same⟩ := List.mem_map.1 member
  obtain ⟨earlier, earlierPresent, inside⟩ := List.mem_flatten.1 present
  obtain ⟨first, rest, splitBefore⟩ := List.append_of_mem earlierPresent
  have splitEarlier : graph.waves = first ++ earlier :: (rest ++ wave :: after) := by
    rw [split, splitBefore, List.append_assoc, List.cons_append]
  refine ⟨first.length, ?_, same ▸ plans.wave_of_eq splitEarlier inside⟩
  simp [splitBefore]

theorem wave_of_undeclared (plans : graph.Plans pipeline) {id : String}
    (undeclared : id ∉ pipeline.stepIds) : graph.waveOf id = none := by
  rw [← plans.mem_plan_ids, planIds, List.mem_flatten] at undeclared
  rw [waveOf, List.findIdx?_eq_none_iff]
  intro wave present
  simpa using fun inside => undeclared ⟨wave, present, inside⟩

theorem declared_of_wave (plans : graph.Plans pipeline) {id : String} {index : Nat}
    (place : graph.waveOf id = some index) : id ∈ pipeline.stepIds := by
  by_contra undeclared
  rw [plans.wave_of_undeclared undeclared] at place
  cases place

theorem wave_at_place {id : String} {place : Nat}
    (placed : graph.waveOf id = some place) :
    ∃ below : place < graph.waves.length, id ∈ nodeIds graph.waves[place] := by
  obtain ⟨below, holds, _⟩ := List.findIdx?_eq_some_iff_getElem.1 placed
  rw [waveIds, List.length_map] at below
  exact ⟨below, by simpa [waveIds, nodeIds] using holds⟩

theorem mem_first_waves_of_place {id : String} {place count : Nat}
    (placed : graph.waveOf id = some place) (below : place < count) :
    id ∈ nodeIds (graph.waves.take count).flatten := by
  obtain ⟨inside, member⟩ := wave_at_place placed
  rw [nodeIds, List.map_flatten, List.mem_flatten]
  refine ⟨_, List.mem_map_of_mem ?_, member⟩
  exact List.mem_take_iff_getElem.2 ⟨place, by omega, rfl⟩

theorem mem_last_waves_of_place {id : String} {place count : Nat}
    (placed : graph.waveOf id = some place) (notBelow : count ≤ place) :
    id ∈ nodeIds (graph.waves.drop count).flatten := by
  obtain ⟨inside, member⟩ := wave_at_place placed
  rw [nodeIds, List.map_flatten, List.mem_flatten]
  refine ⟨_, List.mem_map_of_mem ?_, member⟩
  exact List.mem_drop_iff_getElem.2 ⟨place - count, by omega, by congr; omega⟩

theorem wave_of_dependency_lt (plans : graph.Plans pipeline) {step : Step} {index : Nat}
    (member : step ∈ pipeline.steps) (place : graph.waveOf step.id = some index) :
    ∀ dependency ∈ step.dependsOn, ∃ earlier < index, graph.waveOf dependency = some earlier := by
  intro dependency listed
  obtain ⟨before, wave, after, split, inside⟩ := plans.exists_wave member
  have same : before.length = index :=
    Option.some.inj ((plans.wave_of_eq split inside).symm.trans place)
  have present := layers_dependency_before plans.layers split inside dependency
    (mem_node_dependencies.2 listed)
  rw [List.nil_append] at present
  exact same ▸ plans.wave_of_earlier split present

/-- A step that is not in the first wave has a dependency in the wave before its own. -/
theorem exists_dependency_in_previous (plans : graph.Plans pipeline) {step : Step} {index : Nat}
    (member : step ∈ pipeline.steps) (place : graph.waveOf step.id = some (index + 1)) :
    ∃ dependency ∈ step.dependsOn, graph.waveOf dependency = some index := by
  obtain ⟨before, wave, after, split, inside⟩ := plans.exists_wave member
  have length : before.length = index + 1 :=
    Option.some.inj ((plans.wave_of_eq split inside).symm.trans place)
  have nonempty : before ≠ [] := by
    intro empty
    simp [empty] at length
  have splitPrevious :
      graph.waves = before.dropLast ++ before.getLast nonempty :: wave :: after := by
    rw [split]
    conv_lhs => rw [← List.dropLast_append_getLast nonempty]
    rw [List.append_assoc]
    rfl
  obtain ⟨dependency, listed, present⟩ :=
    layers_dependency_in_previous plans.layers splitPrevious inside
  obtain ⟨node, nodePresent, same⟩ := List.mem_map.1 present
  refine ⟨dependency, mem_node_dependencies.1 listed, ?_⟩
  have placeOfNode := plans.wave_of_eq splitPrevious nodePresent
  rw [← same, placeOfNode, List.length_dropLast, length, Nat.add_sub_cancel]

theorem wave_of_eq_zero_iff (plans : graph.Plans pipeline) {step : Step} {index : Nat}
    (member : step ∈ pipeline.steps) (place : graph.waveOf step.id = some index) :
    index = 0 ↔ step.dependsOn = [] := by
  constructor
  · intro zero
    rw [List.eq_nil_iff_forall_not_mem]
    intro dependency listed
    obtain ⟨earlier, below, _⟩ := plans.wave_of_dependency_lt member place dependency listed
    omega
  · intro noDependencies
    cases index with
    | zero => rfl
    | succ previous =>
        obtain ⟨dependency, listed, _⟩ := plans.exists_dependency_in_previous member place
        simp [noDependencies] at listed

theorem wave_of_greatest_dependency (plans : graph.Plans pipeline) {step : Step} {index : Nat}
    (member : step ∈ pipeline.steps) (place : graph.waveOf step.id = some (index + 1)) :
    IsGreatest {wave | ∃ dependency ∈ step.dependsOn, graph.waveOf dependency = some wave}
      index := by
  refine ⟨plans.exists_dependency_in_previous member place, ?_⟩
  rintro wave ⟨dependency, listed, placed⟩
  obtain ⟨earlier, below, earlierPlace⟩ :=
    plans.wave_of_dependency_lt member place dependency listed
  have same : wave = earlier := Option.some.inj (placed.symm.trans earlierPlace)
  omega

theorem wave_of_lt_of_depends (plans : graph.Plans pipeline) {id dependency : String}
    {index : Nat} (depends : pipeline.DependsOn id dependency)
    (place : graph.waveOf id = some index) :
    ∃ earlier < index, graph.waveOf dependency = some earlier := by
  obtain ⟨step, member, same, listed⟩ := depends
  exact plans.wave_of_dependency_lt member (same ▸ place) dependency listed

theorem wave_of_lt_of_ancestor (plans : graph.Plans pipeline) {ancestor id : String}
    {index : Nat} (reaches : pipeline.IsAncestor ancestor id)
    (place : graph.waveOf id = some index) :
    ∃ earlier < index, graph.waveOf ancestor = some earlier := by
  induction reaches with
  | single depends => exact plans.wave_of_lt_of_depends depends place
  | tail _ depends induction =>
      obtain ⟨middle, middleBelow, middlePlace⟩ := induction
      obtain ⟨earlier, below, earlierPlace⟩ := plans.wave_of_lt_of_depends depends middlePlace
      exact ⟨earlier, by omega, earlierPlace⟩

theorem wave_of_ne_of_ancestor (plans : graph.Plans pipeline) {ancestor id : String}
    (reaches : pipeline.IsAncestor ancestor id) : graph.waveOf ancestor ≠ graph.waveOf id := by
  intro same
  obtain ⟨index, place⟩ := plans.wave_of_declared (Pipeline.descendant_declared reaches)
  obtain ⟨earlier, below, earlierPlace⟩ := plans.wave_of_lt_of_ancestor reaches place
  rw [same, place] at earlierPlace
  have sameIndex := Option.some.inj earlierPlace
  omega

theorem acyclic (plans : graph.Plans pipeline) : pipeline.IsAcyclic :=
  fun _ reaches => plans.wave_of_ne_of_ancestor reaches rfl

end Graph.Plans

/-- A chain of `length` dependencies that starts at the step `id`. -/
def Pipeline.HasChain (pipeline : Pipeline) (id : String) (length : Nat) : Prop :=
  ∃ chain : List String,
    (id :: chain).IsChain pipeline.DependsOn ∧ chain.length = length

namespace Graph.Plans

variable {graph : Graph} {pipeline : Pipeline}

theorem chain_length_le (plans : graph.Plans pipeline) {chain : List String} {id : String}
    {index : Nat} (linked : (id :: chain).IsChain pipeline.DependsOn)
    (place : graph.waveOf id = some index) : chain.length ≤ index := by
  induction chain generalizing id index with
  | nil => simp
  | cons next rest induction =>
      obtain ⟨depends, restLinked⟩ := List.isChain_cons_cons.1 linked
      obtain ⟨earlier, below, earlierPlace⟩ := plans.wave_of_lt_of_depends depends place
      have restBound := induction restLinked earlierPlace
      simp only [List.length_cons]
      omega

theorem exists_chain (plans : graph.Plans pipeline) {id : String} {index : Nat}
    (declared : id ∈ pipeline.stepIds) (place : graph.waveOf id = some index) :
    pipeline.HasChain id index := by
  induction index generalizing id with
  | zero => exact ⟨[], List.isChain_singleton id, rfl⟩
  | succ index induction =>
      obtain ⟨step, member, same⟩ := List.mem_map.1 declared
      subst same
      obtain ⟨dependency, listed, previous⟩ := plans.exists_dependency_in_previous member place
      obtain ⟨chain, linked, length⟩ :=
        induction (plans.known step member dependency listed) previous
      refine ⟨dependency :: chain, ?_, by simp [length]⟩
      exact List.isChain_cons_cons.2 ⟨⟨step, member, rfl, listed⟩, linked⟩

theorem wave_of_longest_chain (plans : graph.Plans pipeline) {step : Step} {index : Nat}
    (member : step ∈ pipeline.steps) (place : graph.waveOf step.id = some index) :
    IsGreatest {length | pipeline.HasChain step.id length} index := by
  refine ⟨plans.exists_chain (List.mem_map_of_mem member) place, ?_⟩
  rintro length ⟨chain, linked, same⟩
  exact same ▸ plans.chain_length_le linked place

end Graph.Plans

end PipelineWaves
