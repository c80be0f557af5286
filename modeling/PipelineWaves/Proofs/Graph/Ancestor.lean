import PipelineWaves.Proofs.Graph.Place

/-!
# Ancestors

The nodes reached from a step in one pass over the plan are exactly the steps
that depend on it, directly or not. One pass is enough because the plan lists
every dependency before the nodes that have it.
-/

set_option autoImplicit false

namespace PipelineWaves

/-- Every node comes after `placed` and the nodes that it depends on. -/
def OrderedAfter : List String → List GraphNode → Prop
  | _, [] => True
  | placed, node :: rest =>
      (∀ dependency ∈ node.dependencies, dependency ∈ placed) ∧
        OrderedAfter (placed ++ [node.id]) rest

theorem ordered_after_wave {placed : List String} {wave rest : List GraphNode}
    (free : ∀ node ∈ wave, ∀ dependency ∈ node.dependencies, dependency ∈ placed)
    (later : OrderedAfter (placed ++ nodeIds wave) rest) :
    OrderedAfter placed (wave ++ rest) := by
  induction wave generalizing placed with
  | nil => simpa using later
  | cons node wave induction =>
      refine ⟨free node List.mem_cons_self, induction ?_ ?_⟩
      · intro other member dependency listed
        have before := free other (List.mem_cons_of_mem node member) dependency listed
        exact List.mem_append_left _ before
      · rw [List.append_assoc]
        exact later

theorem layers_ordered {placed : List String} {waiting stuck : List GraphNode}
    {waves : List (List GraphNode)} (layers : Layers placed waiting waves stuck) :
    OrderedAfter placed waves.flatten := by
  induction layers with
  | finish noneFree => trivial
  | layer someFree later induction =>
      rw [List.flatten_cons]
      apply ordered_after_wave _ induction
      intro node member
      exact is_free_iff.1 (List.mem_filter.1 member).2

theorem take_while_distinct {Item : Type} (key : Item → String) {earlier later : List Item}
    {item : Item} (distinct : ((earlier ++ item :: later).map key).Nodup) :
    (earlier ++ item :: later).takeWhile (fun other => key other ≠ key item) = earlier := by
  rw [List.map_append, List.map_cons] at distinct
  rw [List.takeWhile_append_of_pos]
  · simp
  · intro other member
    simpa using (List.nodup_append.1 distinct).2.2 (key other) (List.mem_map_of_mem member)
      (key item) List.mem_cons_self

namespace Graph.Plans

variable {graph : Graph} {pipeline : Pipeline}

theorem depends_on_node (plans : graph.Plans pipeline) {node : GraphNode} {dependency : String}
    (member : node ∈ graph.waves.flatten) :
    pipeline.DependsOn node.id dependency ↔ dependency ∈ node.dependencies := by
  obtain ⟨step, stepMember, same⟩ := plans.step_of_node member
  subst same
  rw [mem_node_dependencies]
  constructor
  · rintro ⟨other, otherMember, sameId, listed⟩
    have sameStep := Pipeline.step_eq_of_id_eq plans.distinct otherMember stepMember sameId
    exact sameStep ▸ listed
  · intro listed
    exact ⟨step, stepMember, rfl, listed⟩

/-- What one visit decides, when the dependencies of the node were visited before. -/
theorem reaches_node_iff (plans : graph.Plans pipeline) {id : String} {node : GraphNode}
    {placed reached : List String} (member : node ∈ graph.waves.flatten)
    (before : ∀ dependency ∈ node.dependencies, dependency ∈ placed)
    (exact : ∀ visited, visited ∈ reached ↔ visited ∈ placed ∧ pipeline.IsAncestor id visited) :
    (∃ dependency ∈ node.dependencies, dependency = id ∨ dependency ∈ reached) ↔
      pipeline.IsAncestor id node.id := by
  constructor
  · rintro ⟨dependency, listed, same | visited⟩
    · exact Relation.TransGen.single (same ▸ (plans.depends_on_node member).2 listed)
    · exact Relation.TransGen.head ((plans.depends_on_node member).2 listed)
        ((exact dependency).1 visited).2
  · intro reaches
    obtain ⟨dependency, depends, onwards⟩ := Relation.TransGen.head'_iff.1 reaches
    have listed := (plans.depends_on_node member).1 depends
    refine ⟨dependency, listed, ?_⟩
    rcases Relation.reflTransGen_iff_eq_or_transGen.1 onwards with same | further
    · exact Or.inl same.symm
    · exact Or.inr ((exact dependency).2 ⟨before dependency listed, further⟩)

theorem mem_reach_fold (plans : graph.Plans pipeline) (id : String) {nodes : List GraphNode}
    {placed reached : List String} (inside : ∀ node ∈ nodes, node ∈ graph.waves.flatten)
    (ordered : OrderedAfter placed nodes)
    (exact : ∀ visited, visited ∈ reached ↔ visited ∈ placed ∧ pipeline.IsAncestor id visited) :
    ∀ visited, visited ∈ nodes.foldl (reachStep id) reached ↔
      visited ∈ placed ++ nodeIds nodes ∧ pipeline.IsAncestor id visited := by
  induction nodes generalizing placed reached with
  | nil => simpa using exact
  | cons node rest induction =>
      have decided := plans.reaches_node_iff (inside node List.mem_cons_self) ordered.1 exact
      have nextExact : ∀ visited, visited ∈ reachStep id reached node ↔
          visited ∈ placed ++ [node.id] ∧ pipeline.IsAncestor id visited := by
        intro visited
        rw [reachStep]
        by_cases reaches : pipeline.IsAncestor id node.id
        · rw [if_pos (by simpa using decided.2 reaches)]
          simp only [List.mem_cons, exact, List.mem_append, List.not_mem_nil, or_false]
          grind
        · rw [if_neg (by simpa using fun some => reaches (decided.1 some))]
          simp only [exact, List.mem_append, List.mem_cons, List.not_mem_nil, or_false]
          grind
      intro visited
      rw [List.foldl_cons, induction (fun other member => inside other
        (List.mem_cons_of_mem node member)) ordered.2 nextExact visited, List.append_assoc]
      rfl

theorem mem_reached_from (plans : graph.Plans pipeline) {id visited : String} :
    visited ∈ graph.reachedFrom id ↔ pipeline.IsAncestor id visited := by
  have noneReached : ∀ other, other ∈ ([] : List String) ↔
      other ∈ ([] : List String) ∧ pipeline.IsAncestor id other := by simp
  have fold := plans.mem_reach_fold id (fun _ member => member) (layers_ordered plans.layers)
    noneReached visited
  rw [reachedFrom, fold, List.nil_append, ← plan_ids_eq_node_ids, plans.mem_plan_ids]
  constructor
  · exact fun both => both.2
  · exact fun reaches => ⟨Pipeline.descendant_declared reaches, reaches⟩

theorem is_ancestor_iff (plans : graph.Plans pipeline) {ancestor id : String} :
    graph.isAncestor ancestor id = true ↔ pipeline.IsAncestor ancestor id := by
  have ids : graph.stepIds = pipeline.stepIds := plans.node_ids_eq
  rw [isAncestor, transitiveDependents]
  simp only [List.contains_eq_mem, decide_eq_true_eq, List.mem_filter, plans.mem_reached_from, ids]
  constructor
  · exact fun both => both.2
  · exact fun reaches => ⟨Pipeline.descendant_declared reaches, reaches⟩

theorem dependency_in_first_waves (plans : graph.Plans pipeline)
    {first rest : List (List GraphNode)} {id dependency : String}
    (split : graph.waves = first ++ rest) (member : id ∈ nodeIds first.flatten)
    (depends : pipeline.DependsOn id dependency) : dependency ∈ nodeIds first.flatten := by
  obtain ⟨node, inside, same⟩ := List.mem_map.1 member
  obtain ⟨wave, present, nodeMember⟩ := List.mem_flatten.1 inside
  obtain ⟨before, after, splitFirst⟩ := List.append_of_mem present
  have splitWave : graph.waves = before ++ wave :: (after ++ rest) := by
    rw [split, splitFirst, List.append_assoc, List.cons_append]
  have planned : node ∈ graph.waves.flatten :=
    List.mem_flatten.2 ⟨wave, by simp [splitWave], nodeMember⟩
  have listed := (plans.depends_on_node planned).1 (same ▸ depends)
  have earlier := layers_dependency_before plans.layers splitWave nodeMember dependency listed
  rw [List.nil_append] at earlier
  rw [splitFirst, List.flatten_append, node_ids_append]
  exact List.mem_append_left _ earlier

/-- The first waves hold the ancestors of all their steps. -/
theorem ancestor_in_first_waves (plans : graph.Plans pipeline)
    {first rest : List (List GraphNode)} {id ancestor : String}
    (split : graph.waves = first ++ rest) (member : id ∈ nodeIds first.flatten)
    (reaches : pipeline.IsAncestor ancestor id) : ancestor ∈ nodeIds first.flatten := by
  induction reaches with
  | single depends => exact plans.dependency_in_first_waves split member depends
  | tail _ depends induction => exact plans.dependency_in_first_waves split induction depends

theorem ancestor_before_wave (plans : graph.Plans pipeline)
    {before after : List (List GraphNode)} {wave : List GraphNode} {id ancestor : String}
    (split : graph.waves = before ++ wave :: after) (member : id ∈ nodeIds wave)
    (reaches : pipeline.IsAncestor ancestor id) : ancestor ∈ nodeIds before.flatten := by
  obtain ⟨node, inside, same⟩ := List.mem_map.1 member
  obtain ⟨dependency, depends, onwards⟩ := Relation.TransGen.head'_iff.1 reaches
  have planned : node ∈ graph.waves.flatten :=
    List.mem_flatten.2 ⟨wave, by simp [split], inside⟩
  have listed := (plans.depends_on_node planned).1 (same ▸ depends)
  have earlier := layers_dependency_before plans.layers split inside dependency listed
  rw [List.nil_append] at earlier
  rcases Relation.reflTransGen_iff_eq_or_transGen.1 onwards with sameId | further
  · exact sameId ▸ earlier
  · exact plans.ancestor_in_first_waves split earlier further

theorem plan_ids_split {first rest : List (List GraphNode)} (split : graph.waves = first ++ rest) :
    graph.planIds = nodeIds first.flatten ++ nodeIds rest.flatten := by
  rw [plan_ids_eq_node_ids, split, List.flatten_append, node_ids_append]

theorem first_waves_nodup (plans : graph.Plans pipeline) {first rest : List (List GraphNode)}
    (split : graph.waves = first ++ rest) : (nodeIds first.flatten).Nodup := by
  have distinct := plans.plan_ids_nodup
  rw [plan_ids_split split] at distinct
  exact (List.nodup_append.1 distinct).1

theorem take_while_split (plans : graph.Plans pipeline) {earlier later : List String} {id : String}
    (split : graph.planIds = earlier ++ id :: later) :
    graph.planIds.takeWhile (fun planned => planned ≠ id) = earlier := by
  have distinct := plans.plan_ids_nodup
  rw [split] at distinct ⊢
  exact take_while_distinct (fun planned => planned) (by rwa [List.map_id'])

/-- What the plan lists before a step of the first waves lies in the first waves. -/
theorem mem_first_waves_of_before (plans : graph.Plans pipeline)
    {first rest : List (List GraphNode)} {id other : String} (split : graph.waves = first ++ rest)
    (member : id ∈ nodeIds first.flatten)
    (before : other ∈ graph.planIds.takeWhile fun planned => planned ≠ id) :
    other ∈ nodeIds first.flatten := by
  obtain ⟨earlier, later, splitFirst⟩ := List.append_of_mem member
  have splitPlan : graph.planIds = earlier ++ id :: (later ++ nodeIds rest.flatten) := by
    rw [plan_ids_split split, splitFirst, List.append_assoc, List.cons_append]
  rw [plans.take_while_split splitPlan] at before
  rw [splitFirst]
  exact List.mem_append_left _ before

end Graph.Plans

end PipelineWaves
