import PipelineWaves.Proofs.Graph.Place

/-!
# Cycles

What the steps that can never be placed are good for. Each of them depends on
another one of them, so a walk along those dependencies repeats a step before it
has made more moves than there are steps, and the part between the two visits is
a cycle of the pipeline. The walk keeps one invariant, `Walked`.
-/

set_option autoImplicit false

namespace PipelineWaves

/-- A closed chain of dependencies through distinct steps, its first id repeated at the end. -/
structure Pipeline.IsCycle (pipeline : Pipeline) (cycle : List String) : Prop where
  two_le_length : 2 ≤ cycle.length
  closed : cycle.head? = cycle.getLast?
  distinct : cycle.dropLast.Nodup
  linked : cycle.IsChain pipeline.DependsOn

theorem Pipeline.not_acyclic_of_cycle {pipeline : Pipeline} {cycle : List String}
    (isCycle : pipeline.IsCycle cycle) : ¬pipeline.IsAcyclic := by
  intro acyclic
  match cycle, isCycle with
  | [], isCycle => simpa using isCycle.two_le_length
  | [id], isCycle => simpa using isCycle.two_le_length
  | id :: next :: rest, isCycle =>
      obtain ⟨depends, linked⟩ := List.isChain_cons_cons.1 isCycle.linked
      have closed := isCycle.closed
      rw [List.head?_cons, List.getLast?_cons_cons,
        List.getLast?_eq_some_getLast (by simp)] at closed
      have last : (next :: rest).getLast (by simp) = id := (Option.some.inj closed).symm
      have returns := List.relationReflTransGen_of_exists_isChain_cons rest linked last
      exact acyclic id (Relation.TransGen.head' depends returns)

theorem cycle_of_repeated {pipeline : Pipeline} {visited : List String} {current : String}
    (repeated : current ∈ visited) (distinct : visited.Nodup)
    (linked : (visited ++ [current]).IsChain pipeline.DependsOn) :
    pipeline.IsCycle ((visited.dropWhile fun earlier => earlier ≠ current) ++ [current]) := by
  obtain ⟨before, after, split, notBefore⟩ := List.eq_append_cons_of_mem repeated
  have dropped : (visited.dropWhile fun earlier => earlier ≠ current) = current :: after := by
    rw [split, List.dropWhile_append_of_pos]
    · simp
    · intro earlier member
      simpa using fun same : earlier = current => notBefore (same ▸ member)
  rw [dropped]
  rw [split] at distinct linked
  refine ⟨by simp, by rw [List.getLast?_concat]; rfl, ?_, ?_⟩
  · rw [List.dropLast_concat]
    exact (List.nodup_append.1 distinct).2.1
  · rw [List.append_assoc] at linked
    exact linked.right_of_append

/-- Every id of `nodes` leads on to another one of them. -/
def LeadsOn (pipeline : Pipeline) (nodes : List GraphNode) : Prop :=
  ∀ id ∈ nodeIds nodes, ∃ next ∈ nodeIds nodes,
    nextAmong nodes id = some next ∧ pipeline.DependsOn id next

/-- A walk among `nodes` that has not closed yet: `path` holds the visits before
`current`, the latest first. -/
structure Walked (pipeline : Pipeline) (nodes : List GraphNode) (path : List String)
    (current : String) : Prop where
  inside : ∀ id ∈ current :: path, id ∈ nodeIds nodes
  distinct : path.Nodup
  linked : (path.reverse ++ [current]).IsChain pipeline.DependsOn

theorem walked_length_le {pipeline : Pipeline} {nodes : List GraphNode} {path : List String}
    {current : String} (walked : Walked pipeline nodes path current) :
    path.length ≤ nodes.length := by
  have included : path ⊆ nodeIds nodes := by
    intro id member
    exact walked.inside id (List.mem_cons_of_mem current member)
  have bounded := (List.subperm_of_subset walked.distinct included).length_le
  simpa [nodeIds] using bounded

theorem walked_step {pipeline : Pipeline} {nodes : List GraphNode} {path : List String}
    {current next : String} (walked : Walked pipeline nodes path current)
    (fresh : current ∉ path) (nextInside : next ∈ nodeIds nodes)
    (depends : pipeline.DependsOn current next) :
    Walked pipeline nodes (current :: path) next where
  inside := by
    intro id member
    rcases List.mem_cons.1 member with same | earlier
    · exact same ▸ nextInside
    · exact walked.inside id earlier
  distinct := List.nodup_cons.2 ⟨fresh, walked.distinct⟩
  linked := by
    rw [List.reverse_cons, List.append_assoc, List.singleton_append,
      List.isChain_append_cons_cons]
    exact ⟨walked.linked, depends, List.isChain_singleton next⟩

theorem walk_among_is_cycle {pipeline : Pipeline} {nodes : List GraphNode} {fuel : Nat}
    {path : List String} {current : String} (leadsOn : LeadsOn pipeline nodes)
    (walked : Walked pipeline nodes path current) (enough : nodes.length < fuel + path.length) :
    pipeline.IsCycle (walkAmong nodes fuel path current) := by
  induction fuel generalizing path current with
  | zero =>
      -- A path through distinct nodes is no longer than their number, so fuel cannot run out.
      have bounded := walked_length_le walked
      omega
  | succ fuel induction =>
      rw [walkAmong]
      by_cases repeated : current ∈ path
      · rw [if_pos (by simpa using repeated)]
        exact cycle_of_repeated (List.mem_reverse.2 repeated)
          (List.nodup_reverse.2 walked.distinct) walked.linked
      · rw [if_neg (by simpa using repeated)]
        obtain ⟨next, nextInside, found, depends⟩ :=
          leadsOn current (walked.inside current List.mem_cons_self)
        rw [found]
        refine induction (walked_step walked repeated nextInside depends) ?_
        rw [List.length_cons]
        omega

theorem cycle_among_is_cycle {pipeline : Pipeline} {nodes : List GraphNode}
    (leadsOn : LeadsOn pipeline nodes) (nonempty : nodes ≠ []) :
    pipeline.IsCycle (cycleAmong nodes) := by
  cases nodes with
  | nil => exact absurd rfl nonempty
  | cons first rest =>
      apply walk_among_is_cycle leadsOn
      · refine ⟨?_, List.nodup_nil, List.isChain_singleton _⟩
        intro id member
        rw [List.mem_singleton.1 member]
        exact mem_node_ids List.mem_cons_self
      · simp

theorem next_among_of_dependency {nodes : List GraphNode} {id : String}
    (present : id ∈ nodeIds nodes)
    (hasNext : ∀ node ∈ nodes, ∃ dependency ∈ node.dependencies, dependency ∈ nodeIds nodes) :
    ∃ next ∈ nodeIds nodes, nextAmong nodes id = some next ∧
      ∃ node ∈ nodes, node.id = id ∧ next ∈ node.dependencies := by
  obtain ⟨witness, witnessMember, witnessId⟩ := List.mem_map.1 present
  have someNode : (nodes.find? fun node => node.id = id).isSome := by
    rw [List.find?_isSome]
    exact ⟨witness, witnessMember, by simpa using witnessId⟩
  obtain ⟨node, foundNode⟩ := Option.isSome_iff_exists.1 someNode
  have member := List.mem_of_find?_eq_some foundNode
  have sameId : node.id = id := by simpa using List.find?_some foundNode
  obtain ⟨dependency, listed, inside⟩ := hasNext node member
  have someNext : (node.dependencies.find? fun dependency =>
      nodes.any fun other => other.id = dependency).isSome := by
    rw [List.find?_isSome]
    refine ⟨dependency, listed, ?_⟩
    simpa [nodeIds] using inside
  obtain ⟨next, foundNext⟩ := Option.isSome_iff_exists.1 someNext
  refine ⟨next, ?_, ?_, node, member, sameId, List.mem_of_find?_eq_some foundNext⟩
  · simpa [nodeIds] using List.find?_some foundNext
  · rw [nextAmong, foundNode]
    exact foundNext

namespace Graph

theorem stuck_has_stuck_dependency {pipeline : Pipeline} (distinct : pipeline.HasDistinctIds)
    (known : pipeline.KnowsDependencies) :
    ∀ node ∈ stuckNodes pipeline, ∃ dependency ∈ node.dependencies,
      dependency ∈ nodeIds (stuckNodes pipeline) := by
  intro node member
  have layers := placement_layers distinct
  obtain ⟨dependency, listed, missing⟩ := layers_stuck_missing layers node member
  refine ⟨dependency, listed, ?_⟩
  have permuted := node_ids_perm (layers_perm layers)
  rw [node_ids_append, node_ids_of_steps] at permuted
  have present : node ∈ pipeline.steps.map nodeOf :=
    (layers_perm layers).mem_iff.1 (List.mem_append_right _ member)
  obtain ⟨step, stepMember, same⟩ := List.mem_map.1 present
  subst same
  have declared := known step stepMember dependency (mem_node_dependencies.1 listed)
  rcases List.mem_append.1 (permuted.mem_iff.2 declared) with placed | stuck
  · exact absurd placed (by simpa using missing)
  · exact stuck

theorem stuck_leads_on {pipeline : Pipeline} (distinct : pipeline.HasDistinctIds)
    (known : pipeline.KnowsDependencies) : LeadsOn pipeline (stuckNodes pipeline) := by
  intro id present
  obtain ⟨next, inside, found, node, member, sameId, listed⟩ :=
    next_among_of_dependency present (stuck_has_stuck_dependency distinct known)
  refine ⟨next, inside, found, ?_⟩
  have placed : node ∈ pipeline.steps.map nodeOf :=
    (layers_perm (placement_layers distinct)).mem_iff.1 (List.mem_append_right _ member)
  obtain ⟨step, stepMember, same⟩ := List.mem_map.1 placed
  subst same
  exact ⟨step, stepMember, sameId, mem_node_dependencies.1 listed⟩

end Graph

end PipelineWaves
