import Mathlib.Data.Fintype.Card
import Mathlib.Data.List.Sort
import PipelineWaves.Proofs.Attempt
import PipelineWaves.Proofs.Graph.Closure
import PipelineWaves.Proofs.Graph.Links

/-!
# Searching for dependents

What a graph answers from its two stored lists. The neighbours of a step are the entries of
one of them. Its transitive dependents come from a search with a stack: each position that
is taken off puts those of its dependents on that are not marked yet. A position that is
marked and no longer on the stack has all its dependents marked, so an empty stack leaves
the marks closed. On a built graph the answers are those of `Graph`, in the same order.
-/

set_option autoImplicit false

namespace PipelineWaves

/-- The positions marked so far, and those whose dependents are still to be looked at. -/
structure ReachSearch (count : Nat) where
  reached : Fin count → Bool
  stack : List (Fin count)

namespace ReachSearch

variable {count : Nat}

def begin (start : Fin count) : ReachSearch count := ⟨fun _ => false, [start]⟩

def visit (search : ReachSearch count) (position : Fin count) : ReachSearch count :=
  if search.reached position then search
  else ⟨Function.update search.reached position true, position :: search.stack⟩

/-- How many positions may still be taken off the stack. -/
def work (search : ReachSearch count) : Nat :=
  (Finset.univ.filter fun position => search.reached position = false).card + search.stack.length

theorem work_visit (search : ReachSearch count) (position : Fin count) :
    (search.visit position).work = search.work := by
  unfold visit
  by_cases marked : search.reached position = true
  · rw [if_pos marked]
  · have unmarked : position ∈ Finset.univ.filter fun other => search.reached other = false := by
      simpa using marked
    have erased : (Finset.univ.filter fun other =>
        Function.update search.reached position true other = false) =
          (Finset.univ.filter fun other => search.reached other = false).erase position := by
      ext other
      by_cases same : other = position
      · simp [same]
      · simp [same]
    have positive := Finset.card_pos.2 ⟨position, unmarked⟩
    rw [if_neg marked, work, work, erased, Finset.card_erase_of_mem unmarked, List.length_cons]
    omega

theorem work_visits (positions : List (Fin count)) (search : ReachSearch count) :
    (positions.foldl visit search).work = search.work := by
  induction positions generalizing search with
  | nil => rfl
  | cons position rest induction => rw [List.foldl_cons, induction, work_visit]

theorem reached_visit {search : ReachSearch count} {position other : Fin count} :
    (search.visit position).reached other = true ↔
      search.reached other = true ∨ other = position := by
  unfold visit
  by_cases same : other = position
  · subst same
    by_cases marked : search.reached other = true <;> simp [marked]
  · by_cases marked : search.reached position = true <;> simp [marked, same]

theorem mem_stack_visit {search : ReachSearch count} {position other : Fin count} :
    other ∈ (search.visit position).stack ↔
      other ∈ search.stack ∨ other = position ∧ search.reached other = false := by
  unfold visit
  by_cases same : other = position
  · subst same
    by_cases marked : search.reached other = true <;> simp [marked]
  · by_cases marked : search.reached position = true <;> simp [marked, same]

theorem reached_visits {positions : List (Fin count)} {search : ReachSearch count}
    {other : Fin count} : (positions.foldl visit search).reached other = true ↔
      search.reached other = true ∨ other ∈ positions := by
  induction positions generalizing search with
  | nil => simp
  | cons position rest induction =>
      rw [List.foldl_cons, induction, reached_visit, List.mem_cons, or_assoc]

theorem mem_stack_visits {positions : List (Fin count)} {search : ReachSearch count}
    {other : Fin count} : other ∈ (positions.foldl visit search).stack ↔
      other ∈ search.stack ∨ other ∈ positions ∧ search.reached other = false := by
  induction positions generalizing search with
  | nil => simp
  | cons position rest induction =>
      have unmarked : (search.visit position).reached other = false ↔
          search.reached other = false ∧ other ≠ position := by
        rw [← Bool.not_eq_true, reached_visit, not_or, Bool.not_eq_true]
      rw [List.foldl_cons, induction, mem_stack_visit, unmarked, List.mem_cons]
      by_cases same : other = position <;> simp [same]

end ReachSearch

namespace Links

open ReachSearch

section Searching

variable {count : Nat} (links : Links count)

def visitDependents (position : Fin count) (search : ReachSearch count) : ReachSearch count :=
  (links.dependents position).foldl visit search

theorem work_visit_dependents (position : Fin count) (search : ReachSearch count) :
    (links.visitDependents position search).work = search.work :=
  work_visits _ _

/-- Takes one position after the other off the stack, and gives the marks. -/
def reach (search : ReachSearch count) : Fin count → Bool :=
  match search with
  | ⟨reached, []⟩ => reached
  | ⟨reached, position :: rest⟩ =>
      reach (links.visitDependents position ⟨reached, rest⟩)
termination_by search.work
decreasing_by
  rw [work_visit_dependents]
  simp [work]

def LeadsTo (start position : Fin count) : Prop :=
  Relation.TransGen (fun near far => far ∈ links.dependents near) start position

/-- What holds whenever a position has been dealt with. -/
structure Searches (start : Fin count) (search : ReachSearch count) : Prop where
  sound : ∀ position, search.reached position = true → links.LeadsTo start position
  begun : ∀ position ∈ search.stack, position = start ∨ search.reached position = true
  done : ∀ position, position = start ∨ search.reached position = true →
    position ∉ search.stack → ∀ dependent ∈ links.dependents position,
      search.reached dependent = true

end Searching

variable {count : Nat} {links : Links count} {start : Fin count}

theorem begin_searches : links.Searches start (.begin start) where
  sound _ reached := by cases reached
  begun _ member := .inl (List.mem_singleton.1 member)
  done position reached outside := by
    refine absurd (List.mem_singleton.2 ?_) outside
    exact reached.resolve_right (by simp [begin])

theorem Searches.step {reached : Fin count → Bool} {position : Fin count}
    {rest : List (Fin count)} (searches : links.Searches start ⟨reached, position :: rest⟩) :
    links.Searches start (links.visitDependents position ⟨reached, rest⟩) where
  sound other marked := by
    rcases reached_visits.1 marked with earlier | dependent
    · exact searches.sound other earlier
    · rcases searches.begun position List.mem_cons_self with same | earlier
      · exact .single (same ▸ dependent)
      · exact (searches.sound position earlier).tail dependent
  begun other member := by
    rcases mem_stack_visits.1 member with waiting | ⟨dependent, _⟩
    · exact (searches.begun other (List.mem_cons_of_mem _ waiting)).imp_right
        fun earlier => reached_visits.2 (.inl earlier)
    · exact .inr (reached_visits.2 (.inr dependent))
  done other marked outside dependent member := by
    rw [visitDependents, mem_stack_visits, not_or, not_and, Bool.not_eq_false] at outside
    rw [visitDependents, reached_visits]
    by_cases same : other = position
    · exact .inr (same ▸ member)
    · have earlier : other = start ∨ reached other = true := by
        refine marked.imp_right fun now => ?_
        exact (reached_visits.1 now).elim id outside.2
      have notWaiting : other ∉ position :: rest := by
        simp only [List.mem_cons, not_or]
        exact ⟨same, outside.1⟩
      exact .inl (searches.done other earlier notWaiting dependent member)

theorem Searches.reach_iff {search : ReachSearch count} (searches : links.Searches start search)
    (position : Fin count) : links.reach search position = true ↔ links.LeadsTo start position := by
  fun_induction reach links search with
  | case1 reached =>
      refine ⟨searches.sound position, fun leads => ?_⟩
      induction leads with
      | single dependent => exact searches.done start (.inl rfl) List.not_mem_nil _ dependent
      | tail _ dependent marked => exact searches.done _ (.inr marked) List.not_mem_nil _ dependent
  | case2 reached next rest induction => exact induction searches.step

/-- The search ends with exactly the positions marked that depend on its start. -/
theorem reach_begin_iff (position : Fin count) :
    links.reach (.begin start) position = true ↔ links.LeadsTo start position :=
  begin_searches.reach_iff position

/-- The lists of dependents ascend, up to a last position. -/
structure Ascends (links : Links count) (last : Fin count) : Prop where
  sorted : ∀ position, (links.dependents position).Pairwise (· < ·)
  up_to : ∀ position, ∀ dependent ∈ links.dependents position, dependent ≤ last

theorem Ascends.connect {last : Fin count} (ascends : links.Ascends last)
    (mirrored : links.Mirrored) (other : Fin count) : (links.connect last other).Ascends last := by
  unfold Links.connect
  by_cases listed : other ∈ links.dependencies last
  · rwa [if_pos listed]
  · rw [if_neg listed]
    have unlisted : last ∉ links.dependents other :=
      fun member => listed ((mirrored.mirror last other).2 member)
    constructor
    · intro position
      by_cases same : position = other
      · subst same
        simp only [Function.update_self, List.pairwise_append]
        refine ⟨ascends.sorted position, List.pairwise_singleton _ _, ?_⟩
        intro dependent member new single
        rw [List.mem_singleton.1 single]
        refine lt_of_le_of_ne (ascends.up_to position dependent member) ?_
        exact fun equal => unlisted (equal ▸ member)
      · simpa only [Function.update_of_ne same] using ascends.sorted position
    · intro position dependent member
      rcases mem_update_append.1 member with earlier | ⟨_, rfl⟩
      · exact ascends.up_to position dependent earlier
      · exact le_rfl

end Links

namespace Pipeline

theorem link_each_ascends {pipeline : Pipeline} {last : Fin pipeline.steps.length}
    {dependencies : List String} {links linked : Links pipeline.steps.length}
    (mirrored : links.Mirrored) (ascends : links.Ascends last)
    (succeeds : pipeline.linkEach last dependencies links = .ok linked) :
    linked.Mirrored ∧ linked.Ascends last := by
  induction dependencies generalizing links with
  | nil =>
      cases succeeds
      exact ⟨mirrored, ascends⟩
  | cons dependency rest induction =>
      rw [linkEach] at succeeds
      split at succeeds
      · cases succeeds
      · next other _ =>
          exact induction (Links.connect_mirrored mirrored last other)
            (ascends.connect mirrored other) succeeds

theorem link_steps_ascend {pipeline : Pipeline} {positions : List (Fin pipeline.steps.length)}
    {links linked : Links pipeline.steps.length} (ordered : positions.Pairwise (· < ·))
    (mirrored : links.Mirrored)
    (sorted : ∀ position, (links.dependents position).Pairwise (· < ·))
    (below : ∀ later ∈ positions, ∀ position, ∀ dependent ∈ links.dependents position,
      dependent < later)
    (succeeds : pipeline.linkSteps positions links = .ok linked) :
    ∀ position, (linked.dependents position).Pairwise (· < ·) := by
  induction positions generalizing links with
  | nil =>
      cases succeeds
      exact sorted
  | cons last rest induction =>
      obtain ⟨first, orderedRest⟩ := List.pairwise_cons.1 ordered
      rw [linkSteps] at succeeds
      obtain ⟨middle, isMiddle, later⟩ := except_bind_ok succeeds
      have upToLast : links.Ascends last :=
        ⟨sorted, fun position dependent member =>
          (below last List.mem_cons_self position dependent member).le⟩
      obtain ⟨middleMirrored, ascends⟩ := link_each_ascends mirrored upToLast isMiddle
      refine induction orderedRest middleMirrored ascends.sorted ?_ later
      exact fun next member position dependent listed =>
        lt_of_le_of_lt (ascends.up_to position dependent listed) (first next member)

theorem link_ascends {pipeline : Pipeline} {links : Links pipeline.steps.length}
    (succeeds : pipeline.link = .ok links) (position : Fin pipeline.steps.length) :
    (links.dependents position).Pairwise (· < ·) :=
  link_steps_ascend (List.sortedLT_finRange _).pairwise Links.unconnected_mirrored
    (fun _ => List.Pairwise.nil) (fun _ _ _ _ member => absurd member List.not_mem_nil)
    succeeds position

section Answers

variable (pipeline : Pipeline) (links : Links pipeline.steps.length) (id : String)

/-- The ids in the list of a step; an unknown id has no list. -/
def neighbours (lists : Fin pipeline.steps.length → List (Fin pipeline.steps.length)) :
    List String :=
  match pipeline.positionOf? id with
  | some position => (lists position).map pipeline.idAt
  | none => []

/-- The ids of the positions that the search from a step marks, in order of declaration. -/
def searchDependents : List String :=
  match pipeline.positionOf? id with
  | some start =>
      ((List.finRange pipeline.steps.length).filter (links.reach (.begin start))).map pipeline.idAt
  | none => []

end Answers

variable {pipeline : Pipeline} {links : Links pipeline.steps.length} {graph : Graph}

namespace Linked

theorem dependent_iff (linked : pipeline.Linked links) (plans : graph.Plans pipeline)
    {position dependent : Fin pipeline.steps.length} :
    dependent ∈ links.dependents position ↔
      pipeline.DependsOn (pipeline.idAt dependent) (pipeline.idAt position) := by
  rw [← linked.mirror, ← List.mem_map_of_injective (id_at_injective plans.distinct),
    linked.named, nodeAt, mem_node_dependencies]
  have declared : pipeline.stepAt dependent ∈ pipeline.steps := List.getElem_mem _
  constructor
  · exact fun listed => ⟨_, declared, rfl, listed⟩
  · rintro ⟨step, member, same, listed⟩
    rwa [← step_eq_of_id_eq plans.distinct member declared same]

theorem leads_to_iff (linked : pipeline.Linked links) (plans : graph.Plans pipeline)
    {start position : Fin pipeline.steps.length} :
    links.LeadsTo start position ↔
      pipeline.IsAncestor (pipeline.idAt start) (pipeline.idAt position) := by
  rw [IsAncestor, ← Relation.transGen_swap]
  constructor
  · have edge : ∀ near far, far ∈ links.dependents near →
        Function.swap pipeline.DependsOn (pipeline.idAt near) (pipeline.idAt far) :=
      fun _ _ => (linked.dependent_iff plans).1
    exact Relation.TransGen.lift pipeline.idAt edge _ _
  · generalize target : pipeline.idAt position = id
    intro reaches
    induction reaches generalizing position with
    | single depends => exact .single ((linked.dependent_iff plans).2 (target ▸ depends))
    | tail _ depends induction =>
        obtain ⟨middle, _, same⟩ := pipeline.position_of_declared
          (plans.dependency_declared depends)
        exact (induction same).tail ((linked.dependent_iff plans).2 (same ▸ target ▸ depends))

theorem neighbours_dependencies (linked : pipeline.Linked links) (plans : graph.Plans pipeline)
    (id : String) : pipeline.neighbours id links.dependencies = graph.dependenciesOf id := by
  unfold neighbours Graph.dependenciesOf
  by_cases declared : id ∈ pipeline.stepIds
  · obtain ⟨position, found, rfl⟩ := pipeline.position_of_declared declared
    have node : graph.nodes.find? (fun node => node.id = pipeline.idAt position) =
        some (pipeline.nodeAt position) :=
      plans.node?_of_step (List.getElem_mem _)
    rw [found, node]
    exact linked.named position
  · rw [pipeline.position_of_undeclared declared, plans.node?_of_undeclared declared]

theorem dependents_by_dependencies (linked : pipeline.Linked links)
    (succeeds : pipeline.link = .ok links) (position : Fin pipeline.steps.length) :
    links.dependents position =
      (List.finRange _).filter fun other => position ∈ links.dependencies other := by
  refine (link_ascends succeeds position).eq_of_mem_iff
    ((List.sortedLT_finRange _).pairwise.filter _) fun other => ?_
  simp [linked.mirror]

theorem neighbours_dependents (linked : pipeline.Linked links) (plans : graph.Plans pipeline)
    (succeeds : pipeline.link = .ok links) (id : String) :
    pipeline.neighbours id links.dependents = graph.dependentsOf id := by
  unfold neighbours
  by_cases declared : id ∈ pipeline.stepIds
  · obtain ⟨position, found, rfl⟩ := pipeline.position_of_declared declared
    rw [found, Graph.dependentsOf, plans.nodes, ← pipeline.nodes_by_position, List.filter_map,
      List.map_map]
    dsimp only
    rw [linked.dependents_by_dependencies succeeds]
    refine congrArg (List.map pipeline.idAt) (List.filter_congr fun other _ => ?_)
    rw [Function.comp_apply, ← linked.named, List.contains_eq_mem,
      decide_eq_decide, List.mem_map_of_injective (id_at_injective plans.distinct)]
  · rw [pipeline.position_of_undeclared declared, eq_comm, List.eq_nil_iff_forall_not_mem]
    exact fun other member =>
      declared (plans.dependency_declared (plans.mem_dependents_of_iff.1 member))

theorem search_dependents (linked : pipeline.Linked links) (plans : graph.Plans pipeline)
    (id : String) : pipeline.searchDependents links id = graph.transitiveDependents id := by
  unfold searchDependents
  by_cases declared : id ∈ pipeline.stepIds
  · obtain ⟨start, found, rfl⟩ := pipeline.position_of_declared declared
    have ids : graph.stepIds = (List.finRange _).map pipeline.idAt :=
      plans.node_ids_eq.trans pipeline.ids_by_position.symm
    rw [found, Graph.transitiveDependents, ids, List.filter_map]
    refine congrArg (List.map pipeline.idAt) (List.filter_congr fun other _ => ?_)
    rw [Bool.eq_iff_iff, Links.reach_begin_iff, linked.leads_to_iff plans, Function.comp_apply,
      List.contains_iff_mem, plans.mem_reached_from]
  · rw [pipeline.position_of_undeclared declared, (plans.lists_dependents id).undeclared declared]

end Linked

end Pipeline

namespace Graph

/-- A graph answers as the stored lists of its pipeline and the search over them do. -/
structure AnswersByLinks (graph : Graph) (pipeline : Pipeline)
    (links : Links pipeline.steps.length) : Prop where
  dependencies : ∀ id, pipeline.neighbours id links.dependencies = graph.dependenciesOf id
  dependents : ∀ id, pipeline.neighbours id links.dependents = graph.dependentsOf id
  transitive : ∀ id, pipeline.searchDependents links id = graph.transitiveDependents id

/-- The search over the stored dependents of a step finds the closure of the neighbours, which
are the dependencies of the pipeline seen from either side. The steps found form a strict order
that the waves respect. -/
theorem dependents_close_dependencies (pipeline : Pipeline) (graph : Graph)
    (built : build pipeline = .ok graph) :
    (∃ links, pipeline.link = .ok links ∧ graph.AnswersByLinks pipeline links) ∧
    (∀ id, graph.ListsDependents pipeline id) ∧
    (IsStrictOrder String fun ancestor id => graph.isAncestor ancestor id = true) ∧
    (∀ ancestor id, graph.isAncestor ancestor id = true →
      ∃ earlier later, graph.waveOf ancestor = some earlier ∧ graph.waveOf id = some later ∧
        earlier < later) ∧
    (∀ id dependency,
      (dependency ∈ graph.dependenciesOf id ↔ pipeline.DependsOn id dependency) ∧
        (id ∈ graph.dependentsOf dependency ↔ dependency ∈ graph.dependenciesOf id)) ∧
    ∀ ancestor id,
      (graph.isAncestor ancestor id = true ↔
        Relation.TransGen (fun near far => far ∈ graph.dependenciesOf near) id ancestor) ∧
      (graph.isAncestor ancestor id = true ↔
        Relation.TransGen (fun near far => far ∈ graph.dependentsOf near) ancestor id) := by
  have plans := build_plans built
  obtain ⟨links, isLinked, linked⟩ := Pipeline.link_known plans.distinct plans.known
  refine ⟨⟨links, isLinked, ?_⟩, plans.lists_dependents, plans.ancestors_ordered, ?_, ?_, ?_⟩
  · exact ⟨linked.neighbours_dependencies plans, linked.neighbours_dependents plans isLinked,
      linked.search_dependents plans⟩
  · exact fun ancestor id => plans.ancestor_in_earlier_wave
  · intro id dependency
    exact ⟨plans.mem_dependencies_of_iff,
      plans.mem_dependents_of_iff.trans plans.mem_dependencies_of_iff.symm⟩
  · exact fun ancestor id => ⟨plans.is_ancestor_iff_dependencies, plans.is_ancestor_iff_dependents⟩

end Graph

theorem release_pipeline_dependents :
    ∃ graph links, Graph.build releasePipeline = .ok graph ∧ releasePipeline.link = .ok links ∧
      releasePipeline.searchDependents links "fetch" =
        ["publish", "package", "announce", "archive"] ∧
      releasePipeline.neighbours "fetch" links.dependents = ["package", "announce"] ∧
      releasePipeline.neighbours "publish" links.dependencies = ["package", "lint"] ∧
      graph.transitiveDependents "fetch" = ["publish", "package", "announce", "archive"] ∧
      graph.transitiveDependents "ghost" = [] ∧
      (∀ id, graph.ListsDependents releasePipeline id) ∧
      ∃ earlier later, graph.waveOf "lint" = some earlier ∧ graph.waveOf "publish" = some later ∧
        earlier < later := by
  obtain ⟨graph, built, reached, dependents, dependencies, ghost, reaches⟩ : ∃ graph,
      Graph.build releasePipeline = .ok graph ∧
      graph.transitiveDependents "fetch" = ["publish", "package", "announce", "archive"] ∧
      graph.dependentsOf "fetch" = ["package", "announce"] ∧
      graph.dependenciesOf "publish" = ["package", "lint"] ∧
      graph.transitiveDependents "ghost" = [] ∧ graph.isAncestor "lint" "publish" = true :=
    ⟨_, by cbv, by cbv, by cbv, by cbv, by cbv, by cbv⟩
  obtain ⟨⟨links, linked, answers⟩, lists, _, inWaves, _⟩ :=
    Graph.dependents_close_dependencies releasePipeline graph built
  exact ⟨graph, links, built, linked, (answers.transitive "fetch").trans reached,
    (answers.dependents "fetch").trans dependents,
    (answers.dependencies "publish").trans dependencies, reached, ghost, lists,
    inWaves "lint" "publish" reaches⟩

end PipelineWaves
