import Mathlib.Data.List.Nodup
import Mathlib.Data.List.Perm.Basic
import PipelineWaves.Graph.Waves

/-!
# Layers of a dependency graph

What the waves of a placement are, said without counters. A node is free when
all its dependencies are placed; each layer holds the free nodes of those that
wait, in their order, and the layers end when no waiting node is free. The
counters of `placeWaves` keep one invariant, `Counted`, and under it every wave
is a layer. The remaining statements read the place of a node off its layers;
they split waves as `before ++ wave :: after`, so that `before` is what was placed
when `wave` was chosen.
-/

set_option autoImplicit false

namespace PipelineWaves

def nodeIds (nodes : List GraphNode) : List String := nodes.map GraphNode.id

@[simp]
theorem node_ids_nil : nodeIds [] = [] := rfl

@[simp]
theorem node_ids_append (left right : List GraphNode) :
    nodeIds (left ++ right) = nodeIds left ++ nodeIds right :=
  List.map_append

theorem mem_node_ids {nodes : List GraphNode} {node : GraphNode} (member : node ∈ nodes) :
    node.id ∈ nodeIds nodes :=
  List.mem_map_of_mem member

theorem node_ids_perm {left right : List GraphNode} (same : left.Perm right) :
    (nodeIds left).Perm (nodeIds right) :=
  same.map GraphNode.id

def GraphNode.isFree (placed : List String) (node : GraphNode) : Bool :=
  node.dependencies.all fun dependency => placed.contains dependency

theorem is_free_iff {placed : List String} {node : GraphNode} :
    node.isFree placed = true ↔ ∀ dependency ∈ node.dependencies, dependency ∈ placed := by
  simp [GraphNode.isFree]

theorem not_free_iff {placed : List String} {node : GraphNode} :
    node.isFree placed = false ↔ ∃ dependency ∈ node.dependencies, dependency ∉ placed := by
  simp [GraphNode.isFree]

/-- `waves` are the layers of the nodes `waiting` once `placed` is placed, and the
nodes of `stuck` are left over with no free node among them. -/
inductive Layers : List String → List GraphNode → List (List GraphNode) → List GraphNode → Prop
  | finish {placed : List String} {waiting : List GraphNode}
      (noneFree : ∀ node ∈ waiting, node.isFree placed = false) :
      Layers placed waiting [] waiting
  | layer {placed : List String} {waiting stuck : List GraphNode}
      {waves : List (List GraphNode)}
      (someFree : waiting.filter (GraphNode.isFree placed) ≠ [])
      (later : Layers (placed ++ nodeIds (waiting.filter (GraphNode.isFree placed)))
        (waiting.filter fun node => !node.isFree placed) waves stuck) :
      Layers placed waiting (waiting.filter (GraphNode.isFree placed) :: waves) stuck

/-- Dependencies of a node that are not placed yet, as often as they are listed. -/
def GraphNode.missing (placed : List String) (node : GraphNode) : List String :=
  node.dependencies.filter fun dependency => !placed.contains dependency

theorem missing_eq_nil_iff {placed : List String} {node : GraphNode} :
    node.missing placed = [] ↔ node.isFree placed = true := by
  simp [GraphNode.missing, is_free_iff]

/-- The invariant of the rounds: every counter is the number of missing dependencies. -/
def Counted (placed : List String) (waiting : List WaitingNode) : Prop :=
  ∀ candidate ∈ waiting, candidate.pending = (candidate.node.missing placed).length

theorem counted_start (nodes : List GraphNode) :
    Counted [] (nodes.map WaitingNode.ofNode) := by
  intro candidate member
  obtain ⟨node, _, same⟩ := List.mem_map.1 member
  subst same
  simp [WaitingNode.ofNode, GraphNode.missing]

theorem ready_eq_free {placed : List String} {candidate : WaitingNode}
    (counted : candidate.pending = (candidate.node.missing placed).length) :
    candidate.isReady = candidate.node.isFree placed := by
  have zeroIff : candidate.pending = 0 ↔ candidate.node.isFree placed = true := by
    rw [counted, List.length_eq_zero_iff, missing_eq_nil_iff]
  rw [Bool.eq_iff_iff, ← zeroIff]
  simp [WaitingNode.isReady]

/-- Placing ids that were not placed before takes exactly those off the missing ones. -/
theorem missing_after_placing (dependencies placed newly : List String)
    (fresh : ∀ id ∈ newly, id ∉ placed) :
    (dependencies.filter fun dependency => !(placed ++ newly).contains dependency).length
        + (dependencies.filter newly.contains).length =
      (dependencies.filter fun dependency => !placed.contains dependency).length := by
  induction dependencies with
  | nil => rfl
  | cons dependency rest induction =>
      by_cases isNew : dependency ∈ newly
      · have notOld := fresh dependency isNew
        simp [isNew, notOld] at induction ⊢
        omega
      · by_cases isOld : dependency ∈ placed
        · simp [isNew, isOld] at induction ⊢
          omega
        · simp [isNew, isOld] at induction ⊢
          omega

theorem settle_counted {placed newly : List String} {candidate : WaitingNode}
    (fresh : ∀ id ∈ newly, id ∉ placed)
    (counted : candidate.pending = (candidate.node.missing placed).length) :
    (candidate.settle newly).pending =
      ((candidate.settle newly).node.missing (placed ++ newly)).length := by
  have accounting := missing_after_placing candidate.node.dependencies placed newly fresh
  simp only [GraphNode.missing] at counted ⊢
  simp only [WaitingNode.settle]
  omega

def waitingNodes (waiting : List WaitingNode) : List GraphNode := waiting.map WaitingNode.node

@[simp]
theorem waiting_nodes_start (nodes : List GraphNode) :
    waitingNodes (nodes.map WaitingNode.ofNode) = nodes := by
  simp [waitingNodes, WaitingNode.ofNode, Function.comp_def]

theorem ready_nodes_eq {placed : List String} {waiting : List WaitingNode}
    (counted : Counted placed waiting) :
    waitingNodes (waiting.filter WaitingNode.isReady) =
      (waitingNodes waiting).filter (GraphNode.isFree placed) := by
  rw [waitingNodes, waitingNodes, List.filter_map]
  congr 1
  apply List.filter_congr
  intro candidate member
  exact ready_eq_free (counted candidate member)

theorem after_wave_nodes {placed : List String} {waiting : List WaitingNode}
    (counted : Counted placed waiting) :
    waitingNodes (afterWave waiting) =
      (waitingNodes waiting).filter fun node => !node.isFree placed := by
  have settled : ∀ (newly : List String) (candidates : List WaitingNode),
      waitingNodes (candidates.map (WaitingNode.settle newly)) = waitingNodes candidates := by
    intro newly candidates
    simp [waitingNodes, WaitingNode.settle, Function.comp_def]
  rw [afterWave, settled, waitingNodes, waitingNodes, List.filter_map]
  congr 1
  apply List.filter_congr
  intro candidate member
  simp [ready_eq_free (counted candidate member)]

/-- Ids that are placed, then those that wait; no id twice. -/
def DistinctWith (placed : List String) (waiting : List GraphNode) : Prop :=
  (placed ++ nodeIds waiting).Nodup

theorem free_split_perm (placed : List String) (waiting : List GraphNode) :
    (waiting.filter (GraphNode.isFree placed)
      ++ waiting.filter fun node => !node.isFree placed).Perm waiting :=
  List.filter_append_perm _ _

theorem distinct_with_after_layer {placed : List String} {waiting : List GraphNode}
    (distinct : DistinctWith placed waiting) :
    DistinctWith (placed ++ nodeIds (waiting.filter (GraphNode.isFree placed)))
      (waiting.filter fun node => !node.isFree placed) := by
  have split := node_ids_perm (free_split_perm placed waiting)
  rw [node_ids_append] at split
  rw [DistinctWith, List.append_assoc]
  exact (split.append_left placed).nodup_iff.2 distinct

theorem free_ids_fresh {placed : List String} {waiting : List GraphNode}
    (distinct : DistinctWith placed waiting) :
    ∀ id ∈ nodeIds (waiting.filter (GraphNode.isFree placed)), id ∉ placed := by
  intro id member old
  obtain ⟨node, free, same⟩ := List.mem_map.1 member
  have present : id ∈ nodeIds waiting := same ▸ mem_node_ids (List.mem_filter.1 free).1
  exact (List.nodup_append.1 distinct).2.2 id old id present rfl

theorem after_wave_counted {placed : List String} {waiting : List WaitingNode}
    (distinct : DistinctWith placed (waitingNodes waiting)) (counted : Counted placed waiting) :
    Counted (placed ++ nodeIds ((waitingNodes waiting).filter (GraphNode.isFree placed)))
      (afterWave waiting) := by
  intro candidate member
  have newly : (waiting.filter WaitingNode.isReady).map (fun ready => ready.node.id) =
      nodeIds ((waitingNodes waiting).filter (GraphNode.isFree placed)) := by
    rw [← ready_nodes_eq counted]
    simp [nodeIds, waitingNodes, Function.comp_def]
  rw [afterWave, newly] at member
  obtain ⟨earlier, present, same⟩ := List.mem_map.1 member
  rw [← same]
  exact settle_counted (free_ids_fresh distinct) (counted earlier (List.mem_filter.1 present).1)

theorem place_waves_layers {placed : List String} {waiting : List WaitingNode}
    (distinct : DistinctWith placed (waitingNodes waiting)) (counted : Counted placed waiting) :
    Layers placed (waitingNodes waiting) (placeWaves waiting).waves
      (waitingNodes (placeWaves waiting).stuck) := by
  induction waiting using placeWaves.induct generalizing placed with
  | case1 waiting noneReady =>
      rw [placeWaves, dif_pos noneReady]
      apply Layers.finish
      have noneFree := ready_nodes_eq counted
      rw [noneReady] at noneFree
      intro node member
      simpa using List.filter_eq_nil_iff.1 noneFree.symm node member
  | case2 waiting someReady induction =>
      rw [placeWaves, dif_neg someReady]
      have layer := ready_nodes_eq counted
      have distinctNext := distinct_with_after_layer distinct
      rw [← after_wave_nodes counted] at distinctNext
      have rest := induction distinctNext (after_wave_counted distinct counted)
      rw [after_wave_nodes counted] at rest
      have wave : (waiting.filter WaitingNode.isReady).map WaitingNode.node =
          (waitingNodes waiting).filter (GraphNode.isFree placed) := layer
      dsimp only
      rw [wave]
      apply Layers.layer
      · rw [← wave]
        simpa using someReady
      · exact rest

theorem layers_perm {placed : List String} {waiting stuck : List GraphNode}
    {waves : List (List GraphNode)} (layers : Layers placed waiting waves stuck) :
    (waves.flatten ++ stuck).Perm waiting := by
  induction layers with
  | finish noneFree => simp
  | @layer placed waiting stuck waves someFree later induction =>
      rw [List.flatten_cons, List.append_assoc]
      exact (induction.append_left _).trans (free_split_perm placed waiting)

theorem layers_wave_ne_nil {placed : List String} {waiting stuck : List GraphNode}
    {waves : List (List GraphNode)} (layers : Layers placed waiting waves stuck) :
    ∀ wave ∈ waves, wave ≠ [] := by
  induction layers with
  | finish noneFree => simp
  | layer someFree later induction =>
      intro wave member
      rcases List.mem_cons.1 member with same | later
      · exact same ▸ someFree
      · exact induction wave later

theorem layers_wave_sublist {placed : List String} {waiting stuck : List GraphNode}
    {waves : List (List GraphNode)} (layers : Layers placed waiting waves stuck) :
    ∀ wave ∈ waves, wave.Sublist waiting := by
  induction layers with
  | finish noneFree => simp
  | layer someFree later induction =>
      intro wave member
      rcases List.mem_cons.1 member with same | later
      · exact same ▸ List.filter_sublist
      · exact (induction wave later).trans List.filter_sublist

theorem layers_dependency_before {placed : List String} {waiting stuck : List GraphNode}
    {waves before after : List (List GraphNode)} {wave : List GraphNode} {node : GraphNode}
    (layers : Layers placed waiting waves stuck) (split : waves = before ++ wave :: after)
    (member : node ∈ wave) :
    ∀ dependency ∈ node.dependencies, dependency ∈ placed ++ nodeIds before.flatten := by
  induction layers generalizing before with
  | finish noneFree => simp at split
  | @layer placed waiting stuck waves someFree later induction =>
      intro dependency listed
      cases before with
      | nil =>
          obtain ⟨rfl, _⟩ := List.cons.inj split
          have free := is_free_iff.1 (List.mem_filter.1 member).2
          exact List.mem_append_left _ (free dependency listed)
      | cons first before =>
          obtain ⟨rfl, rest⟩ := List.cons.inj split
          have earlier := induction rest dependency listed
          rwa [List.append_assoc, ← node_ids_append, ← List.flatten_cons] at earlier

/-- A node that comes after a wave was not free when that wave was chosen. -/
theorem layers_dependency_missing {placed : List String} {waiting stuck : List GraphNode}
    {waves before after : List (List GraphNode)} {wave : List GraphNode} {node : GraphNode}
    (layers : Layers placed waiting waves stuck) (split : waves = before ++ wave :: after)
    (member : node ∈ after.flatten ++ stuck) :
    ∃ dependency ∈ node.dependencies, dependency ∉ placed ++ nodeIds before.flatten := by
  induction layers generalizing before with
  | finish noneFree => simp at split
  | @layer placed waiting stuck waves someFree later induction =>
      cases before with
      | nil =>
          obtain ⟨_, rfl⟩ := List.cons.inj split
          have waited := (layers_perm later).mem_iff.1 member
          have notFree : node.isFree placed = false := by
            simpa using (List.mem_filter.1 waited).2
          simpa using not_free_iff.1 notFree
      | cons first before =>
          obtain ⟨rfl, rest⟩ := List.cons.inj split
          have waited := induction rest member
          rwa [List.append_assoc, ← node_ids_append, ← List.flatten_cons] at waited

theorem layers_dependency_in_previous {placed : List String} {waiting stuck : List GraphNode}
    {waves before after : List (List GraphNode)} {previous wave : List GraphNode}
    {node : GraphNode} (layers : Layers placed waiting waves stuck)
    (split : waves = before ++ previous :: wave :: after) (member : node ∈ wave) :
    ∃ dependency ∈ node.dependencies, dependency ∈ nodeIds previous := by
  have later : node ∈ (wave :: after).flatten ++ stuck := by simp [member]
  obtain ⟨dependency, listed, missing⟩ := layers_dependency_missing layers split later
  have splitNext : waves = (before ++ [previous]) ++ wave :: after := by simp [split]
  have present := layers_dependency_before layers splitNext member dependency listed
  refine ⟨dependency, listed, ?_⟩
  simp only [List.flatten_append, List.flatten_cons, List.flatten_nil, List.append_nil,
    node_ids_append, ← List.append_assoc] at present
  exact (List.mem_append.1 present).resolve_left missing

theorem layers_stuck_missing {placed : List String} {waiting stuck : List GraphNode}
    {waves : List (List GraphNode)} (layers : Layers placed waiting waves stuck) :
    ∀ node ∈ stuck,
      ∃ dependency ∈ node.dependencies, dependency ∉ placed ++ nodeIds waves.flatten := by
  induction layers with
  | finish noneFree =>
      intro node member
      simpa using not_free_iff.1 (noneFree node member)
  | layer someFree later induction =>
      intro node member
      have missing := induction node member
      rwa [List.append_assoc, ← node_ids_append, ← List.flatten_cons] at missing

end PipelineWaves
