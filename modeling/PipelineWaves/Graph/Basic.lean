import PipelineWaves.Graph.Waves
import PipelineWaves.Pipeline.Basic

/-!
# Dependency graphs

The graph of a pipeline: its steps with their dependencies and the waves in which
they run. A graph exists only for steps with distinct ids and known dependencies
and without cycles; `GraphError` names the first obstacle in that order.
-/

set_option autoImplicit false

namespace PipelineWaves

inductive GraphError where
  | duplicateStep (id : String)
  | unknownDependency (id dependency : String)
  | cyclicDependency (cycle : List String)
deriving DecidableEq, Repr

namespace GraphError

def message : GraphError → String
  | duplicateStep id => s!"step '{id}': duplicate step id"
  | unknownDependency id dependency =>
      s!"step '{id}': depends_on references unknown step '{dependency}'"
  | cyclicDependency cycle => "cyclic dependency: " ++ " -> ".intercalate cycle

end GraphError

/-- Nodes in order of declaration, and the same nodes by wave. -/
structure Graph where
  nodes : List GraphNode
  waves : List (List GraphNode)
deriving Repr

namespace Graph

/-- The first text that stands in the list before. -/
def firstRepeated (seen : List String) : List String → Option String
  | [] => none
  | id :: rest => if seen.contains id then some id else firstRepeated (id :: seen) rest

/-- The first dependency, in order of declaration, that is no declared step. -/
def firstUnknown (ids : List String) (steps : List Step) : Option (String × String) :=
  steps.findSome? fun step =>
    (step.dependsOn.find? fun dependency => !ids.contains dependency).map (step.id, ·)

def nodeOf (step : Step) : GraphNode := ⟨step.id, step.dependsOn.eraseDups⟩

def build (pipeline : Pipeline) : Except GraphError Graph :=
  let ids := pipeline.stepIds
  match firstRepeated [] ids with
  | some id => .error (.duplicateStep id)
  | none =>
      match firstUnknown ids pipeline.steps with
      | some (id, dependency) => .error (.unknownDependency id dependency)
      | none =>
          let nodes := pipeline.steps.map nodeOf
          let placement := placeWaves (nodes.map WaitingNode.ofNode)
          if placement.stuck.isEmpty then .ok ⟨nodes, placement.waves⟩
          else .error (.cyclicDependency (cycleAmong (placement.stuck.map WaitingNode.node)))

def stepIds (graph : Graph) : List String := graph.nodes.map GraphNode.id

def contains (graph : Graph) (id : String) : Bool :=
  graph.nodes.any fun node => node.id = id

def waveIds (graph : Graph) : List (List String) :=
  graph.waves.map fun wave => wave.map GraphNode.id

def planIds (graph : Graph) : List String := graph.waveIds.flatten

def waveOf (graph : Graph) (id : String) : Option Nat :=
  graph.waveIds.findIdx? fun wave => wave.contains id

def dependenciesOf (graph : Graph) (id : String) : List String :=
  match graph.nodes.find? fun node => node.id = id with
  | some node => node.dependencies
  | none => []

def dependentsOf (graph : Graph) (id : String) : List String :=
  (graph.nodes.filter fun node => node.dependencies.contains id).map GraphNode.id

/-- Adds a node that depends on `id` or on a node already reached from it. -/
def reachStep (id : String) (reached : List String) (node : GraphNode) : List String :=
  if node.dependencies.any fun dependency => dependency = id || reached.contains dependency then
    node.id :: reached
  else reached

/-- The nodes that depend on `id`, directly or not; dependencies come earlier in the plan. -/
def reachedFrom (graph : Graph) (id : String) : List String :=
  graph.waves.flatten.foldl (reachStep id) []

def transitiveDependents (graph : Graph) (id : String) : List String :=
  let reached := graph.reachedFrom id
  graph.stepIds.filter reached.contains

def isAncestor (graph : Graph) (ancestor id : String) : Bool :=
  (graph.transitiveDependents ancestor).contains id

end Graph

end PipelineWaves
