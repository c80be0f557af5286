/-!
# Waves

Nodes are placed in waves: a wave holds every node whose dependencies all lie in
earlier waves, in the order of declaration. Each waiting node counts the
dependencies that are not placed yet; a node is ready when its count is zero.
Nodes that never become ready stay behind, and `cycleAmong` walks from the first
of them along its unplaced dependencies until a node comes up again.
-/

set_option autoImplicit false

namespace PipelineWaves

/-- A step as the graph sees it; a dependency listed twice counts once. -/
structure GraphNode where
  id : String
  dependencies : List String
deriving DecidableEq, Repr

structure WaitingNode where
  node : GraphNode
  pending : Nat
deriving DecidableEq, Repr

namespace WaitingNode

def ofNode (node : GraphNode) : WaitingNode := ⟨node, node.dependencies.length⟩

def isReady (waiting : WaitingNode) : Bool := waiting.pending = 0

def settle (placed : List String) (waiting : WaitingNode) : WaitingNode :=
  { waiting with
    pending := waiting.pending - (waiting.node.dependencies.filter placed.contains).length }

end WaitingNode

def afterWave (waiting : List WaitingNode) : List WaitingNode :=
  let placed := (waiting.filter WaitingNode.isReady).map fun ready => ready.node.id
  (waiting.filter fun candidate => !candidate.isReady).map (WaitingNode.settle placed)

theorem length_afterWave_lt {waiting : List WaitingNode}
    (someReady : waiting.filter WaitingNode.isReady ≠ []) :
    (afterWave waiting).length < waiting.length := by
  have split : waiting.length = (waiting.filter WaitingNode.isReady).length
      + (waiting.filter fun candidate => !candidate.isReady).length := by
    induction waiting with
    | nil => simp at someReady
    | cons first rest ih =>
        by_cases ready : first.isReady = true
        · by_cases more : rest.filter WaitingNode.isReady = []
          · have none : (rest.filter fun candidate => !candidate.isReady) = rest := by
              rw [List.filter_eq_self]
              intro candidate member
              have notReady := List.filter_eq_nil_iff.1 more candidate member
              simpa using notReady
            simp [ready, more, none]
            omega
          · have inner := ih more
            simp [ready]
            omega
        · have inner := ih (by simpa [ready] using someReady)
          simp [ready]
          omega
  have positive : 0 < (waiting.filter WaitingNode.isReady).length :=
    List.length_pos_iff.2 someReady
  simp only [afterWave, List.length_map]
  omega

structure Placement where
  waves : List (List GraphNode)
  stuck : List WaitingNode

def placeWaves (waiting : List WaitingNode) : Placement :=
  if _ : waiting.filter WaitingNode.isReady = [] then ⟨[], waiting⟩
  else
    let later := placeWaves (afterWave waiting)
    { later with
      waves := (waiting.filter WaitingNode.isReady).map WaitingNode.node :: later.waves }
termination_by waiting.length
decreasing_by exact length_afterWave_lt ‹_›

/-- The first dependency of a node that is itself among the given nodes. -/
def nextAmong (nodes : List GraphNode) (id : String) : Option String :=
  match nodes.find? fun node => node.id = id with
  | some node => node.dependencies.find? fun dependency => nodes.any fun other => other.id = dependency
  | none => none

/-- Walks on from `current`; `path` holds the nodes seen so far, the latest first. -/
def walkAmong (nodes : List GraphNode) : Nat → List String → String → List String
  | 0, path, _ => path.reverse
  | fuel + 1, path, current =>
      if path.contains current then
        (path.reverse.dropWhile fun earlier => earlier ≠ current) ++ [current]
      else
        match nextAmong nodes current with
        | some next => walkAmong nodes fuel (current :: path) next
        | none => (current :: path).reverse

/-- A cycle among nodes that each depend on another one of them. -/
def cycleAmong (nodes : List GraphNode) : List String :=
  match nodes with
  | [] => []
  | first :: _ => walkAmong nodes (nodes.length + 1) [] first.id

end PipelineWaves
