/-!
# YAML nodes

A YAML document as a tree. Nodes with an anchor carry its number, and an alias
stands for the node with its number; of several nodes with one number the last
one counts.
-/

set_option autoImplicit false

namespace PipelineWaves

/-- What may stand before the content of a node. -/
structure NodeProperties where
  anchor : Option Nat
  tag : Option String
deriving DecidableEq, Repr

namespace NodeProperties

def none : NodeProperties := ⟨.none, .none⟩

end NodeProperties

inductive YamlNode where
  | scalar (properties : NodeProperties) (plain : Bool) (text : String)
  | sequence (properties : NodeProperties) (items : List YamlNode)
  | mapping (properties : NodeProperties) (fields : List (YamlNode × YamlNode))
  | reference (number : Nat)
deriving Repr

namespace YamlNode

/-- What stands where a node has been left out. -/
def empty (properties : NodeProperties) : YamlNode := .scalar properties true ""

def properties : YamlNode → NodeProperties
  | scalar properties _ _ => properties
  | sequence properties _ => properties
  | mapping properties _ => properties
  | reference _ => .none

mutual

/-- The nodes of a tree that have anchors, in the order of their starts. -/
def anchored (node : YamlNode) : List (Nat × YamlNode) :=
  let own :=
    match node.properties.anchor with
    | some number => [(number, node)]
    | none => []
  match node with
  | scalar _ _ _ => own
  | sequence _ items => own ++ anchoredItems items
  | mapping _ fields => own ++ anchoredFields fields
  | reference _ => own

def anchoredItems : List YamlNode → List (Nat × YamlNode)
  | [] => []
  | item :: rest => anchored item ++ anchoredItems rest

def anchoredFields : List (YamlNode × YamlNode) → List (Nat × YamlNode)
  | [] => []
  | (key, value) :: rest => anchored key ++ anchored value ++ anchoredFields rest

end

end YamlNode

end PipelineWaves
