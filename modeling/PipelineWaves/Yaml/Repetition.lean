import PipelineWaves.Yaml.Document

/-!
# Repetition by aliases

An alias is read again wherever it stands, so that a short text can stand for a
tree of any size. `repeatsTooOften` says whether reading a document from left to
right follows more than one hundred aliases for each of its nodes and ends,
before its nesting becomes too deep.
-/

set_option autoImplicit false

namespace PipelineWaves

namespace YamlNode

mutual

/-- How many nodes and ends of collections a tree holds; an alias counts as one node. -/
def eventCount : YamlNode → Nat
  | scalar _ _ _ => 1
  | sequence _ items => 2 + eventCountOfItems items
  | mapping _ fields => 2 + eventCountOfFields fields
  | reference _ => 1

def eventCountOfItems : List YamlNode → Nat
  | [] => 0
  | item :: rest => eventCount item + eventCountOfItems rest

def eventCountOfFields : List (YamlNode × YamlNode) → Nat
  | [] => 0
  | (key, value) :: rest => eventCount key + eventCount value + eventCountOfFields rest

end

def parts : YamlNode → List YamlNode
  | sequence _ items => items
  | mapping _ fields => fields.flatMap fun field => [field.1, field.2]
  | _ => []

end YamlNode

/-- Why aliases are no longer followed. -/
inductive RepetitionStop where
  | tooOften
  | tooDeep
deriving DecidableEq, Repr

namespace YamlDocument

/-- How many aliases may still be followed behind a node, if `left` may be before it. -/
def followAliases (document : YamlDocument) :
    Nat → Nat → YamlNode → Except RepetitionStop Nat
  | depth, left, node => do
      let (node, left) ←
        match node with
        | .reference number =>
            if left = 0 then .error .tooOften
            else .ok ((document.target? number).getD .omitted, left - 1)
        | other => .ok (other, left)
      match depth, node.parts with
      | _, [] => .ok left
      | 0, _ => .error .tooDeep
      | depth + 1, parts => parts.foldlM (followAliases document depth) left

def repetitionLimit (root : YamlNode) : Nat := 100 * root.eventCount

def repeatsTooOften (depth : Nat) (document : YamlDocument) : Bool :=
  match document.root with
  | some root =>
      match document.followAliases depth (repetitionLimit root) root with
      | .error .tooOften => true
      | _ => false
  | none => false

end YamlDocument

end PipelineWaves
