import PipelineWaves.Yaml.Character

/-!
# YAML tokens

The tokens of a YAML text. Indentation is written out: block collections have a
start and an end of their own, and every key and value has its mark.
-/

set_option autoImplicit false

namespace PipelineWaves

inductive YamlToken where
  | version (major minor : Nat)
  | tagDirective (handle uri : String)
  | documentStart
  | documentEnd
  | streamEnd
  | blockSequence
  | blockMapping
  | blockEnd
  | openSequence
  | closeSequence
  | openMapping
  | closeMapping
  | dash
  | comma
  | key
  | value
  | reference (name : String)
  | anchor (name : String)
  | tag (handle suffix : String)
  | scalar (plain : Bool) (text : String)
deriving DecidableEq, Repr

/-- A place in a text: the characters before it, and its line and column. -/
structure YamlPosition where
  offset : Nat
  line : Nat
  column : Nat
deriving DecidableEq, Repr

namespace YamlPosition

def start : YamlPosition := ⟨0, 0, 0⟩

def after (position : YamlPosition) : List Char → YamlPosition
  | [] => position
  | '\r' :: '\n' :: rest => after ⟨position.offset + 2, position.line + 1, 0⟩ rest
  | character :: rest =>
      if Yaml.isBreak character then after ⟨position.offset + 1, position.line + 1, 0⟩ rest
      else after ⟨position.offset + 1, position.line, position.column + 1⟩ rest

end YamlPosition

end PipelineWaves
