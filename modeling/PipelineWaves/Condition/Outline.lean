import PipelineWaves.Condition.Basic
import PipelineWaves.Json.Basic

/-!
# Outlines of conditions

A condition with all its brackets and its operators in front, so that its
structure can be seen.
-/

set_option autoImplicit false

namespace PipelineWaves

def Operand.outline : Operand → String
  | .variable name => "$" ++ name
  | .literal value => Json.quoted value

def Condition.outline : Condition → String
  | .constant value => if value then "true" else "false"
  | .truthy operand => "(truthy " ++ operand.outline ++ ")"
  | .compare left .equal right => "(== " ++ left.outline ++ " " ++ right.outline ++ ")"
  | .compare left .different right => "(!= " ++ left.outline ++ " " ++ right.outline ++ ")"
  | .stepIs step outcome => "(step " ++ step ++ " " ++ outcome.text ++ ")"
  | .not inner => "(not " ++ inner.outline ++ ")"
  | .and left right => "(and " ++ left.outline ++ " " ++ right.outline ++ ")"
  | .or left right => "(or " ++ left.outline ++ " " ++ right.outline ++ ")"

end PipelineWaves
