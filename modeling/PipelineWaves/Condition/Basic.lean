import PipelineWaves.Environment
import PipelineWaves.Outcome

/-!
# Conditions

A condition decides whether a step runs. It compares variables and literals and
asks how other steps ended. `evaluate` reads it in an environment against the
outcomes recorded so far: a step without a recorded outcome matches none of
them. `references` lists what a condition mentions, from left to right.
-/

set_option autoImplicit false

namespace PipelineWaves

inductive Operand where
  | variable (name : String)
  | literal (text : String)
deriving DecidableEq, Repr

inductive Comparison where
  | equal
  | different
deriving DecidableEq, Repr

inductive Condition where
  | constant (value : Bool)
  | truthy (operand : Operand)
  | compare (left : Operand) (how : Comparison) (right : Operand)
  | stepIs (step : String) (outcome : StepOutcome)
  | not (inner : Condition)
  | and (left right : Condition)
  | or (left right : Condition)
deriving DecidableEq, Repr

inductive Reference where
  | variable (name : String)
  | step (name : String)
deriving DecidableEq, Repr

namespace Reference

def name : Reference → String
  | .variable name => name
  | step name => name

def kindText : Reference → String
  | .variable _ => "variable"
  | step _ => "step"

end Reference

abbrev Outcomes := String → Option StepOutcome

namespace Operand

def value (environment : Environment) : Operand → String
  | .variable name => environment.valueOf name
  | literal text => text

/-- A variable counts by its text, a literal only by being empty or not. -/
def isTruthy (environment : Environment) : Operand → Bool
  | .variable name => Environment.isTruthy (environment.valueOf name)
  | literal text => text ≠ ""

def references : Operand → List Reference
  | .variable name => [.variable name]
  | literal _ => []

/-- The variable that an operand names, unless the environment has it. -/
def undefined? (environment : Environment) : Operand → Option Reference
  | .variable name => if environment.contains name then none else some (.variable name)
  | literal _ => none

end Operand

namespace Comparison

def holds (left right : String) : Comparison → Bool
  | equal => left = right
  | different => left ≠ right

end Comparison

namespace Condition

def evaluate (environment : Environment) (outcomes : Outcomes) : Condition → Bool
  | constant value => value
  | truthy operand => operand.isTruthy environment
  | compare left how right => how.holds (left.value environment) (right.value environment)
  | stepIs step outcome => outcomes step = some outcome
  | not inner => !inner.evaluate environment outcomes
  | and left right => left.evaluate environment outcomes && right.evaluate environment outcomes
  | or left right => left.evaluate environment outcomes || right.evaluate environment outcomes

def references : Condition → List Reference
  | constant _ => []
  | truthy operand => operand.references
  | compare left _ right => left.references ++ right.references
  | stepIs step _ => [.step step]
  | not inner => inner.references
  | and left right => left.references ++ right.references
  | or left right => left.references ++ right.references

/-- The steps a condition asks about, from left to right, repeated when asked twice. -/
def steps (condition : Condition) : List String :=
  condition.references.filterMap fun
    | .step name => some name
    | .variable _ => none

/-- Whether a mentioned name exists in the environment or among the declared steps. -/
def isDefined (environment : Environment) (declared : String → Bool) : Reference → Bool
  | .variable name => environment.contains name
  | .step name => declared name

/-- Checks what a condition mentions from left to right, up to the first name that does not
exist. -/
def firstUndefined? (environment : Environment) (declared : String → Bool) :
    Condition → Option Reference
  | constant _ => none
  | truthy operand => operand.undefined? environment
  | compare left _ right => left.undefined? environment <|> right.undefined? environment
  | stepIs step _ => if declared step then none else some (.step step)
  | not inner => inner.firstUndefined? environment declared
  | and left right | or left right =>
      left.firstUndefined? environment declared <|> right.firstUndefined? environment declared

end Condition

end PipelineWaves
