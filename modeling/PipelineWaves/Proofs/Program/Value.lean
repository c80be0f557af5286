import PipelineWaves.Program.Written
import PipelineWaves.Proofs.Condition.Mention
import PipelineWaves.Proofs.Program.Reader

/-!
# Values of expressions

What an expression of a program stands for. An expression sees the environment
entry of its step and the outcomes recorded so far, by position, and it may call
the two functions that every program defines. Every part must have a value of the
right kind, also where the other side alone would decide: only then is the
expression well formed.
-/

set_option autoImplicit false

namespace PipelineWaves

inductive ExpressionValue where
  | boolean (value : Bool)
  | text (value : String)
  | number (value : Nat)
  | outcome (value : StepOutcome)
  | recorded (value : Option StepOutcome)
  | environment (entries : List (String × String))
  | outcomes (recorded : List (Option StepOutcome))
  | arguments (first second : ExpressionValue)
deriving DecidableEq, Repr

/-- What the condition of one step sees. -/
structure ExpressionScope where
  environment : List (String × String)
  outcomes : List (Option StepOutcome)
deriving DecidableEq, Repr

/-- `env_get` finds the first entry of a key, and else gives the empty text. -/
def environmentGet (environment : List (String × String)) (key : String) : String :=
  ((environment.find? fun entry => entry.1 = key).map Prod.snd).getD ""

/-- `truthy` refuses the empty text, `false` and `0`. -/
def truthy (value : String) : Bool :=
  value ≠ "" && value ≠ "false" && value ≠ "0"

namespace ExpressionValue

def called : List String → ExpressionValue → Option ExpressionValue
  | ["env_get"], .arguments (.environment entries) (.text key) =>
      some (.text (environmentGet entries key))
  | ["truthy"], .text value => some (.boolean (truthy value))
  | ["Some"], .outcome value => some (.recorded (some value))
  | _, _ => none

def indexed : ExpressionValue → ExpressionValue → Option ExpressionValue
  | .outcomes all, .number position => all[position]?.map ExpressionValue.recorded
  | _, _ => none

def negated : ExpressionValue → Option ExpressionValue
  | .boolean value => some (.boolean (!value))
  | _ => none

/-- Only values of one kind can be compared. -/
def same? : ExpressionValue → ExpressionValue → Option Bool
  | .boolean left, .boolean right => some (left = right)
  | .text left, .text right => some (left = right)
  | .number left, .number right => some (left = right)
  | .outcome left, .outcome right => some (left = right)
  | .recorded left, .recorded right => some (left = right)
  | _, _ => none

def joined : BinaryOperator → ExpressionValue → ExpressionValue → Option ExpressionValue
  | .or, .boolean left, .boolean right => some (.boolean (left || right))
  | .and, .boolean left, .boolean right => some (.boolean (left && right))
  | .equal, left, right => (same? left right).map .boolean
  | .different, left, right => (same? left right).map fun same => .boolean (!same)
  | _, _, _ => none

end ExpressionValue

namespace ExpressionScope

def named (scope : ExpressionScope) : List String → Option ExpressionValue
  | ["env"] => some (.environment scope.environment)
  | ["outcomes"] => some (.outcomes scope.outcomes)
  | ["Outcome", "Success"] => some (.outcome .success)
  | ["Outcome", "Failed"] => some (.outcome .failed)
  | ["Outcome", "Skipped"] => some (.outcome .skipped)
  | _ => none

end ExpressionScope

namespace ExpressionTerm

def value (scope : ExpressionScope) : ExpressionTerm → Option ExpressionValue
  | boolean value => some (.boolean value)
  | text value => some (.text value)
  | number value => some (.number value)
  | path names => scope.named names
  | not inner => (value scope inner).bind ExpressionValue.negated
  | binary operator left right =>
      (value scope left).bind fun leftValue =>
        (value scope right).bind (ExpressionValue.joined operator leftValue)
  | call function passed => (value scope passed).bind (ExpressionValue.called function)
  | arguments first second =>
      (value scope first).bind fun firstValue =>
        (value scope second).map (ExpressionValue.arguments firstValue)
  | index collection position =>
      (value scope collection).bind fun collectionValue =>
        (value scope position).bind (ExpressionValue.indexed collectionValue)

end ExpressionTerm

def Operand.term : Operand → ExpressionTerm
  | .variable name => .call ["env_get"] (.arguments (.path ["env"]) (.text name))
  | .literal text => .text text

def Comparison.operator : Comparison → BinaryOperator
  | .equal => .equal
  | .different => .different

namespace ProgramExpression

/-- The structure that the text of an expression has. -/
def term : ProgramExpression → ExpressionTerm
  | constant value => .boolean value
  | truthy name => .call ["truthy"] (Operand.variable name).term
  | compare left how right => .binary how.operator left.term right.term
  | outcomeIs index outcome =>
      .binary .equal (.index (.path ["outcomes"]) (.number index))
        (.call ["Some"] (.path ["Outcome", outcomeText outcome]))
  | not inner => .not inner.term
  | and left right => .binary .and left.term right.term
  | or left right => .binary .or left.term right.term

end ProgramExpression

theorem lookup_eq_find (entries : List (String × String)) (key : String) :
    entries.lookup key = (entries.find? fun entry => entry.1 = key).map Prod.snd := by
  induction entries with
  | nil => rfl
  | cons entry rest induction =>
      obtain ⟨first, text⟩ := entry
      rw [lookup_cons_eq_if, induction, List.find?_cons]
      by_cases same : key = first
      · simp [same]
      · simp [same, Ne.symm same]

theorem environment_get_entries (environment : Environment) (key : String) :
    environmentGet environment.entries key = environment.valueOf key := by
  rw [environmentGet, ← lookup_eq_find]
  rfl

theorem value_of_operand (environment : Environment) (outcomes : List (Option StepOutcome))
    (operand : Operand) :
    operand.term.value ⟨environment.entries, outcomes⟩ =
      some (.text (operand.value environment)) := by
  match operand with
  | .literal text => rfl
  | .variable name =>
      rw [Operand.value, ← environment_get_entries]
      rfl

theorem joined_comparison (how : Comparison) (left right : String) :
    ExpressionValue.joined how.operator (.text left) (.text right) =
      some (.boolean (how.holds left right)) := by
  cases how with
  | equal => rfl
  | different =>
      simp [Comparison.operator, ExpressionValue.joined, ExpressionValue.same?, Comparison.holds]

theorem value_of_outcome_is {environment : List (String × String)}
    {recorded : List (Option StepOutcome)} {index : Nat} {found : Option StepOutcome}
    (inRange : recorded[index]? = some found) (outcome : StepOutcome) :
    (ProgramExpression.outcomeIs index outcome).term.value ⟨environment, recorded⟩ =
      some (.boolean (found = some outcome)) := by
  have right :
      (ExpressionTerm.call ["Some"]
        (.path ["Outcome", ProgramExpression.outcomeText outcome])).value
          ⟨environment, recorded⟩ = some (.recorded (some outcome)) := by
    cases outcome <;> rfl
  have left : (ExpressionTerm.index (.path ["outcomes"]) (.number index)).value
      ⟨environment, recorded⟩ = some (.recorded found) := by
    simp [ExpressionTerm.value, ExpressionScope.named, ExpressionValue.indexed, inRange]
  rw [ProgramExpression.term, ExpressionTerm.value, left, right]
  rfl

/-- The expression of a condition is well formed and has the value of the condition. -/
theorem value_of_condition {positionOf : String → Option Nat} {plan : List String}
    (environment : Environment) (outcomes : Outcomes) (condition : Condition)
    (known : ∀ id ∈ condition.steps, ∃ index, positionOf id = some index ∧ plan[index]? = some id) :
    (ProgramExpression.of positionOf condition).term.value
        ⟨environment.entries, plan.map outcomes⟩ =
      some (.boolean (condition.evaluate environment outcomes)) := by
  induction condition with
  | constant value => rfl
  | truthy operand =>
      match operand with
      | .literal text => rfl
      | .variable name =>
          have read := value_of_operand environment (plan.map outcomes) (.variable name)
          rw [ProgramExpression.of, ProgramExpression.term, ExpressionTerm.value, read]
          rfl
  | compare left how right =>
      rw [ProgramExpression.of, ProgramExpression.term, ExpressionTerm.value, value_of_operand,
        value_of_operand]
      exact joined_comparison how _ _
  | stepIs step outcome =>
      obtain ⟨index, position, planned⟩ := known step List.mem_cons_self
      have inRange : (plan.map outcomes)[index]? = some (outcomes step) := by simp [planned]
      simp only [ProgramExpression.of, position]
      exact value_of_outcome_is inRange outcome
  | not inner induction =>
      rw [ProgramExpression.of, ProgramExpression.term, ExpressionTerm.value, induction known]
      rfl
  | and left right leftInduction rightInduction =>
      rw [steps_and] at known
      obtain ⟨knownLeft, knownRight⟩ := List.forall_mem_append.1 known
      rw [ProgramExpression.of, ProgramExpression.term, ExpressionTerm.value,
        leftInduction knownLeft, rightInduction knownRight]
      rfl
  | or left right leftInduction rightInduction =>
      rw [steps_or] at known
      obtain ⟨knownLeft, knownRight⟩ := List.forall_mem_append.1 known
      rw [ProgramExpression.of, ProgramExpression.term, ExpressionTerm.value,
        leftInduction knownLeft, rightInduction knownRight]
      rfl

end PipelineWaves
