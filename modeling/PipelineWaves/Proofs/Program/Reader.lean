import PipelineWaves.Proofs.Program.Token

/-!
# Reading expressions

A reader that gives the tokens of an expression their structure. Calls and
indexing bind closest, then negation, then comparisons, which do not chain, then
`&&` and last `||`, which both join from the left. A reading keeps one frame for
everything that waits for its last part; a bracket or a weaker operator settles
the frames above its own.
-/

set_option autoImplicit false

namespace PipelineWaves

inductive BinaryOperator where
  | or
  | and
  | equal
  | different
deriving DecidableEq, Repr

namespace BinaryOperator

def strength : BinaryOperator → Nat
  | or => 1
  | and => 2
  | equal => 3
  | different => 3

def token : BinaryOperator → ExpressionToken
  | or => .or
  | and => .and
  | equal => .equal
  | different => .different

def symbol : BinaryOperator → String
  | or => "||"
  | and => "&&"
  | equal => "=="
  | different => "!="

def isComparison (operator : BinaryOperator) : Bool := operator.strength = 3

end BinaryOperator

/-- The structure of an expression. -/
inductive ExpressionTerm where
  | boolean (value : Bool)
  | text (value : String)
  | number (value : Nat)
  | path (names : List String)
  | not (inner : ExpressionTerm)
  | binary (operator : BinaryOperator) (left right : ExpressionTerm)
  | call (function : List String) (arguments : ExpressionTerm)
  | arguments (first second : ExpressionTerm)
  | index (collection position : ExpressionTerm)
deriving DecidableEq, Repr

/-- Something that waits for its last part. -/
inductive ExpressionFrame where
  | negation
  | operation (left : ExpressionTerm) (operator : BinaryOperator)
  | group
  | callOf (function : List String)
  | callWith (function : List String) (earlier : ExpressionTerm)
  | indexOf (collection : ExpressionTerm)
deriving DecidableEq, Repr

inductive ExpressionFocus where
  | start
  | path (names : List String)
  | name (names : List String)
  | operand (term : ExpressionTerm)
deriving DecidableEq, Repr

structure ExpressionReading where
  focus : ExpressionFocus
  frames : List ExpressionFrame
deriving DecidableEq, Repr

namespace ExpressionReading

open ExpressionTerm ExpressionFrame

def initial : ExpressionReading := ⟨.start, []⟩

/-- Completes the frames that bind at least as close as `strength`. -/
def settle (strength : Nat) : ExpressionTerm → List ExpressionFrame →
    ExpressionTerm × List ExpressionFrame
  | term, negation :: frames => settle strength (not term) frames
  | term, operation left operator :: frames =>
      if strength ≤ operator.strength then settle strength (binary operator left term) frames
      else (term, operation left operator :: frames)
  | term, frames => (term, frames)

/-- An operator after an operand. What binds closer is complete; an operator of the
same strength before it is completed from the left, or refused if both compare. -/
def operate (operator : BinaryOperator) (term : ExpressionTerm) (frames : List ExpressionFrame) :
    Option ExpressionReading :=
  match settle (operator.strength + 1) term frames with
  | (right, operation left earlier :: below) =>
      if earlier.strength < operator.strength then
        some ⟨.start, operation right operator :: operation left earlier :: below⟩
      else if operator.isComparison then none
      else some ⟨.start, operation (binary earlier left right) operator :: below⟩
  | (left, below) => some ⟨.start, operation left operator :: below⟩

def atStart (frames : List ExpressionFrame) : ExpressionToken → Option ExpressionReading
  | .word "true" => some ⟨.operand (boolean true), frames⟩
  | .word "false" => some ⟨.operand (boolean false), frames⟩
  | .word name => some ⟨.name [name], frames⟩
  | .number value => some ⟨.operand (number value), frames⟩
  | .literal value => some ⟨.operand (text value), frames⟩
  | .not => some ⟨.start, negation :: frames⟩
  | .opening => some ⟨.start, group :: frames⟩
  | _ => none

def afterOperand (term : ExpressionTerm) (frames : List ExpressionFrame) :
    ExpressionToken → Option ExpressionReading
  | .or => operate .or term frames
  | .and => operate .and term frames
  | .equal => operate .equal term frames
  | .different => operate .different term frames
  | .openingIndex => some ⟨.start, indexOf term :: frames⟩
  | .comma =>
      match settle 0 term frames with
      | (argument, callOf function :: below) => some ⟨.start, callWith function argument :: below⟩
      | (argument, callWith function earlier :: below) =>
          some ⟨.start, callWith function (arguments earlier argument) :: below⟩
      | _ => none
  | .closing =>
      match settle 0 term frames with
      | (inner, group :: below) => some ⟨.operand inner, below⟩
      | (argument, callOf function :: below) => some ⟨.operand (call function argument), below⟩
      | (argument, callWith function earlier :: below) =>
          some ⟨.operand (call function (arguments earlier argument)), below⟩
      | _ => none
  | .closingIndex =>
      match settle 0 term frames with
      | (position, indexOf collection :: below) =>
          some ⟨.operand (index collection position), below⟩
      | _ => none
  | _ => none

def step (reading : ExpressionReading) (token : ExpressionToken) : Option ExpressionReading :=
  match reading.focus, token with
  | .start, token => atStart reading.frames token
  | .path names, .word name => some ⟨.name (names ++ [name]), reading.frames⟩
  | .path _, _ => none
  | .name names, .path => some ⟨.path names, reading.frames⟩
  | .name names, .opening => some ⟨.start, callOf names :: reading.frames⟩
  | .name names, token => afterOperand (path names) reading.frames token
  | .operand term, token => afterOperand term reading.frames token

def steps (reading : ExpressionReading) : List ExpressionToken → Option ExpressionReading
  | [] => some reading
  | token :: rest => (reading.step token).bind fun next => next.steps rest

/-- The term that was read, when the expression may end here. -/
def result? (reading : ExpressionReading) : Option ExpressionTerm :=
  match reading.focus with
  | .name names => complete (path names)
  | .operand term => complete term
  | _ => none
where
  complete (term : ExpressionTerm) : Option ExpressionTerm :=
    match settle 0 term reading.frames with
    | (whole, []) => some whole
    | _ => none

end ExpressionReading

def ExpressionTerm.read (source : String) : Option ExpressionTerm :=
  (ExpressionToken.scan source.toList).bind fun tokens =>
    (ExpressionReading.initial.steps tokens).bind ExpressionReading.result?

namespace ExpressionReading

theorem steps_append (reading : ExpressionReading) (first second : List ExpressionToken) :
    reading.steps (first ++ second) =
      (reading.steps first).bind fun next => next.steps second := by
  induction first generalizing reading with
  | nil => rfl
  | cons token first induction =>
      simp only [List.cons_append, steps]
      cases reading.step token with
      | none => rfl
      | some next => exact induction next

def ReadsOperand (tokens : List ExpressionToken) (term : ExpressionTerm) : Prop :=
  ∀ frames, steps ⟨.start, frames⟩ tokens = some ⟨.operand term, frames⟩

/-- The tokens are read as a term that what comes next has to settle. -/
def Reads (tokens : List ExpressionToken) (term : ExpressionTerm) : Prop :=
  ∀ frames, ∃ last pending,
    steps ⟨.start, frames⟩ tokens = some ⟨.operand last, pending ++ frames⟩ ∧
      ∀ strength, settle strength last (pending ++ frames) = settle strength term frames

theorem ReadsOperand.reads {tokens : List ExpressionToken} {term : ExpressionTerm}
    (whole : ReadsOperand tokens term) : Reads tokens term :=
  fun frames => ⟨term, [], whole frames, fun _ => rfl⟩

theorem reads_negation {tokens : List ExpressionToken} {term : ExpressionTerm}
    (inner : ReadsOperand tokens term) : Reads (.not :: tokens) (.not term) :=
  fun frames => ⟨term, [.negation], inner (.negation :: frames), fun _ => rfl⟩

theorem after_operand_operator (operator : BinaryOperator) (term : ExpressionTerm)
    (frames : List ExpressionFrame) :
    afterOperand term frames operator.token = operate operator term frames := by
  cases operator <;> rfl

theorem reads_group {tokens : List ExpressionToken} {term : ExpressionTerm}
    (inner : Reads tokens term) : ReadsOperand (.opening :: tokens ++ [.closing]) term := by
  intro frames
  obtain ⟨last, pending, read, settles⟩ := inner (.group :: frames)
  have opens : step ⟨.start, frames⟩ .opening = some ⟨.start, .group :: frames⟩ := rfl
  rw [List.cons_append, steps, opens, Option.bind_some, steps_append, read]
  simp [steps, step, afterOperand, settles, settle]

/-- An operation in parentheses is read as one operand, whatever its operator. -/
theorem reads_operation (operator : BinaryOperator) {left right : List ExpressionToken}
    {leftTerm rightTerm : ExpressionTerm} (readsLeft : Reads left leftTerm)
    (readsRight : Reads right rightTerm) :
    ReadsOperand (.opening :: (left ++ operator.token :: right) ++ [.closing])
      (.binary operator leftTerm rightTerm) := by
  intro frames
  -- The group frame stops every settling, so what waits outside cannot reach the operands.
  let inner : List ExpressionFrame := .operation leftTerm operator :: .group :: frames
  obtain ⟨last, pending, read, settles⟩ := readsLeft (.group :: frames)
  obtain ⟨lastRight, pendingRight, readRight, settlesRight⟩ := readsRight inner
  have opens : step ⟨.start, frames⟩ .opening = some ⟨.start, .group :: frames⟩ := rfl
  have operates : step ⟨.operand last, pending ++ .group :: frames⟩ operator.token =
      some ⟨.start, inner⟩ := by
    simp [step, after_operand_operator, operate, settles, settle, inner]
  have closes : step ⟨.operand lastRight, pendingRight ++ inner⟩ .closing =
      some ⟨.operand (.binary operator leftTerm rightTerm), frames⟩ := by
    simp [step, afterOperand, settlesRight, settle, inner]
  rw [List.cons_append, steps, opens, Option.bind_some, List.append_assoc, steps_append, read,
    Option.bind_some, List.cons_append, steps, operates, Option.bind_some, steps_append, readRight,
    Option.bind_some, steps, closes]
  rfl

/-- Without parentheses the stronger operator takes its operands first. -/
example : ExpressionTerm.read "false || !true == false && true" =
    some (.binary .or (.boolean false)
      (.binary .and (.binary .equal (.not (.boolean true)) (.boolean false)) (.boolean true))) := by
  decide

end ExpressionReading

end PipelineWaves
