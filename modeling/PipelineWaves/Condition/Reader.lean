import PipelineWaves.Condition.Basic
import PipelineWaves.Condition.Token

/-!
# Reading conditions

A recursive descent over the tokens of a condition text, which keeps the position of the
next token. `not` binds closer than `and`, `and` closer than `or`, and both join from the
left. What a function has read carries that it took at least one token and none that is
not there; the descent ends by this.
-/

set_option autoImplicit false

namespace PipelineWaves

namespace ConditionToken

def comparison? : ConditionToken → Option Comparison
  | equal => some .equal
  | different => some .different
  | _ => none

def operand? : ConditionToken → Option Operand
  | .variable name => some (.variable name)
  | literal text => some (.literal text)
  | _ => none

def outcomeWord? : ConditionToken → Option StepOutcome
  | word text => StepOutcome.ofConditionWord? text
  | _ => none

end ConditionToken

namespace ConditionParser

/-- The condition that was read from one position on, and the position behind it. -/
structure Parsed (tokens : List PlacedToken) (start : Nat) where
  condition : Condition
  position : Nat
  advances : start < position
  within : position ≤ tokens.length

abbrev Answer (tokens : List PlacedToken) (start : Nat) :=
  Except ConditionSyntaxError (Parsed tokens start)

def Parsed.endOf {tokens : List PlacedToken} {start later : Nat} (last : Parsed tokens later)
    (earlier : start ≤ later) (condition : Condition) : Parsed tokens start :=
  ⟨condition, last.position, Nat.lt_of_le_of_lt earlier last.advances, last.within⟩

variable (finish : Nat) (tokens : List PlacedToken)

def peek? (position : Nat) : Option ConditionToken :=
  tokens[position]?.map PlacedToken.token

/-- The token at a position; `finish` is the offset of the end of the text. -/
def next (position : Nat) :
    Except ConditionSyntaxError { _placed : PlacedToken // position < tokens.length } :=
  if inside : position < tokens.length then .ok ⟨tokens[position], inside⟩
  else .error ⟨finish, .unexpectedEnd⟩

/-- Whether an operator stands at a position, as its symbol or as its word. -/
def eats (symbol : ConditionToken) (keyword : String) (position : Nat) : Bool :=
  match peek? tokens position with
  | some (.word text) => text = keyword
  | some token => token = symbol
  | none => false

theorem lt_length_of_peek {tokens : List PlacedToken} {position : Nat} {token : ConditionToken}
    (found : peek? tokens position = some token) : position < tokens.length := by
  obtain ⟨placed, stands, -⟩ := Option.map_eq_some_iff.1 found
  exact (List.getElem?_eq_some_iff.1 stands).1

theorem lt_length_of_eats {tokens : List PlacedToken} {symbol : ConditionToken}
    {keyword : String} {position : Nat} (eaten : eats tokens symbol keyword position = true) :
    position < tokens.length := by
  unfold eats at eaten
  split at eaten
  · next found => exact lt_length_of_peek found
  · next found => exact lt_length_of_peek found
  · cases eaten

/-- An operand at `start` is compared with the one behind it, or stands alone. -/
def finishOperand (start : Nat) (inside : start < tokens.length) (left : Operand) :
    Answer tokens start :=
  match (peek? tokens (start + 1)).bind ConditionToken.comparison? with
  | none => .ok ⟨.truthy left, start + 1, Nat.lt_succ_self start, inside⟩
  | some how =>
      match next finish tokens (start + 2) with
      | .error failure => .error failure
      | .ok ⟨second, within⟩ =>
          match second.token.operand? with
          | some right => .ok ⟨.compare left how right, start + 3, by omega, within⟩
          | none => .error ⟨second.position, .expectedOperand second.token⟩

/-- A step at `start` is asked for the outcome behind it. -/
def finishStep (start : Nat) (step : String) : Answer tokens start :=
  match next finish tokens (start + 1) with
  | .error failure => .error failure
  | .ok ⟨second, within⟩ =>
      match second.token.outcomeWord? with
      | some outcome => .ok ⟨.stepIs step outcome, start + 2, by omega, within⟩
      | none => .error ⟨second.position, .expectedOutcome step second.token⟩

/-- What stands in the parentheses that open at `start` ends with the closing one. -/
def finishGroup (start : Nat) (inner : Parsed tokens (start + 1)) : Answer tokens start :=
  match next finish tokens inner.position with
  | .error failure => .error failure
  | .ok ⟨last, within⟩ =>
      if last.token = .closing then
        .ok ⟨inner.condition, inner.position + 1, by have := inner.advances; omega, within⟩
      else .error ⟨last.position, .expectedClosing last.token⟩

-- The tokens that are left decrease. Where none is taken, the function called stands lower
-- in the descent, which the last summand counts.
mutual

def parseOr (start : Nat) : Answer tokens start :=
  match parseAnd start with
  | .error failure => .error failure
  | .ok left => joinOr start left
termination_by 6 * (tokens.length - start) + 5
decreasing_by
  · omega
  · have := left.advances
    have := left.within
    omega

def joinOr (start : Nat) (left : Parsed tokens start) : Answer tokens start :=
  if eaten : eats tokens .or "or" left.position then
    match parseAnd (left.position + 1) with
    | .error failure => .error failure
    | .ok right =>
        joinOr start (right.endOf (by have := left.advances; omega)
          (.or left.condition right.condition))
  else .ok left
termination_by 6 * (tokens.length - left.position) + 4
decreasing_by
  · omega
  · have := right.advances
    have := lt_length_of_eats eaten
    simp only [Parsed.endOf]
    omega

def parseAnd (start : Nat) : Answer tokens start :=
  match parseUnary start with
  | .error failure => .error failure
  | .ok left => joinAnd start left
termination_by 6 * (tokens.length - start) + 3
decreasing_by
  · omega
  · have := left.advances
    have := left.within
    omega

def joinAnd (start : Nat) (left : Parsed tokens start) : Answer tokens start :=
  if eaten : eats tokens .and "and" left.position then
    match parseUnary (left.position + 1) with
    | .error failure => .error failure
    | .ok right =>
        joinAnd start (right.endOf (by have := left.advances; omega)
          (.and left.condition right.condition))
  else .ok left
termination_by 6 * (tokens.length - left.position) + 2
decreasing_by
  · omega
  · have := right.advances
    have := lt_length_of_eats eaten
    simp only [Parsed.endOf]
    omega

def parseUnary (start : Nat) : Answer tokens start :=
  if _ : eats tokens .not "not" start then
    match parseUnary (start + 1) with
    | .error failure => .error failure
    | .ok inner => .ok (inner.endOf (Nat.le_succ start) (.not inner.condition))
  else parsePrimary start
termination_by 6 * (tokens.length - start) + 1
decreasing_by
  · have := lt_length_of_eats ‹_›
    omega
  · omega

def parsePrimary (start : Nat) : Answer tokens start :=
  match next finish tokens start with
  | .error failure => .error failure
  | .ok ⟨first, inside⟩ =>
      match first.token with
      | .opening =>
          match parseOr (start + 1) with
          | .error failure => .error failure
          | .ok inner => finishGroup finish tokens start inner
      | .word text =>
          if text = "true" then .ok ⟨.constant true, start + 1, Nat.lt_succ_self start, inside⟩
          else if text = "false" then
            .ok ⟨.constant false, start + 1, Nat.lt_succ_self start, inside⟩
          else finishStep finish tokens start text
      | .variable name => finishOperand finish tokens start inside (.variable name)
      | .literal text => finishOperand finish tokens start inside (.literal text)
      | other => .error ⟨first.position, .unexpectedToken other⟩
termination_by 6 * (tokens.length - start)
decreasing_by omega

end

end ConditionParser

namespace Condition

def ofTokens (finish : Nat) (tokens : List PlacedToken) : Except ConditionSyntaxError Condition :=
  match ConditionParser.parseOr finish tokens 0 with
  | .error failure => .error failure
  | .ok whole =>
      match tokens[whole.position]? with
      | none => .ok whole.condition
      | some extra => .error ⟨extra.position, .unexpectedToken extra.token⟩

def parse (source : String) : Except ConditionSyntaxError Condition :=
  match ConditionToken.scan source with
  | .error failure => .error failure
  | .ok tokens => ofTokens source.utf8ByteSize tokens

end Condition

end PipelineWaves
