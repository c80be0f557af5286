import PipelineWaves.Proofs.Attempt
import PipelineWaves.Proofs.Program.Value

/-!
# Written expressions

The text of an expression is read back with the structure that the expression
has. First the text has the tokens it should have, whatever its literals contain,
then the tokens are read as one term. A negated part keeps its own parentheses if
its text starts and ends with one, and that is so exactly when it is one operand.
-/

set_option autoImplicit false

namespace PipelineWaves

open ExpressionToken

def Operand.tokens : Operand → List ExpressionToken
  | .variable name => [.word "env_get", .opening, .word "env", .comma, .literal name, .closing]
  | .literal text => [.literal text]

namespace ProgramExpression

def tokens : ProgramExpression → List ExpressionToken
  | constant value => [.word (if value then "true" else "false")]
  | truthy name => .word "truthy" :: .opening :: (Operand.variable name).tokens ++ [.closing]
  | compare left how right =>
      .opening :: (left.tokens ++ how.operator.token :: right.tokens) ++ [.closing]
  | outcomeIs index outcome =>
      .opening ::
        ([.word "outcomes", .openingIndex, .number index, .closingIndex] ++ .equal ::
          [.word "Some", .opening, .word "Outcome", .path, .word (outcomeText outcome), .closing])
        ++ [.closing]
  | not inner =>
      .not :: if inner.isEnclosed then inner.tokens else .opening :: inner.tokens ++ [.closing]
  | and left right => .opening :: (left.tokens ++ .and :: right.tokens) ++ [.closing]
  | or left right => .opening :: (left.tokens ++ .or :: right.tokens) ++ [.closing]

end ProgramExpression

theorem ends_word_cons {first : Char} (rest : List Char) (stops : continuesWord first = false) :
    EndsWord (first :: rest) := by
  intro character same
  cases same
  exact stops

theorem scan_opening (rest : List Char) : scan ('(' :: rest) = prepend [.opening] (scan rest) := rfl

theorem scan_closing (rest : List Char) : scan (')' :: rest) = prepend [.closing] (scan rest) := rfl

theorem scan_not_opening (rest : List Char) :
    scan ('!' :: '(' :: rest) = prepend [.not] (scan ('(' :: rest)) := rfl

theorem scan_operator (operator : BinaryOperator) (rest : List Char) :
    scan (' ' :: (operator.symbol.toList ++ ' ' :: rest)) =
      prepend [operator.token] (scan rest) := by
  cases operator <;> rfl

theorem scan_truthy (rest : List Char) :
    scan ("truthy(".toList ++ rest) = prepend [.word "truthy", .opening] (scan rest) := by
  have each : scan ("truthy(".toList ++ rest) =
      prepend [.word "truthy"] (prepend [.opening] (scan rest)) := rfl
  simp only [each, prepend_prepend, List.cons_append, List.nil_append]

theorem scan_env_get (rest : List Char) :
    scan ("env_get(env, ".toList ++ rest) =
      prepend [.word "env_get", .opening, .word "env", .comma] (scan rest) := by
  have each : scan ("env_get(env, ".toList ++ rest) =
      prepend [.word "env_get"] (prepend [.opening]
        (prepend [.word "env"] (prepend [.comma] (scan rest)))) := rfl
  simp only [each, prepend_prepend, List.cons_append, List.nil_append]

theorem scan_outcomes (rest : List Char) :
    scan ("(outcomes[".toList ++ rest) =
      prepend [.opening, .word "outcomes", .openingIndex] (scan rest) := by
  have each : scan ("(outcomes[".toList ++ rest) =
      prepend [.opening] (prepend [.word "outcomes"] (prepend [.openingIndex] (scan rest))) := rfl
  simp only [each, prepend_prepend, List.cons_append, List.nil_append]

theorem scan_some_outcome (outcome : StepOutcome) (rest : List Char) :
    scan ("] == Some(Outcome::".toList ++
        ((ProgramExpression.outcomeText outcome).toList ++ "))".toList ++ rest)) =
      prepend [.closingIndex, .equal, .word "Some", .opening, .word "Outcome", .path,
        .word (ProgramExpression.outcomeText outcome), .closing, .closing] (scan rest) := by
  have each : scan ("] == Some(Outcome::".toList ++
        ((ProgramExpression.outcomeText outcome).toList ++ "))".toList ++ rest)) =
      prepend [.closingIndex] (prepend [.equal] (prepend [.word "Some"] (prepend [.opening]
        (prepend [.word "Outcome"] (prepend [.path]
          (prepend [.word (ProgramExpression.outcomeText outcome)]
            (prepend [.closing] (prepend [.closing] (scan rest))))))))) := by
    cases outcome <;> rfl
  simp only [each, prepend_prepend, List.cons_append, List.nil_append]

theorem scans_quoted {context text literal : String}
    (quoted : ProgramText.quote context text = .ok literal) :
    Scans literal.toList [.literal text] := by
  rw [ProgramText.quote_ok quoted]
  simpa using scans_literal text.toList

theorem scans_operand {context written : String} {operand : Operand}
    (writes : ProgramExpression.operandText context operand = .ok written) :
    Scans written.toList operand.tokens := by
  match operand with
  | .literal text => exact scans_quoted writes
  | .variable name =>
      obtain ⟨literal, quoted, same⟩ := except_bind_ok writes
      cases same
      intro rest ends
      have inner := scans_quoted quoted (')' :: rest) (ends_word_cons rest (by decide))
      have shape : (s!"env_get(env, {literal})").toList ++ rest =
          "env_get(env, ".toList ++ (literal.toList ++ ')' :: rest) := by
        simp [toString]
      rw [shape, scan_env_get, inner, scan_closing]
      simp [Operand.tokens]

/-- A text in parentheses has the tokens of what it encloses. -/
theorem scans_group {source inner : String} {tokens : List ExpressionToken}
    (shape : source.toList = '(' :: (inner.toList ++ [')'])) (scans : Scans inner.toList tokens) :
    Scans source.toList (.opening :: tokens ++ [.closing]) := by
  intro rest ends
  have inside := scans (')' :: rest) (ends_word_cons rest (by decide))
  rw [shape, List.cons_append, List.append_assoc, List.singleton_append, scan_opening, inside,
    scan_closing]
  simp

/-- A text in parentheses that joins two texts has the tokens of both. -/
theorem scans_operation (operator : BinaryOperator) {source left right : String}
    {leftTokens rightTokens : List ExpressionToken}
    (shape : source.toList = '(' :: (left.toList ++
      ' ' :: (operator.symbol.toList ++ ' ' :: (right.toList ++ [')']))))
    (scansLeft : Scans left.toList leftTokens) (scansRight : Scans right.toList rightTokens) :
    Scans source.toList
      (.opening :: (leftTokens ++ operator.token :: rightTokens) ++ [.closing]) := by
  intro rest ends
  have inRight := scansRight (')' :: rest) (ends_word_cons rest (by decide))
  have inLeft := scansLeft (' ' :: (operator.symbol.toList ++ ' ' :: (right.toList ++ ')' :: rest)))
    (ends_word_cons _ (by decide))
  simp only [shape, List.cons_append, List.append_assoc, List.nil_append]
  rw [scan_opening, inLeft, scan_operator, inRight, scan_closing]
  simp

theorem scans_outcome_is (index : Nat) (outcome : StepOutcome) :
    let named := ProgramExpression.outcomeText outcome
    Scans (s!"(outcomes[{index}] == Some(Outcome::{named}))").toList
      (ProgramExpression.outcomeIs index outcome).tokens := by
  intro named rest ends
  have shape : (s!"(outcomes[{index}] == Some(Outcome::{named}))").toList ++ rest =
      "(outcomes[".toList ++ (Nat.toDigits 10 index ++ ("] == Some(Outcome::".toList ++
        ((ProgramExpression.outcomeText outcome).toList ++ "))".toList ++ rest))) := by
    simp [toString, named]
  have number := scans_number index ("] == Some(Outcome::".toList ++
    ((ProgramExpression.outcomeText outcome).toList ++ "))".toList ++ rest))
    (ends_word_cons _ (by decide))
  rw [shape, scan_outcomes, number, scan_some_outcome]
  simp [ProgramExpression.tokens]

/-- Puts a text in parentheses unless it starts and ends with one. -/
def ProgramText.wrap (text : String) : String :=
  if text.toList.head? = some '(' ∧ text.toList.getLast? = some ')' then text else s!"({text})"

namespace ProgramExpression

theorem wrap_of_enclosed {text : String} (first : text.toList.head? = some '(')
    (last : text.toList.getLast? = some ')') : ProgramText.wrap text = text := by
  rw [ProgramText.wrap, if_pos ⟨first, last⟩]

theorem wrap_of_bare {text : String} (first : text.toList.head? ≠ some '(') :
    ProgramText.wrap text = s!"({text})" := by
  rw [ProgramText.wrap, if_neg]
  exact fun both => first both.1

theorem wrap_opens (text : String) : ∃ more, (ProgramText.wrap text).toList = '(' :: more := by
  by_cases enclosed : text.toList.head? = some '(' ∧ text.toList.getLast? = some ')'
  · rw [ProgramText.wrap, if_pos enclosed]
    exact List.head?_eq_some_iff.1 enclosed.1
  · rw [ProgramText.wrap, if_neg enclosed]
    exact ⟨text.toList ++ [')'], by simp [toString]⟩

/-- The test of the first and the last character finds exactly the enclosed expressions. -/
theorem wrap_text {context source : String} {expression : ProgramExpression}
    (written : text context expression = .ok source) :
    ProgramText.wrap source = if expression.isEnclosed then source else s!"({source})" := by
  cases expression with
  | constant value =>
      cases written
      cases value <;> rfl
  | truthy name =>
      obtain ⟨literal, _, same⟩ := except_bind_ok written
      cases same
      exact wrap_of_bare (by simp [toString])
  | compare left how right =>
      obtain ⟨leftText, _, written⟩ := except_bind_ok written
      obtain ⟨rightText, _, written⟩ := except_bind_ok written
      cases written
      exact wrap_of_enclosed (by simp [toString])
        (by simp [toString, List.getLast?_cons, List.getLast?_append])
  | outcomeIs index outcome =>
      cases written
      exact wrap_of_enclosed (by simp [toString])
        (by simp [toString, List.getLast?_cons, List.getLast?_append])
  | not inner =>
      obtain ⟨innerText, _, written⟩ := except_bind_ok written
      cases written
      apply wrap_of_bare
      cases inner.isEnclosed <;> simp [toString]
  | and left right =>
      obtain ⟨leftText, _, written⟩ := except_bind_ok written
      obtain ⟨rightText, _, written⟩ := except_bind_ok written
      cases written
      exact wrap_of_enclosed (by simp [toString])
        (by simp [toString, List.getLast?_cons, List.getLast?_append])
  | or left right =>
      obtain ⟨leftText, _, written⟩ := except_bind_ok written
      obtain ⟨rightText, _, written⟩ := except_bind_ok written
      cases written
      exact wrap_of_enclosed (by simp [toString])
        (by simp [toString, List.getLast?_cons, List.getLast?_append])

theorem text_not {context source : String} {inner : ProgramExpression}
    (written : text context (.not inner) = .ok source) :
    ∃ innerSource, text context inner = .ok innerSource ∧
      source = "!" ++ ProgramText.wrap innerSource := by
  obtain ⟨innerSource, innerWritten, same⟩ := except_bind_ok written
  cases same
  refine ⟨innerSource, innerWritten, ?_⟩
  rw [wrap_text innerWritten, ← String.toList_inj]
  cases inner.isEnclosed <;> simp [toString]

theorem scans_truthy {context source name : String}
    (written : text context (.truthy name) = .ok source) :
    Scans source.toList (truthy name).tokens := by
  obtain ⟨literal, quoted, same⟩ := except_bind_ok written
  cases same
  intro rest ends
  have inner := scans_quoted quoted (')' :: ')' :: rest) (ends_word_cons _ (by decide))
  have shape : (s!"truthy(env_get(env, {literal}))").toList ++ rest =
      "truthy(".toList ++ ("env_get(env, ".toList ++ (literal.toList ++ ')' :: ')' :: rest)) := by
    simp [toString]
  rw [shape, scan_truthy, scan_env_get, inner, scan_closing, scan_closing]
  simp [tokens, Operand.tokens]

/-- A negation sign is a token of its own, as what it negates starts with a parenthesis. -/
theorem scans_not {text : String} {tokens : List ExpressionToken}
    (scans : Scans (ProgramText.wrap text).toList tokens) :
    Scans ("!" ++ ProgramText.wrap text).toList (.not :: tokens) := by
  intro rest ends
  have inner := scans rest ends
  obtain ⟨more, opens⟩ := wrap_opens text
  rw [opens, List.cons_append] at inner
  have shape : ("!" ++ ProgramText.wrap text).toList ++ rest = '!' :: '(' :: (more ++ rest) := by
    simp [opens]
  rw [shape, scan_not_opening, inner]
  simp

/-- The text of an expression has its tokens. -/
theorem scans_text {context source : String} {expression : ProgramExpression}
    (written : text context expression = .ok source) : Scans source.toList expression.tokens := by
  induction expression generalizing source with
  | constant value =>
      cases written
      cases value
      · exact scans_run (by decide) rfl
      · exact scans_run (by decide) rfl
  | truthy name => exact scans_truthy written
  | compare left how right =>
      obtain ⟨leftText, leftWritten, written⟩ := except_bind_ok written
      obtain ⟨rightText, rightWritten, written⟩ := except_bind_ok written
      cases written
      apply scans_operation how.operator _ (scans_operand leftWritten) (scans_operand rightWritten)
      cases how <;> simp [toString, Comparison.operator, BinaryOperator.symbol, comparisonText]
  | outcomeIs index outcome =>
      cases written
      exact scans_outcome_is index outcome
  | not inner induction =>
      obtain ⟨innerText, innerWritten, same⟩ := text_not written
      subst same
      apply scans_not
      rw [wrap_text innerWritten]
      cases inner.isEnclosed
      · exact scans_group (by simp [toString]) (induction innerWritten)
      · exact induction innerWritten
  | and left right leftInduction rightInduction =>
      obtain ⟨leftText, leftWritten, written⟩ := except_bind_ok written
      obtain ⟨rightText, rightWritten, written⟩ := except_bind_ok written
      cases written
      apply scans_operation .and _ (leftInduction leftWritten) (rightInduction rightWritten)
      simp [toString, BinaryOperator.symbol]
  | or left right leftInduction rightInduction =>
      obtain ⟨leftText, leftWritten, written⟩ := except_bind_ok written
      obtain ⟨rightText, rightWritten, written⟩ := except_bind_ok written
      cases written
      apply scans_operation .or _ (leftInduction leftWritten) (rightInduction rightWritten)
      simp [toString, BinaryOperator.symbol]

open ExpressionReading

theorem reads_variable (name : String) :
    ReadsOperand (Operand.variable name).tokens (Operand.variable name).term :=
  fun _ => rfl

theorem reads_operand (operand : Operand) : ReadsOperand operand.tokens operand.term := by
  match operand with
  | .literal text => exact fun _ => rfl
  | .variable name => exact reads_variable name

theorem reads_outcome_at (index : Nat) :
    ReadsOperand [.word "outcomes", .openingIndex, .number index, .closingIndex]
      (.index (.path ["outcomes"]) (.number index)) :=
  fun _ => rfl

theorem reads_some_outcome (outcome : StepOutcome) :
    ReadsOperand
      [.word "Some", .opening, .word "Outcome", .path, .word (outcomeText outcome), .closing]
      (.call ["Some"] (.path ["Outcome", outcomeText outcome])) := by
  intro frames
  cases outcome <;> rfl

/-- The tokens of an expression are read as its term, those of an enclosed one as an operand. -/
theorem reads_tokens (expression : ProgramExpression) :
    Reads expression.tokens expression.term ∧
      (expression.isEnclosed = true → ReadsOperand expression.tokens expression.term) := by
  induction expression with
  | constant value =>
      have whole : ReadsOperand (constant value).tokens (constant value).term := by
        intro frames
        cases value <;> rfl
      exact ⟨whole.reads, fun _ => whole⟩
  | truthy name =>
      have whole : ReadsOperand (truthy name).tokens (truthy name).term := fun _ => rfl
      exact ⟨whole.reads, fun _ => whole⟩
  | compare left how right =>
      have whole := reads_operation how.operator (reads_operand left).reads
        (reads_operand right).reads
      exact ⟨whole.reads, fun _ => whole⟩
  | outcomeIs index outcome =>
      have whole := reads_operation .equal (reads_outcome_at index).reads
        (reads_some_outcome outcome).reads
      exact ⟨whole.reads, fun _ => whole⟩
  | not inner induction =>
      refine ⟨reads_negation ?_, fun enclosed => by cases enclosed⟩
      cases enclosed : inner.isEnclosed with
      | false => exact reads_group induction.1
      | true => exact induction.2 enclosed
  | and left right leftInduction rightInduction =>
      have whole := reads_operation .and leftInduction.1 rightInduction.1
      exact ⟨whole.reads, fun _ => whole⟩
  | or left right leftInduction rightInduction =>
      have whole := reads_operation .or leftInduction.1 rightInduction.1
      exact ⟨whole.reads, fun _ => whole⟩

/-- The text of an expression has exactly the structure of the expression. -/
theorem read_text {context source : String} {expression : ProgramExpression}
    (written : text context expression = .ok source) :
    ExpressionTerm.read source = some expression.term := by
  have tokens : scan source.toList = some expression.tokens := by
    have scanned := scans_text written [] (fun _ none => by cases none)
    simpa [prepend, scan, scanFrom] using scanned
  obtain ⟨last, pending, read, settles⟩ := (reads_tokens expression).1 []
  have whole : ExpressionReading.result? ⟨.operand last, pending⟩ = some expression.term := by
    have settled : settle 0 last pending = settle 0 expression.term [] := by
      simpa using settles 0
    simp only [ExpressionReading.result?, ExpressionReading.result?.complete, settled, settle]
  rw [ExpressionTerm.read, tokens, Option.bind_some, ExpressionReading.initial, read,
    Option.bind_some, List.append_nil, whole]

end ProgramExpression

end PipelineWaves
