import PipelineWaves.Proofs.Condition.Automaton
import PipelineWaves.Proofs.Condition.Grammar

/-!
# Readings and derivations

Reading accepts exactly the token lists that the grammar derives and gives the
condition of the derivation. From left to right: the tokens of a tree bring a reading
from where something may start to where it is complete, and what the levels hold then
is the condition of the tree. From right to left: at every moment the tokens read so
far split into a beginning for each open level and what stands in the innermost
parentheses, and every one of these parts has a tree.
-/

set_option autoImplicit false

namespace PipelineWaves

open ConditionGrammar

namespace ConditionReading

/-- The reading after some tokens, unless one of them is refused. -/
def after? (reading : ConditionReading) : List ConditionToken → Option ConditionReading
  | [] => some reading
  | token :: rest =>
      match reading.step token with
      | .ok next => next.after? rest
      | .error _ => none

theorem after_append (reading : ConditionReading) (first second : List ConditionToken) :
    reading.after? (first ++ second) =
      (reading.after? first).bind fun next => next.after? second := by
  induction first generalizing reading with
  | nil => rfl
  | cons token first induction =>
      simp only [List.cons_append, after?]
      cases reading.step token with
      | error fault => rfl
      | ok next => exact induction next

theorem after_cons {reading next : ConditionReading} {token : ConditionToken}
    (passes : reading.step token = .ok next) (rest : List ConditionToken) :
    reading.after? (token :: rest) = next.after? rest := by
  simp only [after?, passes]

theorem after_singleton {reading next : ConditionReading} {token : ConditionToken}
    (passes : reading.step token = .ok next) : reading.after? [token] = some next :=
  after_cons passes []

theorem run_ok_iff {reading : ConditionReading} {finish : Nat} {placed : List PlacedToken}
    {condition : Condition} : reading.run finish placed = .ok condition ↔
      ∃ last, reading.after? (placed.map PlacedToken.token) = some last ∧
        last.result? = some condition := by
  induction placed generalizing reading with
  | nil => cases ended : reading.result? <;> simp [run, after?, ended]
  | cons first placed induction =>
      simp only [run, List.map_cons, after?]
      cases reading.step first.token with
      | error fault => simp
      | ok following => exact induction

theorem step_complete {reading : ConditionReading} {primary : Condition} {token : ConditionToken}
    (complete : reading.primary? = some primary) (free : token ∉ comparisonTokens) :
    reading.step token = reading.afterPrimary primary token := by
  obtain ⟨focus, level, enclosing⟩ := reading
  cases focus with
  | operand left =>
      cases complete
      have bare : token.comparison? = none := by
        cases token <;> first | rfl | exact absurd (by decide) free
      simp only [step, bare]
  | primary condition =>
      cases complete
      rfl
  | start => cases complete
  | stepName step => cases complete
  | comparison left how => cases complete

theorem step_and {reading : ConditionReading} {primary : Condition} (spelling : Spelling)
    (complete : reading.primary? = some primary) :
    reading.step spelling.and =
      .ok ⟨.start, reading.level.afterAnd primary, reading.enclosing⟩ := by
  rw [step_complete complete (by cases spelling <;> decide)]
  cases spelling <;> rfl

theorem step_or {reading : ConditionReading} {primary : Condition} (spelling : Spelling)
    (complete : reading.primary? = some primary) :
    reading.step spelling.or =
      .ok ⟨.start, reading.level.afterOr primary, reading.enclosing⟩ := by
  rw [step_complete complete (by cases spelling <;> decide)]
  cases spelling <;> rfl

theorem step_closing {reading : ConditionReading} {primary : Condition} {outer : ConditionLevel}
    {others : List ConditionLevel} (complete : reading.primary? = some primary)
    (within : reading.enclosing = outer :: others) :
    reading.step .closing = .ok ⟨.primary (reading.level.disjunction primary), outer, others⟩ := by
  rw [step_complete complete (by decide)]
  simp [afterPrimary, within]

theorem step_not (spelling : Spelling) (level : ConditionLevel) (enclosing : List ConditionLevel) :
    step ⟨.start, level, enclosing⟩ spelling.not = .ok ⟨.start, level.afterNot, enclosing⟩ := by
  cases spelling <;> rfl

/-- The tokens lead from one reading to another in the same parentheses, where a primary
condition is complete. -/
structure Completes (reading : ConditionReading) (tokens : List ConditionToken)
    (next : ConditionReading) (primary : Condition) : Prop where
  reads : reading.after? tokens = some next
  complete : next.primary? = some primary
  enclosing : next.enclosing = reading.enclosing

theorem Completes.trans {reading middle next : ConditionReading}
    {first second : List ConditionToken} {inner primary : Condition}
    (begins : Completes reading first middle inner) (ends : Completes middle second next primary) :
    Completes reading (first ++ second) next primary where
  reads := by rw [after_append, begins.reads, Option.bind_some, ends.reads]
  complete := ends.complete
  enclosing := ends.enclosing.trans begins.enclosing

theorem Completes.cons {reading middle next : ConditionReading} {token : ConditionToken}
    {tokens : List ConditionToken} {primary : Condition} (passes : reading.step token = .ok middle)
    (same : middle.enclosing = reading.enclosing) (ends : Completes middle tokens next primary) :
    Completes reading (token :: tokens) next primary where
  reads := by rw [after_cons passes, ends.reads]
  complete := ends.complete
  enclosing := ends.enclosing.trans same

theorem Completes.refl {reading : ConditionReading} {primary : Condition}
    (complete : reading.primary? = some primary) : Completes reading [] reading primary :=
  ⟨rfl, complete, rfl⟩

end ConditionReading

open ConditionReading

namespace ConditionGrammar

theorem completes_operand (left : Operand) (compared : Option (Comparison × Operand))
    (level : ConditionLevel) (enclosing : List ConditionLevel) :
    ∃ focus, Completes ⟨.start, level, enclosing⟩ (operandToken left :: comparedTokens compared)
      ⟨focus, level, enclosing⟩ (operandCondition left compared) := by
  have opens : ConditionReading.step ⟨.start, level, enclosing⟩ (operandToken left) =
      .ok ⟨.operand left, level, enclosing⟩ := by
    cases left <;> rfl
  match compared with
  | none => exact ⟨.operand left, after_singleton opens, rfl, rfl⟩
  | some (how, right) =>
      have compares : ConditionReading.step ⟨.operand left, level, enclosing⟩ (comparisonToken how) =
          .ok ⟨.comparison left how, level, enclosing⟩ := by
        cases how <;> rfl
      have ends : ConditionReading.step ⟨.comparison left how, level, enclosing⟩
          (operandToken right) = .ok ⟨.primary (.compare left how right), level, enclosing⟩ := by
        cases right <;> rfl
      refine ⟨.primary (.compare left how right), ?_, rfl, rfl⟩
      rw [after_cons opens, comparedTokens, after_cons compares, after_singleton ends]

theorem completes_constant (value : Bool) (level : ConditionLevel)
    (enclosing : List ConditionLevel) :
    Completes ⟨.start, level, enclosing⟩ [constantToken value]
      ⟨.primary (.constant value), level, enclosing⟩ (.constant value) where
  reads := by cases value <;> rfl
  complete := rfl
  enclosing := rfl

theorem completes_step (word : StepWord) (outcome : StepOutcome) (level : ConditionLevel)
    (enclosing : List ConditionLevel) :
    Completes ⟨.start, level, enclosing⟩ [.word word.val, outcomeToken outcome]
      ⟨.primary (.stepIs word.val outcome), level, enclosing⟩ (.stepIs word.val outcome) where
  reads := by
    have free : word.val ≠ "true" ∧ word.val ≠ "false" ∧ word.val ≠ "not" := by
      simpa [reservedWords] using word.property
    have opens : ConditionReading.step ⟨.start, level, enclosing⟩ (.word word.val) =
        .ok ⟨.stepName word.val, level, enclosing⟩ := by
      simp [ConditionReading.step, atStart, free]
    have ends : ConditionReading.step ⟨.stepName word.val, level, enclosing⟩
        (outcomeToken outcome) = .ok ⟨.primary (.stepIs word.val outcome), level, enclosing⟩ := by
      simp [ConditionReading.step, outcomeToken, ConditionToken.outcomeWord?,
        StepOutcome.ofConditionWord?_conditionWord]
    rw [after_cons opens, after_singleton ends]
  complete := rfl
  enclosing := rfl

-- By induction on the trees. A negation and a chain leave something on their level; what
-- is kept is that the level, joined with the last primary condition, gives their condition.
mutual

theorem Disjunction.completes (tree : Disjunction) (enclosing : List ConditionLevel) :
    ∃ next primary, Completes ⟨.start, .fresh, enclosing⟩ tree.tokens next primary ∧
      next.level.disjunction primary = tree.condition := by
  match tree with
  | .of first others =>
      obtain ⟨middle, inner, begins, alternatives, joined⟩ := first.completes none enclosing
      obtain ⟨next, primary, ends, whole⟩ := others.completes begins.complete
      refine ⟨next, primary, begins.trans ends, ?_⟩
      rw [whole, Disjunction.condition, ConditionLevel.disjunction, alternatives, joined]

theorem Alternatives.completes (tree : Alternatives) {reading : ConditionReading}
    {left : Condition} (complete : reading.primary? = some left) :
    ∃ next primary, Completes reading tree.tokens next primary ∧
      next.level.disjunction primary = tree.join (reading.level.disjunction left) := by
  match tree with
  | .none => exact ⟨reading, left, .refl complete, rfl⟩
  | .or spelling conjunction others =>
      obtain ⟨middle, inner, begins, alternatives, joined⟩ :=
        conjunction.completes (some (reading.level.disjunction left)) reading.enclosing
      obtain ⟨next, primary, ends, whole⟩ := others.completes begins.complete
      refine ⟨next, primary, (begins.trans ends).cons (step_or spelling complete) rfl, ?_⟩
      rw [whole, Alternatives.join, ConditionLevel.disjunction, alternatives, joined]

theorem Conjunction.completes (tree : Conjunction) (alternatives : Option Condition)
    (enclosing : List ConditionLevel) :
    ∃ next primary, Completes ⟨.start, ⟨alternatives, none, 0⟩, enclosing⟩ tree.tokens next primary ∧
      next.level.alternatives = alternatives ∧
      next.level.conjunction primary = tree.condition := by
  match tree with
  | .of first others =>
      obtain ⟨middle, inner, begins, kept, joined⟩ :=
        first.completes ⟨alternatives, none, 0⟩ enclosing
      obtain ⟨next, primary, ends, keptLater, whole⟩ := others.completes begins.complete
      refine ⟨next, primary, begins.trans ends, keptLater.trans kept, ?_⟩
      rw [whole, joined]
      rfl

theorem Conjuncts.completes (tree : Conjuncts) {reading : ConditionReading}
    {left : Condition} (complete : reading.primary? = some left) :
    ∃ next primary, Completes reading tree.tokens next primary ∧
      next.level.alternatives = reading.level.alternatives ∧
      next.level.conjunction primary = tree.join (reading.level.conjunction left) := by
  match tree with
  | .none => exact ⟨reading, left, .refl complete, rfl, rfl⟩
  | .and spelling negation others =>
      obtain ⟨middle, inner, begins, kept, joined⟩ :=
        negation.completes (reading.level.afterAnd left) reading.enclosing
      obtain ⟨next, primary, ends, keptLater, whole⟩ := others.completes begins.complete
      refine ⟨next, primary, (begins.trans ends).cons (step_and spelling complete) rfl,
        keptLater.trans kept, ?_⟩
      rw [whole, joined]
      rfl

theorem Negation.completes (tree : Negation) (level : ConditionLevel)
    (enclosing : List ConditionLevel) :
    ∃ next primary, Completes ⟨.start, level, enclosing⟩ tree.tokens next primary ∧
      next.level.alternatives = level.alternatives ∧
      next.level.conjunction primary = level.conjunction tree.condition := by
  match tree with
  | .not spelling inner =>
      obtain ⟨next, primary, ends, kept, joined⟩ := inner.completes level.afterNot enclosing
      refine ⟨next, primary, ends.cons (step_not spelling level enclosing) rfl, kept, ?_⟩
      rw [joined, ConditionLevel.conjunction_after_not, Negation.condition]
  | .of primary =>
      obtain ⟨focus, reads⟩ := primary.completes level enclosing
      exact ⟨_, _, reads, rfl, rfl⟩

theorem Primary.completes (tree : Primary) (level : ConditionLevel)
    (enclosing : List ConditionLevel) :
    ∃ focus, Completes ⟨.start, level, enclosing⟩ tree.tokens ⟨focus, level, enclosing⟩
      tree.condition := by
  match tree with
  | .group inner =>
      obtain ⟨next, primary, reads, whole⟩ := inner.completes (level :: enclosing)
      have closes := step_closing reads.complete reads.enclosing
      refine ⟨.primary (next.level.disjunction primary), ?_, ?_, rfl⟩
      · rw [Primary.tokens, after_cons rfl, after_append, reads.reads, Option.bind_some,
          after_singleton closes]
      · rw [Primary.condition, ← whole]
        rfl
  | .constant value => exact ⟨_, completes_constant value level enclosing⟩
  | .stepIs word outcome => exact ⟨_, completes_step word outcome level enclosing⟩
  | .operand left compared => exact completes_operand left compared level enclosing

end

/-- The tokens up to an `or` whose left side is the condition, if there is one. -/
inductive ReadAlternatives : Option Condition → List ConditionToken → Prop where
  | none : ReadAlternatives none []
  | some {tokens : List ConditionToken} {condition : Condition} (spelling : Spelling)
      (derives : Derives tokens condition) :
      ReadAlternatives (some condition) (tokens ++ [spelling.or])

/-- The tokens up to an `and` whose left side is the condition, if there is one. -/
inductive ReadConjuncts : Option Condition → List ConditionToken → Prop where
  | none : ReadConjuncts none []
  | some {tokens : List ConditionToken} {condition : Condition} (spelling : Spelling)
      (derives : DerivesConjunction tokens condition) :
      ReadConjuncts (some condition) (tokens ++ [spelling.and])

/-- The tokens stand at one depth of parentheses to the left of what is being read. -/
def ReadLevel (level : ConditionLevel) (tokens : List ConditionToken) : Prop :=
  ∃ alternatives conjuncts, ∃ negations : List Spelling,
    ReadAlternatives level.alternatives alternatives ∧
      ReadConjuncts level.conjuncts conjuncts ∧ negations.length = level.negations ∧
        tokens = alternatives ++ conjuncts ++ negations.map Spelling.not

/-- The tokens of the enclosing levels, each with the parenthesis that follows it. -/
inductive ReadEnclosing : List ConditionLevel → List ConditionToken → Prop where
  | none : ReadEnclosing [] []
  | level {level : ConditionLevel} {others : List ConditionLevel}
      {outer tokens : List ConditionToken} (around : ReadEnclosing others outer)
      (beside : ReadLevel level tokens) :
      ReadEnclosing (level :: others) (outer ++ tokens ++ [.opening])

inductive ReadFocus : ConditionFocus → List ConditionToken → Prop where
  | start : ReadFocus .start []
  | stepName (word : StepWord) : ReadFocus (.stepName word.val) [.word word.val]
  | operand (left : Operand) : ReadFocus (.operand left) [operandToken left]
  | comparison (left : Operand) (how : Comparison) :
      ReadFocus (.comparison left how) [operandToken left, comparisonToken how]
  | primary {tokens : List ConditionToken} {condition : Condition}
      (derives : DerivesPrimary tokens condition) : ReadFocus (.primary condition) tokens

/-- The tokens are those that lead to a reading. -/
def ReadSoFar (reading : ConditionReading) (tokens : List ConditionToken) : Prop :=
  ∃ outer beside inner, ReadEnclosing reading.enclosing outer ∧ ReadLevel reading.level beside ∧
    ReadFocus reading.focus inner ∧ tokens = outer ++ beside ++ inner

theorem read_initial : ReadSoFar .initial [] :=
  ⟨[], [], [], .none, ⟨[], [], [], .none, .none, rfl, rfl⟩, .start, rfl⟩

theorem derives_negations {tokens : List ConditionToken} {condition : Condition}
    (negations : List Spelling) (derives : DerivesNegation tokens condition) :
    DerivesNegation (negations.map Spelling.not ++ tokens)
      (ConditionLevel.negate negations.length condition) := by
  induction negations with
  | nil => exact derives
  | cons spelling negations induction => exact induction.not spelling

theorem read_level_conjunction {level : ConditionLevel} {conjuncts tokens : List ConditionToken}
    {negations : List Spelling} {condition : Condition}
    (read : ReadConjuncts level.conjuncts conjuncts) (counted : negations.length = level.negations)
    (derives : DerivesPrimary tokens condition) :
    DerivesConjunction (conjuncts ++ (negations.map Spelling.not ++ tokens))
      (level.conjunction condition) := by
  have negated := derives_negations negations derives.negation
  rw [counted] at negated
  obtain ⟨alternatives, conjuncts', count⟩ := level
  cases read with
  | none => exact negated.conjunction
  | some spelling begins =>
      rw [List.append_assoc, List.singleton_append]
      exact begins.and spelling negated

/-- What stands at one depth, closed by a primary condition, is a whole condition. -/
theorem read_level_disjunction {level : ConditionLevel} {beside tokens : List ConditionToken}
    {condition : Condition} (read : ReadLevel level beside)
    (derives : DerivesPrimary tokens condition) :
    Derives (beside ++ tokens) (level.disjunction condition) := by
  obtain ⟨alternatives, conjuncts, negations, readAlternatives, readConjuncts, counted, rfl⟩ := read
  have conjunction := read_level_conjunction readConjuncts counted derives
  obtain ⟨alternatives', conjuncts', count⟩ := level
  cases readAlternatives with
  | none =>
      rw [List.nil_append, List.append_assoc]
      exact conjunction.disjunction
  | some spelling begins =>
      simp only [List.append_assoc, List.singleton_append]
      exact begins.or spelling conjunction

theorem read_level_after_not {level : ConditionLevel} {beside : List ConditionToken}
    (spelling : Spelling) (read : ReadLevel level beside) :
    ReadLevel level.afterNot (beside ++ [spelling.not]) := by
  obtain ⟨alternatives, conjuncts, negations, readAlternatives, readConjuncts, counted, rfl⟩ := read
  refine ⟨alternatives, conjuncts, negations ++ [spelling], readAlternatives, readConjuncts, ?_, ?_⟩
  · simp [counted, ConditionLevel.afterNot]
  · simp

theorem read_level_after_and {level : ConditionLevel} {beside inner : List ConditionToken}
    {primary : Condition} (spelling : Spelling) (read : ReadLevel level beside)
    (derives : DerivesPrimary inner primary) :
    ReadLevel (level.afterAnd primary) (beside ++ inner ++ [spelling.and]) := by
  obtain ⟨alternatives, conjuncts, negations, readAlternatives, readConjuncts, counted, rfl⟩ := read
  have conjunction := read_level_conjunction readConjuncts counted derives
  exact ⟨alternatives, _, [], readAlternatives, .some spelling conjunction, rfl, by simp⟩

theorem read_level_after_or {level : ConditionLevel} {beside inner : List ConditionToken}
    {primary : Condition} (spelling : Spelling) (read : ReadLevel level beside)
    (derives : DerivesPrimary inner primary) :
    ReadLevel (level.afterOr primary) (beside ++ inner ++ [spelling.or]) :=
  ⟨_, [], [], .some spelling (read_level_disjunction read derives), .none, rfl, by simp⟩

theorem read_after_primary {reading next : ConditionReading}
    {outer beside inner : List ConditionToken} {primary : Condition} {token : ConditionToken}
    (around : ReadEnclosing reading.enclosing outer) (read : ReadLevel reading.level beside)
    (derives : DerivesPrimary inner primary)
    (passes : reading.afterPrimary primary token = .ok next) :
    ReadSoFar next (outer ++ beside ++ inner ++ [token]) := by
  obtain ⟨focus, level, enclosing⟩ := reading
  unfold afterPrimary at passes
  split at passes
  case isTrue isAnd =>
    obtain ⟨spelling, rfl⟩ : ∃ spelling : Spelling, token = spelling.and :=
      isAnd.elim (fun same => ⟨.symbol, same⟩) fun same => ⟨.word, same⟩
    cases passes
    exact ⟨outer, _, [], around, read_level_after_and spelling read derives, .start, by simp⟩
  split at passes
  case isTrue isOr =>
    obtain ⟨spelling, rfl⟩ : ∃ spelling : Spelling, token = spelling.or :=
      isOr.elim (fun same => ⟨.symbol, same⟩) fun same => ⟨.word, same⟩
    cases passes
    exact ⟨outer, _, [], around, read_level_after_or spelling read derives, .start, by simp⟩
  cases around with
  | none => cases passes
  | level around readOuter =>
      split at passes
      · cases passes
      · next same =>
          cases same
          split at passes
          · next closes =>
              cases passes
              have group := (read_level_disjunction read derives).group
              exact ⟨_, _, _, around, readOuter, .primary group, by simp [closes]⟩
          · cases passes

theorem outcome_of_word {token : ConditionToken} {outcome : StepOutcome}
    (named : token.outcomeWord? = some outcome) : token = outcomeToken outcome := by
  cases token with
  | word text =>
      simp only [ConditionToken.outcomeWord?, StepOutcome.ofConditionWord?] at named
      split at named <;> cases named <;> rfl
  | _ => cases named

theorem comparison_of_token {token : ConditionToken} {how : Comparison}
    (found : token.comparison? = some how) : token = comparisonToken how := by
  cases token <;> cases found <;> rfl

theorem operand_of_token {token : ConditionToken} {right : Operand}
    (found : token.operand? = some right) : token = operandToken right := by
  cases token <;> cases found <;> rfl

theorem read_at_start {level : ConditionLevel} {enclosing : List ConditionLevel}
    {next : ConditionReading} {outer beside : List ConditionToken} {token : ConditionToken}
    (around : ReadEnclosing enclosing outer) (read : ReadLevel level beside)
    (passes : atStart ⟨.start, level, enclosing⟩ token = .ok next) :
    ReadSoFar next (outer ++ beside ++ [token]) := by
  match token with
  | .not =>
      cases passes
      exact ⟨outer, _, [], around, read_level_after_not .symbol read, .start, by simp; rfl⟩
  | .opening =>
      cases passes
      exact ⟨_, [], [], .level around read, ⟨[], [], [], .none, .none, rfl, rfl⟩, .start, by simp⟩
  | .variable name =>
      cases passes
      exact ⟨outer, beside, _, around, read, .operand (.variable name), rfl⟩
  | .literal text =>
      cases passes
      exact ⟨outer, beside, _, around, read, .operand (.literal text), rfl⟩
  | .word text =>
      by_cases isNot : text = "not"
      · subst isNot
        cases passes
        exact ⟨outer, _, [], around, read_level_after_not .word read, .start, by simp; rfl⟩
      by_cases isTrue : text = "true"
      · subst isTrue
        cases passes
        exact ⟨outer, beside, _, around, read, .primary ⟨.constant true, rfl, rfl⟩, rfl⟩
      by_cases isFalse : text = "false"
      · subst isFalse
        cases passes
        exact ⟨outer, beside, _, around, read, .primary ⟨.constant false, rfl, rfl⟩, rfl⟩
      have free : text ∉ reservedWords := by simp [reservedWords, isNot, isTrue, isFalse]
      simp only [atStart, isNot, isTrue, isFalse, if_false] at passes
      cases passes
      exact ⟨outer, beside, _, around, read, .stepName ⟨text, free⟩, rfl⟩
  | .equal => cases passes
  | .different => cases passes
  | .and => cases passes
  | .or => cases passes
  | .closing => cases passes

theorem read_step {reading next : ConditionReading} {tokens : List ConditionToken}
    {token : ConditionToken} (read : ReadSoFar reading tokens)
    (passes : reading.step token = .ok next) : ReadSoFar next (tokens ++ [token]) := by
  obtain ⟨focus, level, enclosing⟩ := reading
  obtain ⟨outer, beside, inner, around, readLevel, readFocus, rfl⟩ := read
  cases readFocus with
  | start =>
      rw [List.append_nil]
      exact read_at_start around readLevel passes
  | stepName word =>
      simp only [ConditionReading.step] at passes
      split at passes
      · next outcome named =>
          cases passes
          cases outcome_of_word named
          exact ⟨outer, beside, _, around, readLevel, .primary ⟨.stepIs word outcome, rfl, rfl⟩,
            by simp [Primary.tokens]⟩
      · cases passes
  | operand left =>
      simp only [ConditionReading.step] at passes
      split at passes
      · next how found =>
          cases passes
          cases comparison_of_token found
          exact ⟨outer, beside, _, around, readLevel, .comparison left how, by simp⟩
      · exact read_after_primary around readLevel ⟨.operand left none, rfl, rfl⟩ passes
  | comparison left how =>
      simp only [ConditionReading.step] at passes
      split at passes
      · next right found =>
          cases passes
          cases operand_of_token found
          exact ⟨outer, beside, _, around, readLevel,
            .primary ⟨.operand left (some (how, right)), rfl, rfl⟩,
            by simp [Primary.tokens, comparedTokens]⟩
      · cases passes
  | primary derives => exact read_after_primary around readLevel derives passes

theorem read_after {reading next : ConditionReading} {before tokens : List ConditionToken}
    (read : ReadSoFar reading before) (passes : reading.after? tokens = some next) :
    ReadSoFar next (before ++ tokens) := by
  induction tokens generalizing reading before with
  | nil =>
      cases passes
      rwa [List.append_nil]
  | cons token tokens induction =>
      simp only [after?] at passes
      split at passes
      · next middle stepped =>
          rw [List.append_cons]
          exact induction (read_step read stepped) passes
      · cases passes

theorem derives_primary_of_complete {focus : ConditionFocus} {level : ConditionLevel}
    {enclosing : List ConditionLevel} {inner : List ConditionToken} {primary : Condition}
    (read : ReadFocus focus inner)
    (complete : primary? ⟨focus, level, enclosing⟩ = some primary) :
    DerivesPrimary inner primary := by
  cases read with
  | operand left =>
      cases complete
      exact ⟨.operand left none, rfl, rfl⟩
  | primary derives =>
      cases complete
      exact derives
  | start => cases complete
  | stepName word => cases complete
  | comparison left how => cases complete

theorem derives_of_result {reading : ConditionReading} {tokens : List ConditionToken}
    {condition : Condition} (read : ReadSoFar reading tokens)
    (ends : reading.result? = some condition) : Derives tokens condition := by
  obtain ⟨focus, level, enclosing⟩ := reading
  obtain ⟨rfl, primary, complete, rfl⟩ := result_iff.1 ends
  obtain ⟨outer, beside, inner, around, readLevel, readFocus, rfl⟩ := read
  cases around
  exact read_level_disjunction readLevel (derives_primary_of_complete readFocus complete)

end ConditionGrammar

namespace Condition

open ConditionGrammar

theorem of_tokens_ok_iff {finish : Nat} {placed : List PlacedToken} {condition : Condition} :
    ofTokens finish placed = .ok condition ↔
      ∃ reading, ConditionReading.initial.after? (placed.map PlacedToken.token) = some reading ∧
        reading.result? = some condition := by
  rw [of_tokens_eq_run, run_ok_iff]

theorem derives_iff_read {tokens : List ConditionToken} {condition : Condition} :
    Derives tokens condition ↔ ∃ reading, ConditionReading.initial.after? tokens = some reading ∧
      reading.result? = some condition := by
  constructor
  · rintro ⟨tree, rfl, rfl⟩
    obtain ⟨reading, primary, reads, whole⟩ := tree.completes []
    exact ⟨reading, reads.reads, result_iff.2 ⟨reads.enclosing, primary, reads.complete, whole⟩⟩
  · rintro ⟨reading, passes, ends⟩
    exact derives_of_result (read_after read_initial passes) ends

theorem of_tokens_ok_iff_derives {finish : Nat} {placed : List PlacedToken}
    {condition : Condition} : ofTokens finish placed = .ok condition ↔
      Derives (placed.map PlacedToken.token) condition := by
  rw [of_tokens_ok_iff, derives_iff_read]

/-- Reading gives a condition exactly when the grammar derives it, and then by one tree only.
Whatever the tokens are, it ends: with the condition they derive, or refusing tokens that
derive none. -/
theorem reading_decides_grammar (finish : Nat) (placed : List PlacedToken) :
    (∀ condition, ofTokens finish placed = .ok condition ↔
        Derives (placed.map PlacedToken.token) condition) ∧
      (∀ tree other : Disjunction, tree.tokens = placed.map PlacedToken.token →
        other.tokens = placed.map PlacedToken.token → tree = other) ∧
      ((∃ condition, ofTokens finish placed = .ok condition ∧
          Derives (placed.map PlacedToken.token) condition) ∨
        ∃ failure, ofTokens finish placed = .error failure ∧
          ∀ condition, ¬Derives (placed.map PlacedToken.token) condition) := by
  refine ⟨fun condition => of_tokens_ok_iff_derives, ?_, ?_⟩
  · intro tree other tokens otherTokens
    exact tokens_injective (tokens.trans otherTokens.symm)
  · cases ended : ofTokens finish placed with
    | ok condition => exact .inl ⟨condition, rfl, of_tokens_ok_iff_derives.1 ended⟩
    | error failure =>
        refine .inr ⟨failure, rfl, fun condition derives => ?_⟩
        rw [of_tokens_ok_iff_derives.2 derives] at ended
        cases ended

/-- An operator word names a step where a step may stand. -/
example : Derives [.word "or", .word "failed", .word "or", .variable "DEPLOY", .and, .not,
      .opening, .literal "a", .different, .variable "B", .closing]
    (.or (.stepIs "or" .failed) (.and (.truthy (.variable "DEPLOY"))
      (.not (.compare (.literal "a") .different (.variable "B"))))) :=
  derives_iff_read.2 ⟨_, rfl, rfl⟩

end Condition

end PipelineWaves
