import PipelineWaves.Condition.Reader

/-!
# Conditions read in one pass

The descent over a condition's tokens is one pass over them. A `ConditionReading` is what
its call stack stands for: for every open parenthesis one `ConditionLevel`, and what has
been read inside the innermost one. Every function of the descent answers what the pass
comes to, so the two give the same condition or the same refusal.
-/

set_option autoImplicit false

namespace PipelineWaves

/-- What stands to the left of the operand being read, at one depth of parentheses. -/
structure ConditionLevel where
  alternatives : Option Condition
  conjuncts : Option Condition
  negations : Nat
deriving DecidableEq, Repr

namespace ConditionLevel

def fresh : ConditionLevel := ⟨none, none, 0⟩

def negate : Nat → Condition → Condition
  | 0, condition => condition
  | count + 1, condition => .not (negate count condition)

/-- The conjunction that ends with this primary condition. -/
def conjunction (level : ConditionLevel) (primary : Condition) : Condition :=
  match level.conjuncts with
  | none => negate level.negations primary
  | some left => .and left (negate level.negations primary)

/-- The whole condition of this level, ending with this primary condition. -/
def disjunction (level : ConditionLevel) (primary : Condition) : Condition :=
  match level.alternatives with
  | none => level.conjunction primary
  | some left => .or left (level.conjunction primary)

def afterNot (level : ConditionLevel) : ConditionLevel :=
  { level with negations := level.negations + 1 }

def afterAnd (level : ConditionLevel) (primary : Condition) : ConditionLevel :=
  ⟨level.alternatives, some (level.conjunction primary), 0⟩

def afterOr (level : ConditionLevel) (primary : Condition) : ConditionLevel :=
  ⟨some (level.disjunction primary), none, 0⟩

theorem negate_not (count : Nat) (condition : Condition) :
    negate count (.not condition) = negate (count + 1) condition := by
  induction count with
  | zero => rfl
  | succ count induction => exact congrArg Condition.not induction

theorem conjunction_after_not (level : ConditionLevel) (condition : Condition) :
    level.afterNot.conjunction condition = level.conjunction (.not condition) := by
  simp only [conjunction, afterNot, negate_not]

end ConditionLevel

/-- What has been read inside the innermost parentheses. -/
inductive ConditionFocus where
  | start
  | stepName (step : String)
  | operand (left : Operand)
  | comparison (left : Operand) (how : Comparison)
  | primary (condition : Condition)
deriving DecidableEq, Repr

structure ConditionReading where
  focus : ConditionFocus
  level : ConditionLevel
  enclosing : List ConditionLevel
deriving DecidableEq, Repr

namespace ConditionReading

def initial : ConditionReading := ⟨.start, .fresh, []⟩

/-- A token after a complete primary condition. -/
def afterPrimary (reading : ConditionReading) (primary : Condition) (token : ConditionToken) :
    Except ConditionFault ConditionReading :=
  if token = .and ∨ token = .word "and" then
    .ok ⟨.start, reading.level.afterAnd primary, reading.enclosing⟩
  else if token = .or ∨ token = .word "or" then
    .ok ⟨.start, reading.level.afterOr primary, reading.enclosing⟩
  else
    match reading.enclosing with
    | [] => .error (.unexpectedToken token)
    | outer :: others =>
        if token = .closing then
          .ok ⟨.primary (reading.level.disjunction primary), outer, others⟩
        else .error (.expectedClosing token)

/-- A token where an operand, a step or a parenthesis may start. -/
def atStart (reading : ConditionReading) (token : ConditionToken) :
    Except ConditionFault ConditionReading :=
  match token with
  | .not => .ok { reading with level := reading.level.afterNot }
  | .opening => .ok ⟨.start, .fresh, reading.level :: reading.enclosing⟩
  | .variable name => .ok { reading with focus := .operand (.variable name) }
  | .literal text => .ok { reading with focus := .operand (.literal text) }
  | .word text =>
      if text = "not" then .ok { reading with level := reading.level.afterNot }
      else if text = "true" then .ok { reading with focus := .primary (.constant true) }
      else if text = "false" then .ok { reading with focus := .primary (.constant false) }
      else .ok { reading with focus := .stepName text }
  | other => .error (.unexpectedToken other)

def step (reading : ConditionReading) (token : ConditionToken) :
    Except ConditionFault ConditionReading :=
  match reading.focus with
  | .start => reading.atStart token
  | .stepName step =>
      match token.outcomeWord? with
      | some outcome => .ok { reading with focus := .primary (.stepIs step outcome) }
      | none => .error (.expectedOutcome step token)
  | .operand left =>
      match token.comparison? with
      | some how => .ok { reading with focus := .comparison left how }
      | none => reading.afterPrimary (.truthy left) token
  | .comparison left how =>
      match token.operand? with
      | some right => .ok { reading with focus := .primary (.compare left how right) }
      | none => .error (.expectedOperand token)
  | .primary condition => reading.afterPrimary condition token

def primary? (reading : ConditionReading) : Option Condition :=
  match reading.focus with
  | .operand left => some (.truthy left)
  | .primary condition => some condition
  | _ => none

def result? (reading : ConditionReading) : Option Condition :=
  if reading.enclosing.isEmpty then reading.primary?.map reading.level.disjunction else none

/-- What a reading comes to with the tokens that follow it, in a text that ends at `finish`. -/
def run (finish : Nat) (reading : ConditionReading) :
    List PlacedToken → Except ConditionSyntaxError Condition
  | [] =>
      match reading.result? with
      | some condition => .ok condition
      | none => .error ⟨finish, .unexpectedEnd⟩
  | placed :: rest =>
      match reading.step placed.token with
      | .error fault => .error ⟨placed.position, fault⟩
      | .ok next => next.run finish rest

theorem result_iff {reading : ConditionReading} {condition : Condition} :
    reading.result? = some condition ↔ reading.enclosing = [] ∧
      ∃ primary, reading.primary? = some primary ∧
        reading.level.disjunction primary = condition := by
  simp [result?]

variable {finish : Nat} {tokens : List PlacedToken} {position : Nat}

theorem run_ends {reading : ConditionReading} (ends : ¬position < tokens.length)
    (incomplete : reading.result? = none) :
    reading.run finish (tokens.drop position) = .error ⟨finish, .unexpectedEnd⟩ := by
  rw [List.drop_eq_nil_of_le (Nat.not_lt.1 ends), run, incomplete]

theorem result_none {reading : ConditionReading} (incomplete : reading.primary? = none) :
    reading.result? = none := by
  simp [result?, incomplete]

theorem run_refused {reading : ConditionReading} {fault : ConditionFault}
    (inside : position < tokens.length)
    (refused : reading.step tokens[position].token = .error fault) :
    reading.run finish (tokens.drop position) = .error ⟨tokens[position].position, fault⟩ := by
  rw [List.drop_eq_getElem_cons inside, run, refused]

theorem run_passes (finish : Nat) {reading following : ConditionReading}
    (inside : position < tokens.length)
    (passes : reading.step tokens[position].token = .ok following) :
    reading.run finish (tokens.drop position) =
      following.run finish (tokens.drop (position + 1)) := by
  rw [List.drop_eq_getElem_cons inside, run, passes]

end ConditionReading

namespace ConditionParser

open ConditionReading

variable {finish : Nat} {tokens : List PlacedToken}

theorem eats_iff {symbol : ConditionToken} {keyword : String} {position : Nat}
    (plain : ∀ text, symbol ≠ .word text) :
    eats tokens symbol keyword position = true ↔ ∃ inside : position < tokens.length,
      tokens[position].token = symbol ∨ tokens[position].token = .word keyword := by
  unfold eats peek?
  by_cases inside : position < tokens.length
  · simp only [List.getElem?_eq_getElem inside, Option.map_some, inside, exists_true_left]
    cases tokens[position].token with
    | word text => simp [(plain text).symm]
    | _ => simp
  · simp [inside]

theorem not_eaten {symbol : ConditionToken} {keyword : String} {position : Nat}
    (plain : ∀ text, symbol ≠ .word text) (other : eats tokens symbol keyword position = false)
    (inside : position < tokens.length) :
    ¬(tokens[position].token = symbol ∨ tokens[position].token = .word keyword) := fun found =>
  Bool.eq_false_iff.1 other ((eats_iff plain).2 ⟨inside, found⟩)

/-- A primary condition is complete, and the token behind it, if any, is none of its own. -/
structure Stands (tokens : List PlacedToken) (reading : ConditionReading) (primary : Condition)
    (position : Nat) : Prop where
  complete : reading.primary? = some primary
  settled : ∀ inside : position < tokens.length,
    reading.step tokens[position].token = reading.afterPrimary primary tokens[position].token

theorem Stands.and_goes_on (finish : Nat) {reading : ConditionReading} {primary : Condition}
    {position : Nat}
    (stands : Stands tokens reading primary position)
    (eaten : eats tokens .and "and" position = true) :
    reading.run finish (tokens.drop position) =
      run finish ⟨.start, reading.level.afterAnd primary, reading.enclosing⟩
        (tokens.drop (position + 1)) := by
  obtain ⟨inside, isAnd⟩ := (eats_iff (by simp)).1 eaten
  refine run_passes finish inside ?_
  rw [stands.settled inside, afterPrimary, if_pos isAnd]

theorem Stands.or_goes_on (finish : Nat) {reading : ConditionReading} {primary : Condition}
    {position : Nat}
    (stands : Stands tokens reading primary position)
    (eaten : eats tokens .or "or" position = true) :
    reading.run finish (tokens.drop position) =
      run finish ⟨.start, reading.level.afterOr primary, reading.enclosing⟩
        (tokens.drop (position + 1)) := by
  obtain ⟨inside, isOr⟩ := (eats_iff (by simp)).1 eaten
  have notAnd : ¬(tokens[position].token = .and ∨ tokens[position].token = .word "and") := by
    rcases isOr with isOr | isOr <;> simp [isOr]
  refine run_passes finish inside ?_
  rw [stands.settled inside, afterPrimary, if_neg notAnd, if_pos isOr]

/-- Where no operator follows, only a parenthesis can be closed. -/
theorem Stands.without_operator {reading : ConditionReading} {primary : Condition}
    {position : Nat} (stands : Stands tokens reading primary position)
    (noAnd : eats tokens .and "and" position = false)
    (noOr : eats tokens .or "or" position = false) (inside : position < tokens.length) :
    reading.step tokens[position].token =
      match reading.enclosing with
      | [] => .error (.unexpectedToken tokens[position].token)
      | outer :: others =>
          if tokens[position].token = .closing then
            .ok ⟨.primary (reading.level.disjunction primary), outer, others⟩
          else .error (.expectedClosing tokens[position].token) := by
  rw [stands.settled inside, afterPrimary, if_neg (not_eaten (by simp) noAnd inside),
    if_neg (not_eaten (by simp) noOr inside)]

/-- The pass from `position` on comes to the answer: to the same refusal, or to a complete
primary condition behind the same tokens, of which `joined` holds. -/
def Follows (finish : Nat) (tokens : List PlacedToken) (reading : ConditionReading)
    (position : Nat) {start : Nat} (answer : Answer tokens start)
    (joined : ConditionReading → Condition → Parsed tokens start → Prop) : Prop :=
  match answer with
  | .error failure => reading.run finish (tokens.drop position) = .error failure
  | .ok parsed => ∃ following primary,
      reading.run finish (tokens.drop position) =
          following.run finish (tokens.drop parsed.position) ∧
        following.enclosing = reading.enclosing ∧
          Stands tokens following primary parsed.position ∧ joined following primary parsed

theorem Follows.after {reading middle : ConditionReading} {position later start : Nat}
    {answer : Answer tokens start}
    {joined : ConditionReading → Condition → Parsed tokens start → Prop}
    (follows : Follows finish tokens middle later answer joined)
    (same : middle.enclosing = reading.enclosing)
    (runs : reading.run finish (tokens.drop position) = middle.run finish (tokens.drop later)) :
    Follows finish tokens reading position answer joined := by
  cases answer with
  | error failure => exact runs.trans follows
  | ok parsed =>
      obtain ⟨following, primary, goesOn, enclosing, stands, holds⟩ := follows
      exact ⟨following, primary, runs.trans goesOn, enclosing.trans same, stands, holds⟩

/-- The token that completes a primary condition is the last one of its own. -/
theorem follows_of_passes {reading : ConditionReading} {condition : Condition}
    {level : ConditionLevel} {position start : Nat} {parsed : Parsed tokens start}
    (inside : position < tokens.length)
    (passes : reading.step tokens[position].token =
      .ok ⟨.primary condition, level, reading.enclosing⟩)
    (behind : parsed.position = position + 1) (same : condition = parsed.condition) :
    Follows finish tokens reading position (.ok parsed)
      fun following primary parsed => following.level = level ∧ primary = parsed.condition := by
  have goesOn := run_passes finish inside passes
  rw [← behind] at goesOn
  exact ⟨_, condition, goesOn, rfl, ⟨rfl, fun _ => rfl⟩, rfl, same⟩

theorem next_cases (finish : Nat) (tokens : List PlacedToken) (position : Nat) :
    (¬position < tokens.length ∧
        next finish tokens position = .error ⟨finish, .unexpectedEnd⟩) ∨
      ∃ inside : position < tokens.length,
        next finish tokens position = .ok ⟨tokens[position], inside⟩ := by
  unfold next
  split
  · next inside => exact .inr ⟨inside, rfl⟩
  · next outside => exact .inl ⟨outside, rfl⟩

theorem follows_operand (start : Nat) (inside : start < tokens.length) (left : Operand)
    (level : ConditionLevel) (enclosing : List ConditionLevel) :
    Follows finish tokens ⟨.operand left, level, enclosing⟩ (start + 1)
      (finishOperand finish tokens start inside left)
      fun following primary parsed => following.level = level ∧ primary = parsed.condition := by
  unfold finishOperand
  split
  · next alone =>
      refine ⟨⟨.operand left, level, enclosing⟩, .truthy left, rfl, rfl, ⟨rfl, ?_⟩, rfl, rfl⟩
      intro inside
      have bare : tokens[start + 1].token.comparison? = none := by
        simpa [peek?, List.getElem?_eq_getElem inside] using alone
      simp only [ConditionReading.step, bare]
  · next how compared =>
      obtain ⟨token, found, isComparison⟩ := Option.bind_eq_some_iff.1 compared
      have second := lt_length_of_peek found
      have compares : ConditionReading.step ⟨.operand left, level, enclosing⟩
          tokens[start + 1].token = .ok ⟨.comparison left how, level, enclosing⟩ := by
        have same : tokens[start + 1].token = token := by
          simpa [peek?, List.getElem?_eq_getElem second] using found
        simp only [ConditionReading.step, same, isComparison]
      have goesOn := run_passes finish second compares
      rcases next_cases finish tokens (start + 2) with ⟨outside, ends⟩ | ⟨third, found⟩
      · simp only [ends]
        exact goesOn.trans (run_ends outside (result_none rfl))
      · simp only [found]
        split
        · next right isOperand =>
            have completes : ConditionReading.step ⟨.comparison left how, level, enclosing⟩
                tokens[start + 2].token =
                  .ok ⟨.primary (.compare left how right), level, enclosing⟩ := by
              simp only [ConditionReading.step, isOperand]
            exact (follows_of_passes third completes rfl rfl).after rfl goesOn
        · next isNone =>
            refine goesOn.trans (run_refused third ?_)
            simp only [ConditionReading.step, isNone]

theorem follows_step (start : Nat) (step : String) (level : ConditionLevel)
    (enclosing : List ConditionLevel) :
    Follows finish tokens ⟨.stepName step, level, enclosing⟩ (start + 1)
      (finishStep finish tokens start step)
      fun following primary parsed => following.level = level ∧ primary = parsed.condition := by
  unfold finishStep
  rcases next_cases finish tokens (start + 1) with ⟨outside, ends⟩ | ⟨second, found⟩
  · simp only [ends]
    exact run_ends outside (result_none rfl)
  · simp only [found]
    split
    · next outcome named =>
        refine follows_of_passes second ?_ rfl rfl
        simp only [ConditionReading.step, named]
    · next isNone =>
        refine run_refused second ?_
        simp only [ConditionReading.step, isNone]

/-- Behind what stands in parentheses, the closing one is read. -/
theorem follows_closing {reading middle : ConditionReading} {level : ConditionLevel}
    {start : Nat} {primary : Condition} {inner : Parsed tokens (start + 1)}
    (runs : reading.run finish (tokens.drop start) =
      middle.run finish (tokens.drop inner.position))
    (within : middle.enclosing = level :: reading.enclosing)
    (stands : Stands tokens middle primary inner.position)
    (noAnd : eats tokens .and "and" inner.position = false)
    (noOr : eats tokens .or "or" inner.position = false)
    (whole : middle.level.disjunction primary = inner.condition) :
    Follows finish tokens reading start (finishGroup finish tokens start inner)
      fun following primary parsed => following.level = level ∧ primary = parsed.condition := by
  unfold finishGroup
  rcases next_cases finish tokens inner.position with ⟨outside, ends⟩ | ⟨last, found⟩
  · simp only [ends]
    exact runs.trans (run_ends outside (by simp [result?, within]))
  · have closes := stands.without_operator noAnd noOr last
    simp only [within] at closes
    simp only [found]
    split
    · next isClosing =>
        rw [if_pos isClosing] at closes
        exact ⟨⟨.primary (middle.level.disjunction primary), level, reading.enclosing⟩, _,
          runs.trans (run_passes finish last closes), rfl, ⟨rfl, fun _ => rfl⟩, rfl, whole⟩
    · next isOther =>
        rw [if_neg isOther] at closes
        exact runs.trans (run_refused last closes)

-- By recursion as the descent goes. A disjunction is read on a fresh level, a conjunction
-- behind the disjunction so far, an operand behind both; what is kept is that the level,
-- joined with the last primary condition, gives the condition of the answer.
mutual

theorem follows_or (start : Nat) (enclosing : List ConditionLevel) :
    Follows finish tokens ⟨.start, .fresh, enclosing⟩ start (parseOr finish tokens start)
      fun following primary parsed => following.level.disjunction primary = parsed.condition ∧
        eats tokens .and "and" parsed.position = false ∧
          eats tokens .or "or" parsed.position = false := by
  have first := follows_and start none enclosing
  rw [parseOr]
  cases answer : parseAnd finish tokens start with
  | error failure => rwa [answer] at first
  | ok left =>
      rw [answer] at first
      obtain ⟨middle, primary, runs, same, stands, alternatives, joined, noAnd⟩ := first
      refine (join_or_follows start left stands noAnd ?_).after same runs
      rw [ConditionLevel.disjunction, alternatives, joined]
termination_by 6 * (tokens.length - start) + 5
decreasing_by
  · omega
  · have := left.advances
    have := left.within
    omega

theorem join_or_follows (start : Nat) (left : Parsed tokens start) {reading : ConditionReading}
    {primary : Condition} (stands : Stands tokens reading primary left.position)
    (noAnd : eats tokens .and "and" left.position = false)
    (whole : reading.level.disjunction primary = left.condition) :
    Follows finish tokens reading left.position (joinOr finish tokens start left)
      fun following primary parsed => following.level.disjunction primary = parsed.condition ∧
        eats tokens .and "and" parsed.position = false ∧
          eats tokens .or "or" parsed.position = false := by
  rw [joinOr]
  by_cases eaten : eats tokens .or "or" left.position = true
  · have goesOn := stands.or_goes_on finish eaten
    rw [ConditionLevel.afterOr, whole] at goesOn
    have second := follows_and (left.position + 1) (some left.condition) reading.enclosing
    rw [dif_pos eaten]
    cases answer : parseAnd finish tokens (left.position + 1) with
    | error failure =>
        rw [answer] at second
        exact goesOn.trans second
    | ok right =>
        rw [answer] at second
        obtain ⟨middle, inner, runs, same, stands, alternatives, joined, noAnd⟩ := second
        refine (join_or_follows start _ stands noAnd ?_).after same (goesOn.trans runs)
        rw [ConditionLevel.disjunction, alternatives, joined]
        rfl
  · rw [dif_neg eaten]
    exact ⟨reading, primary, rfl, rfl, stands, whole, noAnd, Bool.eq_false_iff.2 eaten⟩
termination_by 6 * (tokens.length - left.position) + 4
decreasing_by
  · omega
  · have := right.advances
    have := lt_length_of_eats eaten
    simp only [Parsed.endOf]
    omega

theorem follows_and (start : Nat) (alternatives : Option Condition)
    (enclosing : List ConditionLevel) :
    Follows finish tokens ⟨.start, ⟨alternatives, none, 0⟩, enclosing⟩ start
      (parseAnd finish tokens start)
      fun following primary parsed => following.level.alternatives = alternatives ∧
        following.level.conjunction primary = parsed.condition ∧
          eats tokens .and "and" parsed.position = false := by
  have first := follows_unary start ⟨alternatives, none, 0⟩ enclosing
  rw [parseAnd]
  cases answer : parseUnary finish tokens start with
  | error failure => rwa [answer] at first
  | ok left =>
      rw [answer] at first
      obtain ⟨middle, primary, runs, same, stands, kept, joined⟩ := first
      exact (join_and_follows start left stands kept joined).after same runs
termination_by 6 * (tokens.length - start) + 3
decreasing_by
  · omega
  · have := left.advances
    have := left.within
    omega

theorem join_and_follows (start : Nat) (left : Parsed tokens start) {reading : ConditionReading}
    {primary : Condition} {alternatives : Option Condition}
    (stands : Stands tokens reading primary left.position)
    (kept : reading.level.alternatives = alternatives)
    (whole : reading.level.conjunction primary = left.condition) :
    Follows finish tokens reading left.position (joinAnd finish tokens start left)
      fun following primary parsed => following.level.alternatives = alternatives ∧
        following.level.conjunction primary = parsed.condition ∧
          eats tokens .and "and" parsed.position = false := by
  rw [joinAnd]
  by_cases eaten : eats tokens .and "and" left.position = true
  · have goesOn := stands.and_goes_on finish eaten
    have second := follows_unary (left.position + 1) (reading.level.afterAnd primary)
      reading.enclosing
    rw [dif_pos eaten]
    cases answer : parseUnary finish tokens (left.position + 1) with
    | error failure =>
        rw [answer] at second
        exact goesOn.trans second
    | ok right =>
        rw [answer] at second
        obtain ⟨middle, inner, runs, same, stands, keptLater, joined⟩ := second
        refine (join_and_follows start _ stands (keptLater.trans kept) ?_).after same
          (goesOn.trans runs)
        rw [joined, ← whole]
        rfl
  · rw [dif_neg eaten]
    exact ⟨reading, primary, rfl, rfl, stands, kept, whole, Bool.eq_false_iff.2 eaten⟩
termination_by 6 * (tokens.length - left.position) + 2
decreasing_by
  · omega
  · have := right.advances
    have := lt_length_of_eats eaten
    simp only [Parsed.endOf]
    omega

theorem follows_unary (start : Nat) (level : ConditionLevel) (enclosing : List ConditionLevel) :
    Follows finish tokens ⟨.start, level, enclosing⟩ start (parseUnary finish tokens start)
      fun following primary parsed => following.level.alternatives = level.alternatives ∧
        following.level.conjunction primary = level.conjunction parsed.condition := by
  rw [parseUnary]
  by_cases eaten : eats tokens .not "not" start = true
  · obtain ⟨inside, isNot⟩ := (eats_iff (by simp)).1 eaten
    have negates : ConditionReading.step ⟨.start, level, enclosing⟩ tokens[start].token =
        .ok ⟨.start, level.afterNot, enclosing⟩ := by
      rcases isNot with isNot | isNot <;> rw [isNot] <;> rfl
    have goesOn := run_passes finish inside negates
    have inner := follows_unary (start + 1) level.afterNot enclosing
    rw [dif_pos eaten]
    cases answer : parseUnary finish tokens (start + 1) with
    | error failure =>
        rw [answer] at inner
        exact goesOn.trans inner
    | ok parsed =>
        rw [answer] at inner
        obtain ⟨following, primary, runs, same, stands, kept, joined⟩ := inner
        refine ⟨following, primary, goesOn.trans runs, same, stands, kept, ?_⟩
        exact joined.trans (level.conjunction_after_not _)
  · have first := follows_primary start level enclosing (Bool.eq_false_iff.2 eaten)
    rw [dif_neg eaten]
    cases answer : parsePrimary finish tokens start with
    | error failure => rwa [answer] at first
    | ok parsed =>
        rw [answer] at first
        obtain ⟨following, primary, runs, same, stands, rfl, rfl⟩ := first
        exact ⟨following, _, runs, same, stands, rfl, rfl⟩
termination_by 6 * (tokens.length - start) + 1
decreasing_by
  · have := lt_length_of_eats eaten
    omega
  · omega

theorem follows_primary (start : Nat) (level : ConditionLevel) (enclosing : List ConditionLevel)
    (noNot : eats tokens .not "not" start = false) :
    Follows finish tokens ⟨.start, level, enclosing⟩ start (parsePrimary finish tokens start)
      fun following primary parsed => following.level = level ∧ primary = parsed.condition := by
  rw [parsePrimary]
  rcases next_cases finish tokens start with ⟨outside, ends⟩ | ⟨inside, found⟩
  · simp only [ends]
    exact run_ends outside (result_none rfl)
  simp only [found]
  match first : tokens[start].token with
  | .opening =>
      have opens : ConditionReading.step ⟨.start, level, enclosing⟩ tokens[start].token =
          .ok ⟨.start, .fresh, level :: enclosing⟩ := by
        rw [first]
        rfl
      have goesOn := run_passes finish inside opens
      have inner := follows_or (start + 1) (level :: enclosing)
      cases answer : parseOr finish tokens (start + 1) with
      | error failure =>
          rw [answer] at inner
          exact goesOn.trans inner
      | ok parsed =>
          rw [answer] at inner
          obtain ⟨middle, primary, runs, within, stands, whole, noAnd, noOr⟩ := inner
          exact follows_closing (goesOn.trans runs) within stands noAnd noOr whole
  | .word text =>
      have notNot : text ≠ "not" := by simpa [first] using not_eaten (by simp) noNot inside
      by_cases isTrue : text = "true"
      · subst isTrue
        refine follows_of_passes inside ?_ rfl rfl
        rw [first]
        rfl
      by_cases isFalse : text = "false"
      · subst isFalse
        refine follows_of_passes inside ?_ rfl rfl
        rw [first]
        rfl
      simp only [isTrue, isFalse, if_false]
      refine (follows_step start text level enclosing).after rfl (run_passes finish inside ?_)
      rw [first]
      simp [ConditionReading.step, atStart, notNot, isTrue, isFalse]
  | .variable name =>
      refine (follows_operand start inside (.variable name) level enclosing).after rfl
        (run_passes finish inside ?_)
      rw [first]
      rfl
  | .literal text =>
      refine (follows_operand start inside (.literal text) level enclosing).after rfl
        (run_passes finish inside ?_)
      rw [first]
      rfl
  | .not => exact absurd (.inl first) (not_eaten (by simp) noNot inside)
  | .equal | .different | .and | .or | .closing =>
      refine run_refused inside ?_
      rw [first]
      rfl
termination_by 6 * (tokens.length - start)
decreasing_by omega

end

end ConditionParser

namespace Condition

open ConditionParser

/-- The descent over a token list and the pass over it give the same condition or the same
refusal. -/
theorem of_tokens_eq_run (finish : Nat) (tokens : List PlacedToken) :
    ofTokens finish tokens = ConditionReading.initial.run finish tokens := by
  unfold ofTokens
  have whole : Follows finish tokens .initial 0 (parseOr finish tokens 0) _ := follows_or 0 []
  cases answer : parseOr finish tokens 0 with
  | error failure =>
      rw [answer] at whole
      exact whole.symm
  | ok parsed =>
      rw [answer] at whole
      obtain ⟨following, primary, runs, same, stands, joined, noAnd, noOr⟩ := whole
      refine Eq.trans ?_ runs.symm
      by_cases more : parsed.position < tokens.length
      · have refused := stands.without_operator noAnd noOr more
        rw [same] at refused
        simp only [List.getElem?_eq_getElem more]
        exact (ConditionReading.run_refused more refused).symm
      · have ends : following.result? = some parsed.condition :=
          ConditionReading.result_iff.2 ⟨same, primary, stands.complete, joined⟩
        rw [List.drop_eq_nil_of_le (Nat.not_lt.1 more)]
        simp only [List.getElem?_eq_none (Nat.not_lt.1 more), ConditionReading.run, ends]

end Condition

end PipelineWaves
