import PipelineWaves.Condition.Reader

/-!
# The grammar of conditions

    or      := and (OR and)*
    and     := unary (AND unary)*
    unary   := NOT unary | primary
    primary := '(' or ')' | `true` | `false` | STEP outcome
             | operand [comparison operand]

Every operator has a symbol and a word. A step is any word but `true`, `false` and
`not`, so that a step may be called `or`. There is one type of trees for each rule;
a tree gives the tokens it derives and the condition it stands for, in which chains
join from the left. No two trees have the same tokens: a tree can be told from any
tokens that start with its own, up to a token that it could go on with.
-/

set_option autoImplicit false

namespace PipelineWaves

namespace ConditionGrammar

/-- How an operator is written. -/
inductive Spelling where
  | symbol
  | word
deriving DecidableEq, Repr

namespace Spelling

def or : Spelling → ConditionToken
  | symbol => .or
  | word => .word "or"

def and : Spelling → ConditionToken
  | symbol => .and
  | word => .word "and"

def not : Spelling → ConditionToken
  | symbol => .not
  | word => .word "not"

end Spelling

/-- Words with a meaning of their own where a step could stand. -/
def reservedWords : List String := ["true", "false", "not"]

def StepWord : Type := { word : String // word ∉ reservedWords }

mutual

inductive Disjunction where
  | of (first : Conjunction) (others : Alternatives)

inductive Alternatives where
  | none
  | or (spelling : Spelling) (next : Conjunction) (others : Alternatives)

inductive Conjunction where
  | of (first : Negation) (others : Conjuncts)

inductive Conjuncts where
  | none
  | and (spelling : Spelling) (next : Negation) (others : Conjuncts)

inductive Negation where
  | not (spelling : Spelling) (inner : Negation)
  | of (primary : Primary)

inductive Primary where
  | group (inner : Disjunction)
  | constant (value : Bool)
  | stepIs (step : StepWord) (outcome : StepOutcome)
  | operand (left : Operand) (compared : Option (Comparison × Operand))

end

def operandToken : Operand → ConditionToken
  | .variable name => .variable name
  | .literal text => .literal text

def comparisonToken : Comparison → ConditionToken
  | .equal => .equal
  | .different => .different

def outcomeToken (outcome : StepOutcome) : ConditionToken := .word outcome.conditionWord

def constantToken (value : Bool) : ConditionToken := .word (if value then "true" else "false")

def comparedTokens : Option (Comparison × Operand) → List ConditionToken
  | none => []
  | some (how, right) => [comparisonToken how, operandToken right]

def operandCondition (left : Operand) : Option (Comparison × Operand) → Condition
  | none => .truthy left
  | some (how, right) => .compare left how right

mutual

def Disjunction.tokens : Disjunction → List ConditionToken
  | .of first others => first.tokens ++ others.tokens

def Alternatives.tokens : Alternatives → List ConditionToken
  | .none => []
  | .or spelling next others => spelling.or :: (next.tokens ++ others.tokens)

def Conjunction.tokens : Conjunction → List ConditionToken
  | .of first others => first.tokens ++ others.tokens

def Conjuncts.tokens : Conjuncts → List ConditionToken
  | .none => []
  | .and spelling next others => spelling.and :: (next.tokens ++ others.tokens)

def Negation.tokens : Negation → List ConditionToken
  | .not spelling inner => spelling.not :: inner.tokens
  | .of primary => primary.tokens

def Primary.tokens : Primary → List ConditionToken
  | .group inner => .opening :: (inner.tokens ++ [.closing])
  | .constant value => [constantToken value]
  | .stepIs step outcome => [.word step.val, outcomeToken outcome]
  | .operand left compared => operandToken left :: comparedTokens compared

end

mutual

def Disjunction.condition : Disjunction → Condition
  | .of first others => others.join first.condition

/-- The alternatives joined, one after the other, to what stands before them. -/
def Alternatives.join : Alternatives → Condition → Condition
  | .none, left => left
  | .or _ next others, left => others.join (.or left next.condition)

def Conjunction.condition : Conjunction → Condition
  | .of first others => others.join first.condition

def Conjuncts.join : Conjuncts → Condition → Condition
  | .none, left => left
  | .and _ next others, left => others.join (.and left next.condition)

def Negation.condition : Negation → Condition
  | .not _ inner => .not inner.condition
  | .of primary => primary.condition

def Primary.condition : Primary → Condition
  | .group inner => inner.condition
  | .constant value => .constant value
  | .stepIs step outcome => .stepIs step.val outcome
  | .operand left compared => operandCondition left compared

end

/-- The tokens are derived by a tree that stands for the condition. -/
def Derives (tokens : List ConditionToken) (condition : Condition) : Prop :=
  ∃ tree : Disjunction, tree.tokens = tokens ∧ tree.condition = condition

def Conjuncts.append : Conjuncts → Spelling → Negation → Conjuncts
  | .none, spelling, last => .and spelling last .none
  | .and first next others, spelling, last => .and first next (others.append spelling last)

def Alternatives.append : Alternatives → Spelling → Conjunction → Alternatives
  | .none, spelling, last => .or spelling last .none
  | .or first next others, spelling, last => .or first next (others.append spelling last)

theorem Conjuncts.append_tokens (others : Conjuncts) (spelling : Spelling) (last : Negation) :
    (others.append spelling last).tokens = others.tokens ++ spelling.and :: last.tokens := by
  match others with
  | .none => simp [Conjuncts.append, Conjuncts.tokens]
  | .and _ _ others =>
      simp [Conjuncts.append, Conjuncts.tokens, others.append_tokens spelling last]

theorem Conjuncts.append_join (others : Conjuncts) (spelling : Spelling) (last : Negation)
    (left : Condition) :
    (others.append spelling last).join left = .and (others.join left) last.condition := by
  match others with
  | .none => rfl
  | .and _ next others => exact others.append_join spelling last (.and left next.condition)

theorem Alternatives.append_tokens (others : Alternatives) (spelling : Spelling)
    (last : Conjunction) :
    (others.append spelling last).tokens = others.tokens ++ spelling.or :: last.tokens := by
  match others with
  | .none => simp [Alternatives.append, Alternatives.tokens]
  | .or _ _ others =>
      simp [Alternatives.append, Alternatives.tokens, others.append_tokens spelling last]

theorem Alternatives.append_join (others : Alternatives) (spelling : Spelling)
    (last : Conjunction) (left : Condition) :
    (others.append spelling last).join left = .or (others.join left) last.condition := by
  match others with
  | .none => rfl
  | .or _ next others => exact others.append_join spelling last (.or left next.condition)

/-- The tokens are those of a unary condition. -/
def DerivesNegation (tokens : List ConditionToken) (condition : Condition) : Prop :=
  ∃ tree : Negation, tree.tokens = tokens ∧ tree.condition = condition

def DerivesConjunction (tokens : List ConditionToken) (condition : Condition) : Prop :=
  ∃ tree : Conjunction, tree.tokens = tokens ∧ tree.condition = condition

def DerivesPrimary (tokens : List ConditionToken) (condition : Condition) : Prop :=
  ∃ tree : Primary, tree.tokens = tokens ∧ tree.condition = condition

section Rules

variable {tokens first last : List ConditionToken} {condition left right : Condition}

theorem DerivesPrimary.negation (derives : DerivesPrimary tokens condition) :
    DerivesNegation tokens condition := by
  obtain ⟨tree, rfl, rfl⟩ := derives
  exact ⟨.of tree, rfl, rfl⟩

theorem DerivesNegation.not (spelling : Spelling) (derives : DerivesNegation tokens condition) :
    DerivesNegation (spelling.not :: tokens) (.not condition) := by
  obtain ⟨tree, rfl, rfl⟩ := derives
  exact ⟨.not spelling tree, rfl, rfl⟩

theorem DerivesNegation.conjunction (derives : DerivesNegation tokens condition) :
    DerivesConjunction tokens condition := by
  obtain ⟨tree, rfl, rfl⟩ := derives
  exact ⟨.of tree .none, by simp [Conjunction.tokens, Conjuncts.tokens], rfl⟩

theorem DerivesConjunction.and (spelling : Spelling) (begins : DerivesConjunction first left)
    (ends : DerivesNegation last right) :
    DerivesConjunction (first ++ spelling.and :: last) (.and left right) := by
  obtain ⟨⟨tree, others⟩, rfl, rfl⟩ := begins
  obtain ⟨lastTree, rfl, rfl⟩ := ends
  refine ⟨.of tree (others.append spelling lastTree), ?_, ?_⟩
  · simp [Conjunction.tokens, Conjuncts.append_tokens]
  · exact Conjuncts.append_join others spelling lastTree tree.condition

theorem DerivesConjunction.disjunction (derives : DerivesConjunction tokens condition) :
    Derives tokens condition := by
  obtain ⟨tree, rfl, rfl⟩ := derives
  exact ⟨.of tree .none, by simp [Disjunction.tokens, Alternatives.tokens], rfl⟩

theorem Derives.or (spelling : Spelling) (begins : Derives first left)
    (ends : DerivesConjunction last right) :
    Derives (first ++ spelling.or :: last) (.or left right) := by
  obtain ⟨⟨tree, others⟩, rfl, rfl⟩ := begins
  obtain ⟨lastTree, rfl, rfl⟩ := ends
  refine ⟨.of tree (others.append spelling lastTree), ?_, ?_⟩
  · simp [Disjunction.tokens, Alternatives.append_tokens]
  · exact Alternatives.append_join others spelling lastTree tree.condition

theorem Derives.group (derives : Derives tokens condition) :
    DerivesPrimary (.opening :: (tokens ++ [.closing])) condition := by
  obtain ⟨tree, rfl, rfl⟩ := derives
  exact ⟨.group tree, rfl, rfl⟩

end Rules

theorem spelling_eq_of_or {left right : Spelling} (same : left.or = right.or) : left = right := by
  cases left <;> cases right <;> cases same <;> rfl

theorem spelling_eq_of_and {left right : Spelling} (same : left.and = right.and) :
    left = right := by
  cases left <;> cases right <;> cases same <;> rfl

theorem spelling_eq_of_not {left right : Spelling} (same : left.not = right.not) :
    left = right := by
  cases left <;> cases right <;> cases same <;> rfl

theorem operand_token_injective {left right : Operand}
    (same : operandToken left = operandToken right) : left = right := by
  cases left <;> cases right <;> cases same <;> rfl

theorem comparison_token_injective {left right : Comparison}
    (same : comparisonToken left = comparisonToken right) : left = right := by
  cases left <;> cases right <;> cases same <;> rfl

theorem outcome_token_injective {left right : StepOutcome}
    (same : outcomeToken left = outcomeToken right) : left = right := by
  cases left <;> cases right <;> first | rfl | exact absurd same (by decide)

theorem constant_token_injective {left right : Bool}
    (same : constantToken left = constantToken right) : left = right := by
  cases left <;> cases right <;> first | rfl | exact absurd same (by decide)

theorem constant_token_ne_step (value : Bool) (step : StepWord) :
    constantToken value ≠ .word step.val := by
  intro same
  apply step.property
  rw [← ConditionToken.word.inj same]
  cases value <;> decide

/-- The tokens do not start with one of the given tokens. -/
def StartsOutside (tokens : List ConditionToken) (rest : List ConditionToken) : Prop :=
  ∀ token ∈ rest.head?, token ∉ tokens

def comparisonTokens : List ConditionToken := [.equal, .different]

/-- What a chain of conjuncts could go on with. -/
def conjunctionTokens : List ConditionToken := [.equal, .different, .and, .word "and"]

/-- What a chain of alternatives could go on with. -/
def disjunctionTokens : List ConditionToken :=
  [.equal, .different, .and, .word "and", .or, .word "or"]

theorem comparison_token_mem (how : Comparison) : comparisonToken how ∈ comparisonTokens := by
  cases how <;> decide

theorem starts_outside_cons {tokens rest : List ConditionToken} {token : ConditionToken}
    (outside : token ∉ tokens) : StartsOutside tokens (token :: rest) := by
  intro first isFirst
  cases isFirst
  exact outside

theorem not_starts_outside {tokens rest : List ConditionToken} {token : ConditionToken}
    (inside : token ∈ tokens) : ¬StartsOutside tokens (token :: rest) :=
  fun outside => outside token rfl inside

theorem StartsOutside.mono {tokens fewer rest : List ConditionToken}
    (outside : StartsOutside tokens rest) (subset : fewer ⊆ tokens) : StartsOutside fewer rest :=
  fun token isFirst inside => outside token isFirst (subset inside)

theorem Conjuncts.starts_outside {rest : List ConditionToken} (others : Conjuncts)
    (outside : StartsOutside conjunctionTokens rest) :
    StartsOutside comparisonTokens (others.tokens ++ rest) := by
  cases others with
  | none => exact outside.mono (by decide)
  | and spelling next others =>
      rw [Conjuncts.tokens, List.cons_append]
      exact starts_outside_cons (by cases spelling <;> decide)

theorem Alternatives.starts_outside {rest : List ConditionToken} (others : Alternatives)
    (outside : StartsOutside disjunctionTokens rest) :
    StartsOutside conjunctionTokens (others.tokens ++ rest) := by
  cases others with
  | none => exact outside.mono (by decide)
  | or spelling next others =>
      rw [Alternatives.tokens, List.cons_append]
      exact starts_outside_cons (by cases spelling <;> decide)

/-- No primary condition starts like a negation. -/
theorem Primary.tokens_ne_not (primary : Primary) (spelling : Spelling)
    (rest more : List ConditionToken) : primary.tokens ++ rest ≠ spelling.not :: more := by
  intro same
  cases primary with
  | group inner => cases spelling <;> cases same
  | constant value =>
      have first : constantToken value = spelling.not := (List.cons.inj same).1
      cases value <;> cases spelling <;> exact absurd first (by decide)
  | stepIs step outcome =>
      have first : ConditionToken.word step.val = spelling.not := (List.cons.inj same).1
      cases spelling with
      | symbol => cases first
      | word =>
          have named : step.val = "not" := ConditionToken.word.inj first
          exact step.property (by rw [named]; decide)
  | operand left compared => cases left <;> cases spelling <;> cases same

theorem compared_unique {compared other : Option (Comparison × Operand)}
    {rest more : List ConditionToken} (outside : StartsOutside comparisonTokens rest)
    (otherOutside : StartsOutside comparisonTokens more)
    (same : comparedTokens compared ++ rest = comparedTokens other ++ more) :
    compared = other ∧ rest = more := by
  match compared, other with
  | none, none => exact ⟨rfl, same⟩
  | none, some (how, right) =>
      change rest = comparisonToken how :: _ at same
      exact absurd (same ▸ outside) (not_starts_outside (comparison_token_mem how))
  | some (how, right), none =>
      change comparisonToken how :: _ = more at same
      exact absurd (same ▸ otherOutside) (not_starts_outside (comparison_token_mem how))
  | some (how, right), some (otherHow, otherRight) =>
      simp only [comparedTokens, List.cons_append, List.nil_append, List.cons.injEq] at same
      obtain rfl := comparison_token_injective same.1
      obtain rfl := operand_token_injective same.2.1
      exact ⟨rfl, same.2.2⟩

mutual

theorem Disjunction.prefix_unique (tree other : Disjunction) {rest more : List ConditionToken}
    (outside : StartsOutside disjunctionTokens rest)
    (otherOutside : StartsOutside disjunctionTokens more)
    (same : tree.tokens ++ rest = other.tokens ++ more) : tree = other ∧ rest = more := by
  match tree, other with
  | .of first others, .of otherFirst otherOthers =>
      simp only [Disjunction.tokens, List.append_assoc] at same
      obtain ⟨rfl, remaining⟩ := first.prefix_unique otherFirst
        (others.starts_outside outside) (otherOthers.starts_outside otherOutside) same
      obtain ⟨rfl, sameRest⟩ := others.prefix_unique otherOthers outside otherOutside remaining
      exact ⟨rfl, sameRest⟩

theorem Alternatives.prefix_unique (tree other : Alternatives) {rest more : List ConditionToken}
    (outside : StartsOutside disjunctionTokens rest)
    (otherOutside : StartsOutside disjunctionTokens more)
    (same : tree.tokens ++ rest = other.tokens ++ more) : tree = other ∧ rest = more := by
  match tree, other with
  | .none, .none => exact ⟨rfl, same⟩
  | .none, .or spelling _ _ =>
      change rest = spelling.or :: _ at same
      exact absurd (same ▸ outside) (not_starts_outside (by cases spelling <;> decide))
  | .or spelling _ _, .none =>
      change spelling.or :: _ = more at same
      exact absurd (same ▸ otherOutside) (not_starts_outside (by cases spelling <;> decide))
  | .or spelling next others, .or otherSpelling otherNext otherOthers =>
      simp only [Alternatives.tokens, List.cons_append, List.append_assoc, List.cons.injEq] at same
      obtain rfl := spelling_eq_of_or same.1
      obtain ⟨rfl, remaining⟩ := next.prefix_unique otherNext
        (others.starts_outside outside) (otherOthers.starts_outside otherOutside) same.2
      obtain ⟨rfl, sameRest⟩ := others.prefix_unique otherOthers outside otherOutside remaining
      exact ⟨rfl, sameRest⟩

theorem Conjunction.prefix_unique (tree other : Conjunction) {rest more : List ConditionToken}
    (outside : StartsOutside conjunctionTokens rest)
    (otherOutside : StartsOutside conjunctionTokens more)
    (same : tree.tokens ++ rest = other.tokens ++ more) : tree = other ∧ rest = more := by
  match tree, other with
  | .of first others, .of otherFirst otherOthers =>
      simp only [Conjunction.tokens, List.append_assoc] at same
      obtain ⟨rfl, remaining⟩ := first.prefix_unique otherFirst
        (others.starts_outside outside) (otherOthers.starts_outside otherOutside) same
      obtain ⟨rfl, sameRest⟩ := others.prefix_unique otherOthers outside otherOutside remaining
      exact ⟨rfl, sameRest⟩

theorem Conjuncts.prefix_unique (tree other : Conjuncts) {rest more : List ConditionToken}
    (outside : StartsOutside conjunctionTokens rest)
    (otherOutside : StartsOutside conjunctionTokens more)
    (same : tree.tokens ++ rest = other.tokens ++ more) : tree = other ∧ rest = more := by
  match tree, other with
  | .none, .none => exact ⟨rfl, same⟩
  | .none, .and spelling _ _ =>
      change rest = spelling.and :: _ at same
      exact absurd (same ▸ outside) (not_starts_outside (by cases spelling <;> decide))
  | .and spelling _ _, .none =>
      change spelling.and :: _ = more at same
      exact absurd (same ▸ otherOutside) (not_starts_outside (by cases spelling <;> decide))
  | .and spelling next others, .and otherSpelling otherNext otherOthers =>
      simp only [Conjuncts.tokens, List.cons_append, List.append_assoc, List.cons.injEq] at same
      obtain rfl := spelling_eq_of_and same.1
      obtain ⟨rfl, remaining⟩ := next.prefix_unique otherNext
        (others.starts_outside outside) (otherOthers.starts_outside otherOutside) same.2
      obtain ⟨rfl, sameRest⟩ := others.prefix_unique otherOthers outside otherOutside remaining
      exact ⟨rfl, sameRest⟩

theorem Negation.prefix_unique (tree other : Negation) {rest more : List ConditionToken}
    (outside : StartsOutside comparisonTokens rest)
    (otherOutside : StartsOutside comparisonTokens more)
    (same : tree.tokens ++ rest = other.tokens ++ more) : tree = other ∧ rest = more := by
  match tree, other with
  | .not spelling inner, .not otherSpelling otherInner =>
      simp only [Negation.tokens, List.cons_append, List.cons.injEq] at same
      obtain rfl := spelling_eq_of_not same.1
      obtain ⟨rfl, sameRest⟩ := inner.prefix_unique otherInner outside otherOutside same.2
      exact ⟨rfl, sameRest⟩
  | .not spelling _, .of primary => exact absurd same.symm (primary.tokens_ne_not spelling _ _)
  | .of primary, .not spelling _ => exact absurd same (primary.tokens_ne_not spelling _ _)
  | .of primary, .of otherPrimary =>
      obtain ⟨rfl, sameRest⟩ := primary.prefix_unique otherPrimary outside otherOutside same
      exact ⟨rfl, sameRest⟩

theorem Primary.prefix_unique (tree other : Primary) {rest more : List ConditionToken}
    (outside : StartsOutside comparisonTokens rest)
    (otherOutside : StartsOutside comparisonTokens more)
    (same : tree.tokens ++ rest = other.tokens ++ more) : tree = other ∧ rest = more := by
  match tree, other with
  | .group inner, .group otherInner =>
      simp only [Primary.tokens, List.cons_append, List.append_assoc, List.nil_append,
        List.cons.injEq, true_and] at same
      obtain ⟨rfl, remaining⟩ := inner.prefix_unique otherInner
        (starts_outside_cons (by decide)) (starts_outside_cons (by decide)) same
      exact ⟨rfl, (List.cons.inj remaining).2⟩
  | .constant value, .constant otherValue =>
      obtain rfl := constant_token_injective (List.cons.inj same).1
      exact ⟨rfl, (List.cons.inj same).2⟩
  | .constant value, .stepIs step _ =>
      exact absurd (List.cons.inj same).1 (constant_token_ne_step value step)
  | .stepIs step _, .constant value =>
      exact absurd (List.cons.inj same).1.symm (constant_token_ne_step value step)
  | .stepIs step outcome, .stepIs otherStep otherOutcome =>
      simp only [Primary.tokens, List.cons_append, List.nil_append, List.cons.injEq] at same
      obtain rfl : step = otherStep := Subtype.ext (ConditionToken.word.inj same.1)
      obtain rfl := outcome_token_injective same.2.1
      exact ⟨rfl, same.2.2⟩
  | .operand left compared, .operand otherLeft otherCompared =>
      obtain rfl := operand_token_injective (List.cons.inj same).1
      obtain ⟨rfl, sameRest⟩ :=
        compared_unique outside otherOutside (List.cons.inj same).2
      exact ⟨rfl, sameRest⟩
  | .group _, .constant _ => cases same
  | .group _, .stepIs _ _ => cases same
  | .group _, .operand left _ => cases left <;> cases same
  | .constant _, .group _ => cases same
  | .constant _, .operand left _ => cases left <;> cases same
  | .stepIs _ _, .group _ => cases same
  | .stepIs _ _, .operand left _ => cases left <;> cases same
  | .operand left _, .group _ => cases left <;> cases same
  | .operand left _, .constant _ => cases left <;> cases same
  | .operand left _, .stepIs _ _ => cases left <;> cases same

end

theorem tokens_injective {tree other : Disjunction} (same : tree.tokens = other.tokens) :
    tree = other := by
  have nothing : StartsOutside disjunctionTokens [] := fun _ isFirst => nomatch isFirst
  exact (tree.prefix_unique other nothing nothing (by rw [same])).1

end ConditionGrammar

end PipelineWaves
