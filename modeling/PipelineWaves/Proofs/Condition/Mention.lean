import PipelineWaves.Proofs.Condition.Refusal

/-!
# What a condition text mentions

A text mentions a variable or a step with one of its tokens. Which tokens these are is
read off the tree that the text is derived by: the variables among its operands, and the
words that name a step. They stand in the text in the order in which the condition of
the text lists its references, so the leftmost mention of a kind is the first reference
of that kind. The value of a condition depends on the outcomes of the steps that it mentions and
of no others.
-/

set_option autoImplicit false

namespace PipelineWaves

theorem steps_and (left right : Condition) :
    (Condition.and left right).steps = left.steps ++ right.steps := by
  simp [Condition.steps, Condition.references]

theorem steps_or (left right : Condition) :
    (Condition.or left right).steps = left.steps ++ right.steps := by
  simp [Condition.steps, Condition.references]

theorem evaluate_congr (environment : Environment) {first second : Outcomes}
    (condition : Condition) (agree : ∀ id ∈ condition.steps, first id = second id) :
    condition.evaluate environment first = condition.evaluate environment second := by
  induction condition with
  | constant value => rfl
  | truthy operand => rfl
  | compare left how right => rfl
  | stepIs step outcome =>
      have asked := agree step List.mem_cons_self
      rw [Condition.evaluate, Condition.evaluate, asked]
  | not inner induction => rw [Condition.evaluate, Condition.evaluate, induction agree]
  | and left right leftInduction rightInduction =>
      rw [steps_and] at agree
      obtain ⟨onLeft, onRight⟩ := List.forall_mem_append.1 agree
      rw [Condition.evaluate, Condition.evaluate, leftInduction onLeft, rightInduction onRight]
  | or left right leftInduction rightInduction =>
      rw [steps_or] at agree
      obtain ⟨onLeft, onRight⟩ := List.forall_mem_append.1 agree
      rw [Condition.evaluate, Condition.evaluate, leftInduction onLeft, rightInduction onRight]

/-- The token that a reference is written as, however the text spells it. -/
def Reference.token : Reference → ConditionToken
  | .variable name => .variable name
  | .step name => .word name

namespace ConditionGrammar

/-- A token, and what it refers to if it is a name. -/
structure MarkedToken where
  token : ConditionToken
  reference : Option Reference

namespace MarkedToken

def plain (token : ConditionToken) : MarkedToken := ⟨token, none⟩

def name (reference : Reference) : MarkedToken := ⟨reference.token, some reference⟩

/-- A marked token is written as its reference is. -/
def IsTruthful (marked : MarkedToken) : Prop :=
  ∀ reference ∈ marked.reference, marked.token = reference.token

theorem plain_is_truthful (token : ConditionToken) : (plain token).IsTruthful :=
  fun _ isReference => nomatch isReference

theorem name_is_truthful (reference : Reference) : (name reference).IsTruthful := by
  intro other isOther
  cases isOther
  rfl

end MarkedToken

open MarkedToken

def operandMarked : Operand → MarkedToken
  | .variable text => name (.variable text)
  | .literal text => plain (.literal text)

def comparedMarked : Option (Comparison × Operand) → List MarkedToken
  | none => []
  | some (how, right) => [plain (comparisonToken how), operandMarked right]

mutual

def Disjunction.marked : Disjunction → List MarkedToken
  | .of first others => first.marked ++ others.marked

def Alternatives.marked : Alternatives → List MarkedToken
  | .none => []
  | .or spelling next others => plain spelling.or :: (next.marked ++ others.marked)

def Conjunction.marked : Conjunction → List MarkedToken
  | .of first others => first.marked ++ others.marked

def Conjuncts.marked : Conjuncts → List MarkedToken
  | .none => []
  | .and spelling next others => plain spelling.and :: (next.marked ++ others.marked)

def Negation.marked : Negation → List MarkedToken
  | .not spelling inner => plain spelling.not :: inner.marked
  | .of primary => primary.marked

def Primary.marked : Primary → List MarkedToken
  | .group inner => plain .opening :: (inner.marked ++ [plain .closing])
  | .constant value => [plain (constantToken value)]
  | .stepIs step outcome => [name (.step step.val), plain (outcomeToken outcome)]
  | .operand left compared => operandMarked left :: comparedMarked compared

end

def references (marked : List MarkedToken) : List Reference :=
  marked.filterMap MarkedToken.reference

@[simp]
theorem references_nil : references [] = [] := rfl

@[simp]
theorem references_plain (token : ConditionToken) (rest : List MarkedToken) :
    references (plain token :: rest) = references rest := rfl

@[simp]
theorem references_name (reference : Reference) (rest : List MarkedToken) :
    references (name reference :: rest) = reference :: references rest := rfl

@[simp]
theorem references_append (first second : List MarkedToken) :
    references (first ++ second) = references first ++ references second :=
  List.filterMap_append

/-- Marks that belong to the tokens and give the references. -/
structure Marks (marked : List MarkedToken) (tokens : List ConditionToken)
    (found : List Reference) : Prop where
  tokens : marked.map MarkedToken.token = tokens
  references : references marked = found
  truthful : ∀ mark ∈ marked, mark.IsTruthful

namespace Marks

variable {marked others : List MarkedToken} {tokens otherTokens : List ConditionToken}
  {found otherFound : List Reference}

theorem nil : Marks [] [] [] := ⟨rfl, rfl, by simp⟩

theorem append (marks : Marks marked tokens found) (more : Marks others otherTokens otherFound) :
    Marks (marked ++ others) (tokens ++ otherTokens) (found ++ otherFound) where
  tokens := by rw [List.map_append, marks.tokens, more.tokens]
  references := by rw [references_append, marks.references, more.references]
  truthful := List.forall_mem_append.2 ⟨marks.truthful, more.truthful⟩

theorem plain (token : ConditionToken) (marks : Marks marked tokens found) :
    Marks (MarkedToken.plain token :: marked) (token :: tokens) found where
  tokens := by rw [List.map_cons, marks.tokens]; rfl
  references := by rw [references_plain, marks.references]
  truthful := List.forall_mem_cons.2 ⟨plain_is_truthful token, marks.truthful⟩

theorem name (reference : Reference) (marks : Marks marked tokens found) :
    Marks (MarkedToken.name reference :: marked) (reference.token :: tokens)
      (reference :: found) where
  tokens := by rw [List.map_cons, marks.tokens]; rfl
  references := by rw [references_name, marks.references]
  truthful := List.forall_mem_cons.2 ⟨name_is_truthful reference, marks.truthful⟩

theorem operand (operand : Operand) (marks : Marks marked tokens found) :
    Marks (operandMarked operand :: marked) (operandToken operand :: tokens)
      (operand.references ++ found) := by
  match operand with
  | .variable text => exact marks.name (.variable text)
  | .literal text => exact marks.plain (.literal text)

end Marks

theorem operand_marks (left : Operand) (compared : Option (Comparison × Operand)) :
    Marks (operandMarked left :: comparedMarked compared)
      (operandToken left :: comparedTokens compared)
      (operandCondition left compared).references := by
  match compared with
  | none =>
      have marks := Marks.nil.operand left
      rwa [List.append_nil] at marks
  | some (how, right) =>
      have marks := ((Marks.nil.operand right).plain (comparisonToken how)).operand left
      rwa [List.append_nil] at marks

-- By induction on the trees; a chain adds its references to those of what it is joined to.
mutual

theorem Disjunction.marks (tree : Disjunction) :
    Marks tree.marked tree.tokens tree.condition.references := by
  match tree with
  | .of first others =>
      obtain ⟨found, marks, joined⟩ := others.marks
      rw [Disjunction.condition, joined]
      exact first.marks.append marks

theorem Alternatives.marks (tree : Alternatives) :
    ∃ found, Marks tree.marked tree.tokens found ∧
      ∀ left, (tree.join left).references = left.references ++ found := by
  match tree with
  | .none => exact ⟨[], .nil, fun left => (List.append_nil _).symm⟩
  | .or spelling next others =>
      obtain ⟨found, marks, joined⟩ := others.marks
      refine ⟨next.condition.references ++ found, (next.marks.append marks).plain spelling.or, ?_⟩
      intro left
      rw [Alternatives.join, joined, Condition.references, List.append_assoc]

theorem Conjunction.marks (tree : Conjunction) :
    Marks tree.marked tree.tokens tree.condition.references := by
  match tree with
  | .of first others =>
      obtain ⟨found, marks, joined⟩ := others.marks
      rw [Conjunction.condition, joined]
      exact first.marks.append marks

theorem Conjuncts.marks (tree : Conjuncts) :
    ∃ found, Marks tree.marked tree.tokens found ∧
      ∀ left, (tree.join left).references = left.references ++ found := by
  match tree with
  | .none => exact ⟨[], .nil, fun left => (List.append_nil _).symm⟩
  | .and spelling next others =>
      obtain ⟨found, marks, joined⟩ := others.marks
      refine ⟨next.condition.references ++ found, (next.marks.append marks).plain spelling.and, ?_⟩
      intro left
      rw [Conjuncts.join, joined, Condition.references, List.append_assoc]

theorem Negation.marks (tree : Negation) :
    Marks tree.marked tree.tokens tree.condition.references := by
  match tree with
  | .not spelling inner => exact inner.marks.plain spelling.not
  | .of primary => exact primary.marks

theorem Primary.marks (tree : Primary) :
    Marks tree.marked tree.tokens tree.condition.references := by
  match tree with
  | .group inner =>
      have marks := (inner.marks.append (Marks.nil.plain .closing)).plain .opening
      rwa [List.append_nil] at marks
  | .constant value => exact Marks.nil.plain (constantToken value)
  | .stepIs step outcome => exact (Marks.nil.plain (outcomeToken outcome)).name (.step step.val)
  | .operand left compared => exact operand_marks left compared

end

end ConditionGrammar

/-- A name that a text mentions, with the token that names it. -/
structure Mention where
  token : PlacedToken
  reference : Reference
deriving DecidableEq, Repr

open ConditionGrammar

/-- The tokens that are marked as names. -/
def mentionsAmong : List PlacedToken → List MarkedToken → List Mention
  | token :: tokens, mark :: marked =>
      (mark.reference.map (Mention.mk token)).toList ++ mentionsAmong tokens marked
  | _, _ => []

/-- The mentions of a text that the grammar derives. -/
def Mentions (source : String) (mentions : List Mention) : Prop :=
  ∃ tokens, ∃ tree : Disjunction, ConditionToken.scan source = .ok tokens ∧
    tree.tokens = tokens.map PlacedToken.token ∧ mentions = mentionsAmong tokens tree.marked

def Mention.IsIn (mention : Mention) (source : String) : Prop :=
  ∃ mentions, Mentions source mentions ∧ mention ∈ mentions

theorem Mentions.unique {source : String} {mentions others : List Mention}
    (lists : Mentions source mentions) (alsoLists : Mentions source others) : mentions = others := by
  obtain ⟨tokens, tree, scanned, derived, rfl⟩ := lists
  obtain ⟨otherTokens, otherTree, otherScanned, otherDerived, rfl⟩ := alsoLists
  rw [scanned] at otherScanned
  cases otherScanned
  rw [tokens_injective (derived.trans otherDerived.symm)]

theorem Mentions.is_in_iff {source : String} {mentions : List Mention}
    (lists : Mentions source mentions) (mention : Mention) :
    mention.IsIn source ↔ mention ∈ mentions := by
  constructor
  · rintro ⟨others, alsoLists, member⟩
    rwa [lists.unique alsoLists]
  · intro member
    exact ⟨mentions, lists, member⟩

theorem mentions_among_references {tokens : List PlacedToken} {marked : List MarkedToken}
    (same : marked.map MarkedToken.token = tokens.map PlacedToken.token) :
    (mentionsAmong tokens marked).map Mention.reference = references marked := by
  induction tokens generalizing marked with
  | nil =>
      obtain rfl : marked = [] := List.map_eq_nil_iff.1 same
      rfl
  | cons token tokens induction =>
      obtain ⟨mark, rest, rfl, _, sameRest⟩ := List.map_eq_cons_iff.1 same
      obtain ⟨text, reference⟩ := mark
      rw [mentionsAmong, List.map_append, induction sameRest]
      cases reference <;> rfl

theorem mentions_among_sublist (tokens : List PlacedToken) (marked : List MarkedToken) :
    ((mentionsAmong tokens marked).map Mention.token).Sublist tokens := by
  induction tokens generalizing marked with
  | nil =>
      rw [mentionsAmong]
      · exact List.Sublist.slnil
      · simp
  | cons token tokens induction =>
      match marked with
      | [] => exact List.nil_sublist _
      | ⟨_, none⟩ :: rest => exact (induction rest).cons token
      | ⟨_, some _⟩ :: rest => exact (induction rest).cons_cons token

theorem mentions_among_truthful {tokens : List PlacedToken} {marked : List MarkedToken}
    (same : marked.map MarkedToken.token = tokens.map PlacedToken.token)
    (truthful : ∀ mark ∈ marked, mark.IsTruthful) :
    ∀ mention ∈ mentionsAmong tokens marked, mention.token.token = mention.reference.token := by
  induction tokens generalizing marked with
  | nil =>
      obtain rfl : marked = [] := List.map_eq_nil_iff.1 same
      simp [mentionsAmong]
  | cons token tokens induction =>
      obtain ⟨mark, rest, rfl, sameFirst, sameRest⟩ := List.map_eq_cons_iff.1 same
      obtain ⟨firstTruthful, restTruthful⟩ := List.forall_mem_cons.1 truthful
      intro mention member
      rw [mentionsAmong, List.mem_append] at member
      rcases member with own | later
      · obtain ⟨reference, isReference, rfl⟩ := Option.map_eq_some_iff.1 (Option.mem_toList.1 own)
        exact sameFirst.symm.trans (firstTruthful reference isReference)
      · exact induction sameRest restTruthful mention later

namespace ConditionToken

theorem scan_from_ascends {position : Nat} {characters : List Char} {tokens : List PlacedToken}
    (scanned : scanFrom position characters = .ok tokens) :
    (∀ placed ∈ tokens, position ≤ placed.position) ∧
      tokens.Pairwise fun left right => left.position < right.position := by
  induction position, characters using scanFrom.induct generalizing tokens with
  | case1 position =>
      simp only [scanFrom] at scanned
      cases scanned
      simp
  | case2 position first rest blank induction =>
      rw [scanFrom, if_pos blank] at scanned
      obtain ⟨behind, ascends⟩ := induction scanned
      exact ⟨fun placed member => Nat.le_trans (Nat.le_add_right _ _) (behind placed member), ascends⟩
  | case3 position first rest visible fault refused =>
      rw [scanFrom, if_neg visible, refused] at scanned
      cases scanned
  | case4 position first rest visible found taken lexed after =>
      rename_i induction
      rw [scanFrom, if_neg visible, lexed] at scanned
      obtain ⟨others, scannedRest, rfl⟩ := except_map_ok scanned
      obtain ⟨behind, ascends⟩ := induction scannedRest
      have moves : ∀ placed ∈ others, position < placed.position := by
        intro placed member
        have reached := behind placed member
        have wide := first.utf8Size_pos
        omega
      refine ⟨?_, List.pairwise_cons.2 ⟨moves, ascends⟩⟩
      exact List.forall_mem_cons.2
        ⟨Nat.le_refl _, fun placed member => Nat.le_of_lt (moves placed member)⟩

end ConditionToken

theorem Mentions.ascends {source : String} {mentions : List Mention}
    (lists : Mentions source mentions) :
    mentions.Pairwise fun left right => left.token.position < right.token.position := by
  obtain ⟨tokens, tree, scanned, _, rfl⟩ := lists
  have ascends := (ConditionToken.scan_from_ascends scanned).2
  have among := ascends.sublist (mentions_among_sublist tokens tree.marked)
  rwa [List.pairwise_map] at among

/-- A mention is a token of the text that names what it refers to. -/
theorem Mention.IsIn.starts {source : String} {mention : Mention} (isIn : mention.IsIn source) :
    mention.token.StartsIn source ∧ mention.token.token = mention.reference.token := by
  obtain ⟨mentions, ⟨tokens, tree, scanned, derived, rfl⟩, member⟩ := isIn
  have isToken := (mentions_among_sublist tokens tree.marked).subset (List.mem_map_of_mem member)
  refine ⟨ConditionToken.scan_places scanned _ isToken, ?_⟩
  exact mentions_among_truthful (tree.marks.tokens.trans derived) tree.marks.truthful _ member

theorem mentions_of_parse {source : String} {condition : Condition}
    (parsed : Condition.parse source = .ok condition) :
    ∃ mentions, Mentions source mentions ∧
      mentions.map Mention.reference = condition.references := by
  rw [Condition.parse] at parsed
  split at parsed
  · cases parsed
  · rename_i tokens scanned
    obtain ⟨tree, derived, rfl⟩ := Condition.of_tokens_ok_iff_derives.1 parsed
    refine ⟨_, ⟨tokens, tree, scanned, derived, rfl⟩, ?_⟩
    rw [mentions_among_references (tree.marks.tokens.trans derived), tree.marks.references]

end PipelineWaves
