import PipelineWaves.Proofs.Condition.Lexeme
import PipelineWaves.Proofs.Condition.Reading

/-!
# Writing conditions

A condition can be written in many ways: every operator has two spellings, every
variable has two, every literal may stand in either quote, and any blank space may
separate tokens. `Written` says which tokens write a condition with no more parentheses
than its operators need, and `WrittenAs` which texts. Every such text is read back as
the condition it was written for.
-/

set_option autoImplicit false

namespace PipelineWaves

open ConditionGrammar

/-- The names that can be written: a variable is any word, a step a plain and free one. -/
def Reference.IsWritable : Reference → Prop
  | .variable name => IsWord name
  | .step name => IsPlainWord name ∧ name ∉ reservedWords

instance : DecidablePred Reference.IsWritable
  | .variable name => inferInstanceAs (Decidable (IsWord name))
  | .step name => inferInstanceAs (Decidable (IsPlainWord name ∧ name ∉ reservedWords))

namespace Condition

/-- Everything that the condition mentions has a name that can be written. -/
def IsWritable (condition : Condition) : Prop :=
  ∀ reference ∈ condition.references, reference.IsWritable

instance (condition : Condition) : Decidable condition.IsWritable :=
  inferInstanceAs (Decidable (∀ reference ∈ condition.references, reference.IsWritable))

/-- How close the outermost operator binds. -/
def strength : Condition → Nat
  | .or _ _ => 0
  | .and _ _ => 1
  | _ => 2

/-- The tokens write the condition at a place where operators must bind at least as close
as the strength. Parentheses stand around a weaker operator and nowhere else; the right
side of an operator must bind closer than it, the left side need not. -/
inductive Written : Nat → Condition → List ConditionToken → Prop where
  | constant {least : Nat} (value : Bool) :
      Written least (.constant value) [constantToken value]
  | truthy {least : Nat} (operand : Operand) :
      Written least (.truthy operand) [operandToken operand]
  | compare {least : Nat} (left : Operand) (how : Comparison) (right : Operand) :
      Written least (.compare left how right)
        [operandToken left, comparisonToken how, operandToken right]
  | stepIs {least : Nat} (step : String) (outcome : StepOutcome) :
      Written least (.stepIs step outcome) [.word step, outcomeToken outcome]
  | not {least : Nat} {inner : Condition} {tokens : List ConditionToken} (spelling : Spelling)
      (written : Written 2 inner tokens) : Written least (.not inner) (spelling.not :: tokens)
  | and {least : Nat} {left right : Condition} {first last : List ConditionToken}
      (spelling : Spelling) (fits : least ≤ 1) (begins : Written 1 left first)
      (ends : Written 2 right last) :
      Written least (.and left right) (first ++ spelling.and :: last)
  | or {least : Nat} {left right : Condition} {first last : List ConditionToken}
      (spelling : Spelling) (fits : least ≤ 0) (begins : Written 0 left first)
      (ends : Written 1 right last) :
      Written least (.or left right) (first ++ spelling.or :: last)
  | group {least : Nat} {inner : Condition} {tokens : List ConditionToken}
      (needed : inner.strength < least) (written : Written 0 inner tokens) :
      Written least inner (.opening :: (tokens ++ [.closing]))

end Condition

namespace ConditionGrammar

def DerivesAt (tokens : List ConditionToken) (condition : Condition) : Nat → Prop
  | 0 => Derives tokens condition
  | 1 => DerivesConjunction tokens condition
  | _ => DerivesNegation tokens condition

theorem DerivesNegation.at {tokens : List ConditionToken} {condition : Condition}
    (derives : DerivesNegation tokens condition) (least : Nat) :
    DerivesAt tokens condition least := by
  match least with
  | 0 => exact derives.conjunction.disjunction
  | 1 => exact derives.conjunction
  | _ + 2 => exact derives

theorem DerivesConjunction.at {tokens : List ConditionToken} {condition : Condition}
    (derives : DerivesConjunction tokens condition) {least : Nat} (fits : least ≤ 1) :
    DerivesAt tokens condition least := by
  match least, fits with
  | 0, _ => exact derives.disjunction
  | 1, _ => exact derives

end ConditionGrammar

namespace Condition

/-- What writes a condition derives it. -/
theorem Written.derives {least : Nat} {condition : Condition} {tokens : List ConditionToken}
    (written : Written least condition tokens) (writable : condition.IsWritable) :
    DerivesAt tokens condition least := by
  induction written with
  | constant value => exact DerivesNegation.at ⟨.of (.constant value), rfl, rfl⟩ _
  | truthy operand => exact DerivesNegation.at ⟨.of (.operand operand none), rfl, rfl⟩ _
  | compare left how right =>
      exact DerivesNegation.at ⟨.of (.operand left (some (how, right))), rfl, rfl⟩ _
  | stepIs step outcome =>
      have free : step ∉ reservedWords := (writable (.step step) (by simp [references])).2
      exact DerivesNegation.at ⟨.of (.stepIs ⟨step, free⟩ outcome), rfl, rfl⟩ _
  | not spelling written induction =>
      exact (DerivesNegation.not spelling (induction writable)).at _
  | and spelling fits begins ends beginsInduction endsInduction =>
      have derivesLeft := beginsInduction fun reference mentioned =>
        writable reference (List.mem_append_left _ mentioned)
      have derivesRight := endsInduction fun reference mentioned =>
        writable reference (List.mem_append_right _ mentioned)
      exact (DerivesConjunction.and spelling derivesLeft derivesRight).at fits
  | or spelling fits begins ends beginsInduction endsInduction =>
      have derivesLeft := beginsInduction fun reference mentioned =>
        writable reference (List.mem_append_left _ mentioned)
      have derivesRight := endsInduction fun reference mentioned =>
        writable reference (List.mem_append_right _ mentioned)
      rw [Nat.le_zero.1 fits]
      exact Derives.or spelling derivesLeft derivesRight
  | group needed written induction =>
      exact (Derives.group (induction writable)).negation.at _

theorem exists_written (condition : Condition) (least : Nat) :
    ∃ tokens, Written least condition tokens := by
  induction condition generalizing least with
  | constant value => exact ⟨_, .constant value⟩
  | truthy operand => exact ⟨_, .truthy operand⟩
  | compare left how right => exact ⟨_, .compare left how right⟩
  | stepIs step outcome => exact ⟨_, .stepIs step outcome⟩
  | not inner induction =>
      obtain ⟨tokens, written⟩ := induction 2
      exact ⟨_, .not .symbol written⟩
  | and left right leftInduction rightInduction =>
      obtain ⟨first, begins⟩ := leftInduction 1
      obtain ⟨last, ends⟩ := rightInduction 2
      by_cases fits : least ≤ 1
      · exact ⟨_, .and .symbol fits begins ends⟩
      · exact ⟨_, .group (Nat.not_le.1 fits) (.and .symbol (Nat.zero_le 1) begins ends)⟩
  | or left right leftInduction rightInduction =>
      obtain ⟨first, begins⟩ := leftInduction 0
      obtain ⟨last, ends⟩ := rightInduction 1
      by_cases fits : least ≤ 0
      · exact ⟨_, .or .symbol fits begins ends⟩
      · exact ⟨_, .group (Nat.not_le.1 fits) (.or .symbol (Nat.le_refl 0) begins ends)⟩

end Condition

namespace ConditionToken

/-- The characters spell the tokens with blank space between them. -/
inductive Spaced : List ConditionToken → List Char → Prop where
  | last {token : ConditionToken} {characters : List Char} (spells : Spells token characters) :
      Spaced [token] characters
  | cons {token : ConditionToken} {tokens : List ConditionToken}
      {characters blanks rest : List Char} (spells : Spells token characters)
      (separated : blanks ≠ []) (blank : ∀ character ∈ blanks, Text.isBlank character = true)
      (spaced : Spaced tokens rest) :
      Spaced (token :: tokens) (characters ++ (blanks ++ rest))

theorem Spaced.laid_out {tokens : List ConditionToken} {characters : List Char}
    (spaced : Spaced tokens characters) (lexical : ∀ token ∈ tokens, token.IsLexical)
    (position : Nat) :
    ∃ placed, LaidOut [] position placed characters ∧ placed.map PlacedToken.token = tokens := by
  induction spaced generalizing position with
  | @last token characters spells =>
      have spelled := IsSpelledBy.written (lexical token List.mem_cons_self) spells
      exact ⟨[⟨position, token⟩], .single spelled token.ends_before_nil, rfl⟩
  | @cons token tokens characters blanks rest spells separated blank spaced induction =>
      obtain ⟨isLexical, others⟩ := List.forall_mem_cons.1 lexical
      have spelled := IsSpelledBy.written isLexical spells
      have ends : token.EndsBefore ((blanks ++ rest) ++ []) := by
        obtain ⟨first, more, rfl⟩ := List.exists_cons_of_ne_nil separated
        exact token.ends_before_blank _ (blank first List.mem_cons_self)
      obtain ⟨placed, laid, same⟩ := induction others
        (position + Text.byteLength characters + Text.byteLength blanks)
      refine ⟨⟨position, token⟩ :: placed, ?_, by rw [List.map_cons, same]⟩
      exact (LaidOut.single spelled ends).append (laid.behind_blanks blank)

theorem Spaced.scans {tokens : List ConditionToken} {characters : List Char}
    (spaced : Spaced tokens characters) (lexical : ∀ token ∈ tokens, token.IsLexical)
    (position : Nat) :
    ∃ placed, scanFrom position characters = .ok placed ∧
      placed.map PlacedToken.token = tokens := by
  obtain ⟨placed, laid, same⟩ := spaced.laid_out lexical position
  exact ⟨placed, laid.scan, same⟩

theorem exists_spelling (token : ConditionToken) : ∃ characters, Spells token characters := by
  match token with
  | .word text => exact ⟨_, .word text⟩
  | .variable name => exact ⟨_, .dollar name⟩
  | .literal text => exact ⟨_, .literal '"' (by decide) text⟩
  | .equal => exact ⟨_, .equal⟩
  | .different => exact ⟨_, .different⟩
  | .and => exact ⟨_, .and⟩
  | .or => exact ⟨_, .or⟩
  | .not => exact ⟨_, .not⟩
  | .opening => exact ⟨_, .opening⟩
  | .closing => exact ⟨_, .closing⟩

theorem exists_spaced {tokens : List ConditionToken} (some : tokens ≠ []) :
    ∃ characters, Spaced tokens characters := by
  induction tokens with
  | nil => exact absurd rfl some
  | cons token tokens induction =>
      obtain ⟨characters, spells⟩ := exists_spelling token
      by_cases last : tokens = []
      · subst last
        exact ⟨characters, .last spells⟩
      · obtain ⟨rest, spaced⟩ := induction last
        exact ⟨_, .cons spells (List.cons_ne_nil ' ' []) (List.all_eq_true.1 (by decide)) spaced⟩

end ConditionToken

namespace Condition

open ConditionToken

theorem operand_token_lexical {operand : Operand}
    (writable : ∀ reference ∈ operand.references, reference.IsWritable) :
    (operandToken operand).IsLexical := by
  match operand with
  | .variable name => exact writable (.variable name) List.mem_cons_self
  | .literal text => trivial

theorem spelling_lexical (spelling : Spelling) :
    spelling.and.IsLexical ∧ spelling.or.IsLexical ∧ spelling.not.IsLexical := by
  cases spelling with
  | symbol => exact ⟨trivial, trivial, trivial⟩
  | word =>
      exact ⟨show IsPlainWord "and" by decide, show IsPlainWord "or" by decide,
        show IsPlainWord "not" by decide⟩

theorem outcome_token_lexical (outcome : StepOutcome) : (outcomeToken outcome).IsLexical := by
  cases outcome with
  | success => exact show IsPlainWord "succeeded" by decide
  | failed => exact show IsPlainWord "failed" by decide
  | skipped => exact show IsPlainWord "skipped" by decide

theorem constant_token_lexical (value : Bool) : (constantToken value).IsLexical := by
  cases value with
  | true => exact show IsPlainWord "true" by decide
  | false => exact show IsPlainWord "false" by decide

theorem comparison_token_lexical (how : Comparison) : (comparisonToken how).IsLexical := by
  cases how <;> trivial

theorem Written.lexical {least : Nat} {condition : Condition} {tokens : List ConditionToken}
    (written : Written least condition tokens) (writable : condition.IsWritable) :
    ∀ token ∈ tokens, token.IsLexical := by
  induction written with
  | constant value => simpa using constant_token_lexical value
  | truthy operand => simpa using operand_token_lexical writable
  | compare left how right =>
      have leftLexical := operand_token_lexical fun reference mentioned =>
        writable reference (List.mem_append_left _ mentioned)
      have rightLexical := operand_token_lexical fun reference mentioned =>
        writable reference (List.mem_append_right _ mentioned)
      simpa using ⟨leftLexical, comparison_token_lexical how, rightLexical⟩
  | stepIs step outcome =>
      have named : IsPlainWord step := (writable (.step step) List.mem_cons_self).1
      simpa using ⟨named, outcome_token_lexical outcome⟩
  | not spelling written induction =>
      simpa using ⟨(spelling_lexical spelling).2.2, induction writable⟩
  | and spelling fits begins ends beginsInduction endsInduction =>
      have first := beginsInduction fun reference mentioned =>
        writable reference (List.mem_append_left _ mentioned)
      have last := endsInduction fun reference mentioned =>
        writable reference (List.mem_append_right _ mentioned)
      simp only [List.forall_mem_append, List.forall_mem_cons]
      exact ⟨first, (spelling_lexical spelling).1, last⟩
  | or spelling fits begins ends beginsInduction endsInduction =>
      have first := beginsInduction fun reference mentioned =>
        writable reference (List.mem_append_left _ mentioned)
      have last := endsInduction fun reference mentioned =>
        writable reference (List.mem_append_right _ mentioned)
      simp only [List.forall_mem_append, List.forall_mem_cons]
      exact ⟨first, (spelling_lexical spelling).2.1, last⟩
  | group needed written induction =>
      simp only [List.forall_mem_append, List.forall_mem_cons, List.not_mem_nil]
      exact ⟨trivial, induction writable, trivial, fun _ impossible => impossible.elim⟩

def WrittenAs (condition : Condition) (source : String) : Prop :=
  ∃ tokens, Written 0 condition tokens ∧ Spaced tokens source.toList

theorem Written.tokens_ne_nil {least : Nat} {condition : Condition}
    {tokens : List ConditionToken} (written : Written least condition tokens) : tokens ≠ [] := by
  cases written <;> simp

theorem exists_written_as (condition : Condition) : ∃ source, condition.WrittenAs source := by
  obtain ⟨tokens, written⟩ := condition.exists_written 0
  obtain ⟨characters, spaced⟩ := exists_spaced written.tokens_ne_nil
  exact ⟨String.ofList characters, tokens, written, by rwa [String.toList_ofList]⟩

/-- A condition whose names can be written has texts, and each of them is read as it. -/
theorem parse_written (condition : Condition) (writable : condition.IsWritable) :
    (∃ source, condition.WrittenAs source) ∧
      ∀ source, condition.WrittenAs source → parse source = .ok condition := by
  refine ⟨condition.exists_written_as, ?_⟩
  rintro source ⟨tokens, written, spaced⟩
  obtain ⟨placed, scanned, same⟩ := spaced.scans (written.lexical writable) 0
  have derives : Derives (placed.map PlacedToken.token) condition := by
    rw [same]
    exact written.derives writable
  rw [parse, scan, scanned]
  exact of_tokens_ok_iff_derives.2 derives

/-- A negated alternative and a literal with the quote it stands in. -/
def guardedCondition : Condition :=
  .and (.not (.or (.stepIs "or" .failed) (.truthy (.variable "FORCE"))))
    (.compare (.variable "NAME") .equal (.literal "it's"))

def guardedText : String := "not ( or failed || $FORCE )\tand  env.NAME == 'it\\'s'"

theorem guarded_text_writes : guardedCondition.WrittenAs guardedText := by
  have written : Written 0 guardedCondition
      [.word "not", .opening, .word "or", .word "failed", .or, .variable "FORCE", .closing,
        .word "and", .variable "NAME", .equal, .literal "it's"] :=
    .and .word (by decide)
      (.not .word (.group (by decide)
        (.or .symbol (by decide) (.stepIs "or" .failed) (.truthy (.variable "FORCE")))))
      (.compare (.variable "NAME") .equal (.literal "it's"))
  refine ⟨_, written, ?_⟩
  have single : ∀ character ∈ [' '], Text.isBlank character = true :=
    List.all_eq_true.1 (by decide)
  exact .cons (.word "not") (List.cons_ne_nil ' ' []) single <|
    .cons .opening (List.cons_ne_nil ' ' []) single <|
    .cons (.word "or") (List.cons_ne_nil ' ' []) single <|
    .cons (.word "failed") (List.cons_ne_nil ' ' []) single <|
    .cons .or (List.cons_ne_nil ' ' []) single <|
    .cons (.dollar "FORCE") (List.cons_ne_nil ' ' []) single <|
    .cons .closing (List.cons_ne_nil '\t' []) (List.all_eq_true.1 (by decide)) <|
    .cons (.word "and") (List.cons_ne_nil ' ' [' ']) (List.all_eq_true.1 (by decide)) <|
    .cons (.environment "NAME") (List.cons_ne_nil ' ' []) single <|
    .cons .equal (List.cons_ne_nil ' ' []) single <|
    .last (.literal '\'' (by decide) "it's")

theorem guarded_text_read : guardedCondition.IsWritable ∧ guardedCondition.WrittenAs guardedText ∧
    parse guardedText = .ok guardedCondition :=
  ⟨by decide, guarded_text_writes,
    (parse_written guardedCondition (by decide)).2 guardedText guarded_text_writes⟩

end Condition

end PipelineWaves
