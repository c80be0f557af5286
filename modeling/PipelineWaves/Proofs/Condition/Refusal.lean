import Mathlib
import PipelineWaves.Compiled
import PipelineWaves.Proofs.Attempt
import PipelineWaves.Proofs.Condition.Reading

/-!
# Where conditions are refused

A condition text is refused at the first token that nothing can save: the tokens before
it are the beginning of some condition, but no condition begins with them and it. Only a
text whose tokens are all possible is refused at its end. The first part holds because
every reading can be completed, whatever is open in it.
-/

set_option autoImplicit false

namespace PipelineWaves

open ConditionGrammar

namespace ConditionReading

/-- Completes what is being read, without closing any parenthesis. -/
def completion : ConditionFocus → List ConditionToken
  | .start => [.word "true"]
  | .stepName _ => [.word "failed"]
  | .operand _ => []
  | .comparison _ _ => [.literal ""]
  | .primary _ => []

theorem completion_completes (reading : ConditionReading) :
    ∃ next primary, Completes reading (completion reading.focus) next primary := by
  obtain ⟨focus, level, enclosing⟩ := reading
  cases focus with
  | start => exact ⟨⟨.primary (.constant true), level, enclosing⟩, _, rfl, rfl, rfl⟩
  | stepName step => exact ⟨⟨.primary (.stepIs step .failed), level, enclosing⟩, _, rfl, rfl, rfl⟩
  | operand left => exact ⟨⟨.operand left, level, enclosing⟩, _, .refl rfl⟩
  | comparison left how =>
      exact ⟨⟨.primary (.compare left how (.literal "")), level, enclosing⟩, _, rfl, rfl, rfl⟩
  | primary condition => exact ⟨⟨.primary condition, level, enclosing⟩, _, .refl rfl⟩

theorem closings_complete {reading : ConditionReading} {primary : Condition}
    (complete : reading.primary? = some primary) :
    ∃ next condition,
      reading.after? (List.replicate reading.enclosing.length .closing) = some next ∧
        next.result? = some condition := by
  obtain ⟨focus, level, enclosing⟩ := reading
  induction enclosing generalizing focus level primary with
  | nil =>
      exact ⟨_, _, rfl, result_iff.2 ⟨rfl, primary, complete, rfl⟩⟩
  | cons outer others induction =>
      have closes := step_closing complete rfl
      obtain ⟨next, condition, passes, ends⟩ :=
        induction (.primary (level.disjunction primary)) outer rfl
      refine ⟨next, condition, ?_, ends⟩
      rw [List.length_cons, List.replicate_succ, after_cons closes, passes]

theorem reading_completable (reading : ConditionReading) :
    ∃ more next condition, reading.after? more = some next ∧ next.result? = some condition := by
  obtain ⟨middle, primary, completes⟩ := completion_completes reading
  obtain ⟨next, condition, closes, ends⟩ := closings_complete completes.complete
  refine ⟨completion reading.focus ++ List.replicate middle.enclosing.length .closing,
    next, condition, ?_, ends⟩
  rw [after_append, completes.reads, Option.bind_some, closes]

/-- A pass is refused at its end, with all tokens read, or by the token that cannot be read. -/
theorem run_error {reading : ConditionReading} {finish : Nat} {placed : List PlacedToken}
    {failure : ConditionSyntaxError} (failed : reading.run finish placed = .error failure) :
    (failure.position = finish ∧
        ∃ last, reading.after? (placed.map PlacedToken.token) = some last) ∨
      ∃ before token after middle, placed = before ++ token :: after ∧
        failure.position = token.position ∧
          reading.after? (before.map PlacedToken.token) = some middle ∧
            middle.step token.token = .error failure.fault := by
  induction placed generalizing reading with
  | nil =>
      simp only [run] at failed
      split at failed
      · cases failed
      · cases failed
        exact .inl ⟨rfl, reading, rfl⟩
  | cons first placed induction =>
      simp only [run] at failed
      split at failed
      · next fault refused =>
          cases failed
          exact .inr ⟨[], first, placed, reading, rfl, rfl, rfl, refused⟩
      · next middle passes =>
          rcases induction failed with ⟨atEnd, last, reads⟩ |
            ⟨before, token, after, later, rfl, position, reads, refused⟩
          · exact .inl ⟨atEnd, last, (after_cons passes _).trans reads⟩
          · exact .inr ⟨first :: before, token, after, later, rfl, position,
              (after_cons passes _).trans reads, refused⟩

theorem after_refused {reading middle : ConditionReading} {before more : List ConditionToken}
    {token : ConditionToken} {fault : ConditionFault}
    (reads : reading.after? before = some middle) (refused : middle.step token = .error fault) :
    reading.after? (before ++ token :: more) = none := by
  rw [after_append, reads, Option.bind_some]
  simp only [after?, refused]

end ConditionReading

/-- A token of a text starts at the byte that it is placed at. -/
def PlacedToken.StartsIn (placed : PlacedToken) (source : String) : Prop :=
  ∃ before first rest taken, source = before ++ String.ofList (first :: rest) ∧
    before.utf8ByteSize = placed.position ∧
      ConditionToken.lexeme first rest = .ok (placed.token, taken)

namespace ConditionToken

theorem scan_from_places {position : Nat} {characters : List Char} {tokens : List PlacedToken}
    (scanned : scanFrom position characters = .ok tokens) :
    ∀ placed ∈ tokens, ∃ before first rest taken, characters = before ++ first :: rest ∧
      position + Text.byteLength before = placed.position ∧
        lexeme first rest = .ok (placed.token, taken) := by
  induction position, characters using scanFrom.induct generalizing tokens with
  | case1 position =>
      simp only [scanFrom] at scanned
      cases scanned
      simp
  | case2 position first rest blank induction =>
      rw [scanFrom, if_pos blank] at scanned
      intro placed member
      obtain ⟨before, start, more, taken, rfl, placedAt, lexed⟩ := induction scanned placed member
      refine ⟨first :: before, start, more, taken, rfl, ?_, lexed⟩
      rw [← placedAt, Text.byteLength, Nat.add_assoc]
  | case3 position first rest visible fault refused =>
      rw [scanFrom, if_neg visible, refused] at scanned
      cases scanned
  | case4 position first rest visible found taken lexed after =>
      rename_i induction
      rw [scanFrom, if_neg visible, lexed] at scanned
      obtain ⟨others, scannedRest, rfl⟩ := except_map_ok scanned
      intro placed member
      rcases List.mem_cons.1 member with rfl | member
      · exact ⟨[], first, rest, taken, rfl, rfl, lexed⟩
      · obtain ⟨before, start, more, count, split, placedAt, lexedLater⟩ :=
          induction scannedRest placed member
        refine ⟨first :: (rest.take taken ++ before), start, more, count, ?_, ?_, lexedLater⟩
        · rw [List.cons_append, List.append_assoc, ← split, List.take_append_drop]
        · rw [← placedAt, Text.byteLength, Text.byte_length_append]
          omega

theorem scan_places {source : String} {tokens : List PlacedToken}
    (scanned : scan source = .ok tokens) : ∀ placed ∈ tokens, placed.StartsIn source := by
  intro placed member
  obtain ⟨before, first, rest, taken, split, placedAt, lexed⟩ :=
    scan_from_places scanned placed member
  refine ⟨String.ofList before, first, rest, taken, ?_, ?_, lexed⟩
  · rw [← String.ofList_append, ← split, String.ofList_toList]
  · rw [Text.byte_size_of_list, ← placedAt, Nat.zero_add]

end ConditionToken

namespace Condition

open ConditionReading

/-- Some condition starts with the tokens. -/
def Starts (tokens : List PlacedToken) : Prop :=
  ∃ more finish condition, ofTokens finish (tokens ++ more) = .ok condition

theorem starts_of_reading {tokens : List PlacedToken} {reading : ConditionReading}
    (reads : ConditionReading.initial.after? (tokens.map PlacedToken.token) = some reading) :
    Starts tokens := by
  obtain ⟨more, next, condition, passes, ends⟩ := reading_completable reading
  refine ⟨more.map (⟨0, ·⟩), 0, condition, of_tokens_ok_iff.2 ⟨next, ?_, ends⟩⟩
  have unplaced : (more.map (PlacedToken.mk 0)).map PlacedToken.token = more := by
    simp [Function.comp_def]
  rw [List.map_append, unplaced, after_append, reads, Option.bind_some, passes]

theorem not_starts_of_refused {before : List PlacedToken} {token : PlacedToken}
    {reading : ConditionReading} {fault : ConditionFault}
    (reads : ConditionReading.initial.after? (before.map PlacedToken.token) = some reading)
    (refused : reading.step token.token = .error fault) : ¬Starts (before ++ [token]) := by
  rintro ⟨more, finish, condition, accepted⟩
  obtain ⟨next, passes, _⟩ := of_tokens_ok_iff.1 accepted
  have stops : ConditionReading.initial.after?
      (before.map PlacedToken.token ++ token.token :: more.map PlacedToken.token) = none :=
    after_refused reads refused
  rw [List.append_assoc, List.singleton_append, List.map_append, List.map_cons, stops] at passes
  cases passes

theorem of_tokens_error {finish : Nat} {tokens : List PlacedToken} {failure : ConditionSyntaxError}
    (refused : ofTokens finish tokens = .error failure) :
    (failure.position = finish ∧ Starts tokens) ∨
      ∃ before token after, tokens = before ++ token :: after ∧
        failure.position = token.position ∧ Starts before ∧ ¬Starts (before ++ [token]) := by
  rw [of_tokens_eq_run] at refused
  rcases run_error refused with ⟨atEnd, last, reads⟩ |
    ⟨before, token, after, middle, split, position, reads, step⟩
  · exact .inl ⟨atEnd, starts_of_reading reads⟩
  · exact .inr ⟨before, token, after, split, position, starts_of_reading reads,
      not_starts_of_refused reads step⟩

/-- The position of a syntax error is the end of the text, if more could make it a condition,
and else the start of the first token that no condition has after the tokens before it. The
error of a step names that step. -/
theorem refusal_at_first_impossible_token {source : String} {tokens : List PlacedToken}
    {failure : ConditionSyntaxError} (scanned : ConditionToken.scan source = .ok tokens)
    (refused : parse source = .error failure) :
    ((failure.position = source.utf8ByteSize ∧ Starts tokens) ∨
        ∃ before token after, tokens = before ++ token :: after ∧
          failure.position = token.position ∧ token.StartsIn source ∧
            Starts before ∧ ¬Starts (before ++ [token])) ∧
      ∀ (pipeline : Pipeline) (graph : Graph) (step : Step),
        CompiledPipeline.compileCondition pipeline graph step source =
          .error (.condition step.id failure) := by
  constructor
  · have reading := refused
    simp only [parse, scanned] at reading
    rcases of_tokens_error reading with atEnd | ⟨before, token, after, split, position, starts⟩
    · exact .inl atEnd
    · have placed := ConditionToken.scan_places scanned token (by simp [split])
      exact .inr ⟨before, token, after, split, position, placed, starts⟩
  · intro pipeline graph step
    simp only [CompiledPipeline.compileCondition, refused]

def strayText : String := "('é' == $A) && )"

def strayTokens : List PlacedToken :=
  [⟨0, .opening⟩, ⟨1, .literal "é"⟩, ⟨6, .equal⟩, ⟨9, .variable "A"⟩, ⟨11, .closing⟩,
    ⟨13, .and⟩, ⟨16, .closing⟩]

theorem stray_closing_refused :
    ConditionToken.scan strayText = .ok strayTokens ∧
      parse strayText = .error ⟨16, .unexpectedToken .closing⟩ ∧
      (∃ before token after, strayTokens = before ++ token :: after ∧ 16 = token.position ∧
        token.StartsIn strayText ∧ Starts before ∧ ¬Starts (before ++ [token])) ∧
      ∀ (pipeline : Pipeline) (graph : Graph) (step : Step),
        CompiledPipeline.compileCondition pipeline graph step strayText =
          .error (.condition step.id ⟨16, .unexpectedToken .closing⟩) := by
  have scanned : ConditionToken.scan strayText = .ok strayTokens := by cbv
  have refused : parse strayText = .error ⟨16, .unexpectedToken .closing⟩ := by cbv
  have pointed := refusal_at_first_impossible_token scanned refused
  have inside : (16 : Nat) ≠ strayText.utf8ByteSize := by decide
  exact ⟨scanned, refused, pointed.1.resolve_left fun atEnd => inside atEnd.1, pointed.2⟩

end Condition

end PipelineWaves
