import PipelineWaves.Proofs.Attempt
import PipelineWaves.Proofs.Program.Conduct
import PipelineWaves.Recipe.Artifact

/-!
# Mirrored attempts

Two attempts on different states mirror each other when, from states that look the same,
both succeed with agreeing results or both fail, and leave states that look the same. The
failures themselves need not agree. There is one rule for each way of putting attempts
together, and the parts that recipes and programs are made of mirror each other.
-/

set_option autoImplicit false

namespace PipelineWaves

/-- Both succeeded with agreeing results, or both failed. -/
inductive EndsMatch {Failure Fault First Second : Type} (agree : First → Second → Prop) :
    Except Failure First → Except Fault Second → Prop
  | succeeded {result : First} {other : Second} (agrees : agree result other) :
      EndsMatch agree (.ok result) (.ok other)
  | failed (failure : Failure) (fault : Fault) : EndsMatch agree (.error failure) (.error fault)

namespace EndsMatch

variable {Failure Fault Changed Told First Second Third : Type} {agree : First → Second → Prop}
  {result : Except Failure First} {other : Except Fault Second}

theorem isOk_eq (alike : EndsMatch agree result other) : result.isOk = other.isOk := by
  cases alike <;> rfl

theorem mapError (alike : EndsMatch agree result other) (change : Failure → Changed)
    (tell : Fault → Told) : EndsMatch agree (result.mapError change) (other.mapError tell) := by
  cases alike with
  | succeeded agrees => exact .succeeded agrees
  | failed failure fault => exact .failed _ _

theorem refl (result : Except Failure First) (change : Failure → Changed) (tell : Failure → Told) :
    EndsMatch Eq (result.mapError change) (result.mapError tell) := by
  cases result with
  | ok value => exact .succeeded rfl
  | error failure => exact .failed _ _

/-- A failure is matched by a failure, whatever would count as agreeing. -/
theorem of_error {agreeOther : Third → Second → Prop} {failure : Failure}
    (alike : EndsMatch agree (.error failure : Except Failure First) other) :
    EndsMatch agreeOther (.error failure) other := by
  cases alike with
  | failed failure fault => exact .failed failure fault

theorem of_ok {agreeOther : Third → Second → Prop} {value : First} {result : Third}
    (alike : EndsMatch agree (.ok value : Except Failure First) other)
    (agrees : ∀ otherValue, agree value otherValue → agreeOther result otherValue) :
    EndsMatch agreeOther (.ok result : Except Failure Third) other := by
  cases alike with
  | succeeded agree => exact .succeeded (agrees _ agree)

end EndsMatch

namespace Attempt

variable {State Seen Failure Fault First Second Next Last : Type}

/-- From a state, the other attempt ends alike from what is seen of the state. -/
structure MirroredBy (view : State → Seen) (state : State) (agree : First → Second → Prop)
    (attempt : Attempt State Failure First) (other : Attempt Seen Fault Second) : Prop where
  results : EndsMatch agree (attempt.outcome state).1 (other.outcome (view state)).1
  states : view (attempt.outcome state).2 = (other.outcome (view state)).2

variable {view : State → Seen} {state : State} {agree : First → Second → Prop}
  {agreeNext : Next → Last → Prop} {attempt : Attempt State Failure First}
  {other : Attempt Seen Fault Second}

theorem mirrored_pure {result : First} {otherResult : Second} (agrees : agree result otherResult) :
    MirroredBy view state agree (pure result : Attempt State Failure First)
      (pure otherResult : Attempt Seen Fault Second) :=
  ⟨.succeeded agrees, rfl⟩

theorem mirrored_throw (failure : Failure) (fault : Fault) :
    MirroredBy view state agree (throw failure : Attempt State Failure First)
      (throw fault : Attempt Seen Fault Second) :=
  ⟨.failed failure fault, rfl⟩

theorem MirroredBy.bind {next : First → Attempt State Failure Next}
    {otherNext : Second → Attempt Seen Fault Last}
    (mirrored : MirroredBy view state agree attempt other)
    (continues : ∀ result otherResult after, agree result otherResult →
      MirroredBy view after agreeNext (next result) (otherNext otherResult)) :
    MirroredBy view state agreeNext (attempt >>= next) (other >>= otherNext) := by
  obtain ⟨results, states⟩ := mirrored
  have whole := outcome_bind attempt next state
  have otherWhole := outcome_bind other otherNext (view state)
  rcases ended : attempt.outcome state with ⟨result, after⟩
  rcases otherEnded : other.outcome (view state) with ⟨otherResult, otherAfter⟩
  rw [ended, otherEnded] at results
  rw [ended, otherEnded] at states
  rw [ended] at whole
  rw [otherEnded] at otherWhole
  dsimp only at results states
  subst states
  cases results with
  | failed failure fault =>
      constructor
      · rw [whole, otherWhole]
        exact .failed failure fault
      · rw [whole, otherWhole]
  | succeeded agrees =>
      have continued := continues _ _ after agrees
      constructor
      · rw [whole, otherWhole]
        exact continued.results
      · rw [whole, otherWhole]
        exact continued.states

theorem mirrored_get_bind {next : State → Attempt State Failure First}
    {otherNext : Seen → Attempt Seen Fault Second}
    (continues : MirroredBy view state agree (next state) (otherNext (view state))) :
    MirroredBy view state agree (get >>= next) (get >>= otherNext) :=
  ⟨continues.results, continues.states⟩

theorem MirroredBy.mapFailure {Changed : Type} {change : Failure → Changed}
    (mirrored : MirroredBy view state agree attempt other) :
    MirroredBy view state agree (attempt.mapFailure change) other := by
  obtain ⟨results, states⟩ := mirrored
  have whole := outcome_map_failure attempt change state
  refine ⟨?_, by rwa [whole]⟩
  rw [whole]
  have told := results.mapError change id
  cases ended : (other.outcome (view state)).1 with
  | ok value => rwa [ended] at told
  | error fault => rwa [ended] at told

theorem mirrored_call {Changed Told : Type} (call : Attempt State Failure First)
    (change : Failure → Changed) (tell : Failure → Told) :
    MirroredBy id state Eq (call.mapFailure change) (call.mapFailure tell) := by
  have whole := outcome_map_failure call change state
  have otherWhole := outcome_map_failure call tell state
  constructor
  · rw [whole]
    show EndsMatch Eq _ ((call.mapFailure tell).outcome state).1
    rw [otherWhole]
    exact .refl _ change tell
  · rw [whole]
    show _ = ((call.mapFailure tell).outcome state).2
    rw [otherWhole]
    rfl

theorem MirroredBy.then_pure {make : First → Next} {agreeMade : Next → Second → Prop}
    (mirrored : MirroredBy view state agree attempt other)
    (agrees : ∀ result otherResult, agree result otherResult →
      agreeMade (make result) otherResult) :
    MirroredBy view state agreeMade (attempt >>= fun result => pure (make result)) other := by
  obtain ⟨results, states⟩ := mirrored
  have whole := outcome_bind attempt (fun result => pure (make result)) state
  rcases ended : attempt.outcome state with ⟨result, after⟩
  rw [ended] at results states whole
  dsimp only at results states
  cases result with
  | error failure =>
      refine ⟨?_, by rwa [whole]⟩
      rw [whole]
      exact results.of_error
  | ok value =>
      refine ⟨?_, by rw [whole]; exact states⟩
      rw [whole]
      exact results.of_ok (agrees value)

/-- A part that succeeds and changes nothing is not seen. -/
theorem mirrored_after {first : Attempt State Failure First} {found : First}
    {next : First → Attempt State Failure Next} {other : Attempt Seen Fault Last}
    (stays : first.outcome state = (.ok found, state))
    (continues : MirroredBy view state agreeNext (next found) other) :
    MirroredBy view state agreeNext (first >>= next) other := by
  have whole := outcome_bind first next state
  rw [stays] at whole
  constructor
  · rw [whole]
    exact continues.results
  · rw [whole]
    exact continues.states

/-- What looks at the state goes on with what it finds there. -/
theorem mirrored_reading_bind {look : State → Except Failure First} {found : First}
    {next : First → Attempt State Failure Next} {otherNext : Seen → Attempt Seen Fault Last}
    (finds : look state = .ok found)
    (continues : MirroredBy view state agreeNext (next found) (otherNext (view state))) :
    MirroredBy view state agreeNext (reading look >>= next) (get >>= otherNext) := by
  have stays : (reading look).outcome state = (.ok found, state) := by
    rw [← finds]
    rfl
  exact mirrored_after stays ⟨continues.results, continues.states⟩

end Attempt

open Attempt

namespace Artifact

variable {files : Files}

theorem copy_file_mirrored (source destination : FilePath) :
    MirroredBy id files (fun _ _ => True) (copyFile source destination)
      (ProgramCopy.copyFile source destination) := by
  refine mirrored_get_bind ?_
  have sameTarget : ProgramCopy.targetOf (id files) source destination =
      targetOf files source destination := rfl
  dsimp only
  rw [sameTarget]
  cases (targetOf files source destination).parent? with
  | none => exact (mirrored_call _ _ _).then_pure fun _ _ _ => trivial
  | some parent =>
      exact .bind (mirrored_call _ _ _) fun _ _ _ _ =>
        (mirrored_call _ _ _).then_pure fun _ _ _ => trivial

theorem copy_entries_mirrored {copy : FilePath → FilePath → Copying Nat}
    {other : FilePath → FilePath → Attempt Files String Unit}
    (each : ∀ files source destination, MirroredBy id files (fun _ _ => True)
      (copy source destination) (other source destination))
    (source destination : FilePath) (names : List String) :
    MirroredBy id files (fun _ _ => True) (copyEntries copy source destination names)
      (ProgramCopy.copyEntries other source destination names) := by
  induction names generalizing files with
  | nil => exact mirrored_pure trivial
  | cons name rest induction =>
      exact .bind (each _ _ _) fun _ _ _ _ => induction.then_pure fun _ _ _ => trivial

theorem copy_within_mirrored (depth : Nat) (source destination : FilePath) :
    MirroredBy id files (fun _ _ => True) (copyWithin depth source destination)
      (ProgramCopy.copyWithin depth source destination) := by
  induction depth generalizing files source destination with
  | zero => exact mirrored_throw _ _
  | succ depth induction =>
      refine (mirrored_call _ _ _).bind ?_
      rintro ⟨location, node⟩ _ after rfl
      dsimp only
      split
      · refine .bind (mirrored_call _ _ _) fun _ _ made _ => ?_
        refine (mirrored_call _ _ _).bind ?_
        rintro names _ listed rfl
        exact copy_entries_mirrored (fun files => induction) source destination names
      · exact copy_file_mirrored source destination

end Artifact

end PipelineWaves
