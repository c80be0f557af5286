import PipelineWaves.Attempt

/-!
# How attempts end

What holds after an attempt, when it succeeds and when it fails, is put together
from what holds after its parts: one rule for each way of making an attempt. The
same for results without a state.
-/

set_option autoImplicit false

namespace PipelineWaves

theorem except_ok_bind {Error First Second : Type} (value : First)
    (next : First → Except Error Second) : (Except.ok value >>= next) = next value := rfl

theorem except_bind_ok {Error First Second : Type} {first : Except Error First}
    {second : First → Except Error Second} {value : Second}
    (succeeds : (first >>= second) = .ok value) :
    ∃ middle, first = .ok middle ∧ second middle = .ok value := by
  cases first with
  | error failure => cases succeeds
  | ok middle => exact ⟨middle, rfl, succeeds⟩

theorem except_map_ok {Error First Second : Type} {change : First → Second}
    {attempt : Except Error First} {result : Second} (succeeds : attempt.map change = .ok result) :
    ∃ value, attempt = .ok value ∧ change value = result := by
  cases attempt with
  | error failure => cases succeeds
  | ok value => exact ⟨value, rfl, Except.ok.inj succeeds⟩

theorem except_map_error {Error First Second : Type} {change : First → Second}
    {attempt : Except Error First} {error : Error} (fails : attempt.map change = .error error) :
    attempt = .error error := by
  cases attempt with
  | error failure => exact congrArg Except.error (Except.error.inj fails)
  | ok value => cases fails

theorem except_ok_of_to_option {Error Value : Type} {attempt : Except Error Value} {value : Value}
    (succeeds : attempt.toOption = some value) : attempt = .ok value := by
  cases attempt with
  | error failure => cases succeeds
  | ok other => exact congrArg Except.ok (Option.some.inj succeeds)

theorem except_guard_ok {Error Value : Type} {condition : Prop} [Decidable condition]
    {error : Error} {rest : Except Error Value} {value : Value}
    (passes : (if condition then .error error else rest) = .ok value) :
    ¬ condition ∧ rest = .ok value := by
  split at passes
  · cases passes
  · rename_i unmet
    exact ⟨unmet, passes⟩

namespace Attempt

variable {State Failure Other Result Next : Type}

/-- From a state, an attempt succeeds with one property or fails with another. -/
structure Ends (attempt : Attempt State Failure Result) (state : State)
    (well : Result → State → Prop) (badly : State → Prop) : Prop where
  succeeds : ∀ result after, attempt.outcome state = (.ok result, after) → well result after
  fails : ∀ failure after, attempt.outcome state = (.error failure, after) → badly after

/-- What holds after an attempt whose failure is looked at. -/
def Tried (well : Result → State → Prop) (badly : State → Prop) :
    Except Failure Result → State → Prop
  | .ok result => well result
  | .error _ => badly

section Rules

variable {attempt : Attempt State Failure Result} {state : State}
  {well : Result → State → Prop} {badly : State → Prop}

theorem Ends.weaken {otherWell : Result → State → Prop} {otherBadly : State → Prop}
    (ends : attempt.Ends state well badly)
    (better : ∀ result after, well result after → otherWell result after)
    (worse : ∀ after, badly after → otherBadly after) :
    attempt.Ends state otherWell otherBadly :=
  ⟨fun result after ended => better _ _ (ends.succeeds result after ended),
    fun failure after ended => worse _ (ends.fails failure after ended)⟩

theorem Ends.and {otherWell : Result → State → Prop} {otherBadly : State → Prop}
    (ends : attempt.Ends state well badly) (other : attempt.Ends state otherWell otherBadly) :
    attempt.Ends state (fun result after => well result after ∧ otherWell result after)
      (fun after => badly after ∧ otherBadly after) :=
  ⟨fun result after ended => ⟨ends.succeeds result after ended, other.succeeds result after ended⟩,
    fun failure after ended => ⟨ends.fails failure after ended, other.fails failure after ended⟩⟩

theorem ends_either {after : State → Prop} (holds : after (attempt.outcome state).2) :
    attempt.Ends state (fun _ => after) after :=
  ⟨fun _ _ ended => by rwa [ended] at holds, fun _ _ ended => by rwa [ended] at holds⟩

theorem ends_of_ok {result : Result} {after : State}
    (ended : attempt.outcome state = (.ok result, after)) (holds : well result after) :
    attempt.Ends state well badly := by
  constructor
  · intro _ _ same
    rw [ended] at same
    cases same
    exact holds
  · intro _ _ same
    rw [ended] at same
    cases same

theorem ends_of_error {failure : Failure} {after : State}
    (ended : attempt.outcome state = (.error failure, after)) (holds : badly after) :
    attempt.Ends state well badly := by
  constructor
  · intro _ _ same
    rw [ended] at same
    cases same
  · intro _ _ same
    rw [ended] at same
    cases same
    exact holds

/-- Whatever follows from success and from failure holds. -/
theorem Ends.cases {goal : Prop} (ends : attempt.Ends state well badly)
    (succeeding : ∀ result after, attempt.outcome state = (.ok result, after) →
      well result after → goal)
    (failing : ∀ failure after, attempt.outcome state = (.error failure, after) →
      badly after → goal) : goal := by
  cases ended : attempt.outcome state with
  | mk result after =>
      cases result with
      | ok result => exact succeeding result after ended (ends.succeeds _ _ ended)
      | error failure => exact failing failure after ended (ends.fails _ _ ended)

theorem Ends.either {after : State → Prop} (ends : attempt.Ends state (fun _ => after) after) :
    after (attempt.outcome state).2 :=
  ends.cases (fun _ _ ended holds => by rwa [ended]) fun _ _ ended holds => by rwa [ended]

theorem ends_pure {result : Result} (holds : well result state) :
    (pure result : Attempt State Failure Result).Ends state well badly :=
  ends_of_ok rfl holds

theorem ends_throw {failure : Failure} (holds : badly state) :
    (throw failure : Attempt State Failure Result).Ends state well badly :=
  ends_of_error rfl holds

theorem outcome_bind (attempt : Attempt State Failure Result)
    (next : Result → Attempt State Failure Next) (state : State) :
    (attempt >>= next).outcome state =
      match attempt.outcome state with
      | (.ok result, after) => (next result).outcome after
      | (.error failure, after) => (.error failure, after) := by
  rw [outcome]
  simp only [bind, ExceptT.bind, ExceptT.mk, StateT.bind]
  rw [show attempt state = attempt.outcome state from rfl]
  rcases attempt.outcome state with ⟨_ | _, _⟩ <;> rfl

theorem outcome_get_bind (next : State → Attempt State Failure Result) (state : State) :
    (get >>= next : Attempt State Failure Result).outcome state = (next state).outcome state := rfl

theorem outcome_map_failure (attempt : Attempt State Failure Result) (change : Failure → Other)
    (state : State) : (attempt.mapFailure change).outcome state =
      ((attempt.outcome state).1.mapError change, (attempt.outcome state).2) := by
  rw [mapFailure, of, outcome]
  rcases attempt.outcome state with ⟨_ | _, _⟩ <;> rfl

theorem outcome_tried (attempt : Attempt State Failure Result) (state : State) :
    (attempt.tried : Attempt State Other _).outcome state =
      (.ok (attempt.outcome state).1, (attempt.outcome state).2) := rfl

theorem outcome_ignoring_failure (attempt : Attempt State Failure Unit) (state : State) :
    (attempt.ignoringFailure : Attempt State Other Unit).outcome state =
      (.ok (), (attempt.outcome state).2) := rfl

theorem outcome_within {Part : Type} (attempt : Attempt Part Failure Result) (part : State → Part)
    (replace : State → Part → State) (state : State) :
    (attempt.within part replace).outcome state =
      ((attempt.outcome (part state)).1, replace state (attempt.outcome (part state)).2) := rfl

/-- What follows starts from what its first part has led to. -/
theorem Ends.bind {next : Result → Attempt State Failure Next} {wellNext : Next → State → Prop}
    (ends : attempt.Ends state well badly)
    (continues : ∀ result after, well result after →
      (next result).Ends after wellNext badly) :
    (attempt >>= next).Ends state wellNext badly := by
  refine ends.cases (fun result after ended holds => ?_) fun failure after ended holds => ?_
  · have same : (attempt >>= next).outcome state = (next result).outcome after := by
      rw [outcome_bind, ended]
    have continued := continues result after holds
    exact ⟨fun _ _ last => continued.succeeds _ _ (same ▸ last),
      fun _ _ last => continued.fails _ _ (same ▸ last)⟩
  · exact ends_of_error (by rw [outcome_bind, ended]) holds

/-- What follows one attempt is alike if it is alike wherever the attempt leads. -/
theorem Ends.bind_agrees {first second : Result → Attempt State Failure Next}
    (ends : attempt.Ends state well badly)
    (agree : ∀ result after, well result after →
      (first result).outcome after = (second result).outcome after) :
    (attempt >>= first).outcome state = (attempt >>= second).outcome state := by
  rw [outcome_bind, outcome_bind]
  refine ends.cases (fun result after ended holds => ?_) fun failure after ended _ => ?_
  · rw [ended]
    exact agree result after holds
  · rw [ended]

/-- What looks at the state first goes on from there. -/
theorem ends_get_bind {next : State → Attempt State Failure Result}
    (continues : (next state).Ends state well badly) :
    (get >>= next : Attempt State Failure Result).Ends state well badly :=
  ⟨continues.succeeds, continues.fails⟩

theorem Ends.mapFailure {change : Failure → Other} (ends : attempt.Ends state well badly) :
    (attempt.mapFailure change).Ends state well badly := by
  have changed := outcome_map_failure attempt change state
  refine ends.cases (fun result after ended holds => ?_) fun failure after ended holds => ?_
  · rw [ended] at changed
    exact ends_of_ok changed holds
  · rw [ended] at changed
    exact ends_of_error changed holds

/-- A failure that is looked at is a result like another. -/
theorem Ends.tried {never : State → Prop} (ends : attempt.Ends state well badly) :
    (attempt.tried : Attempt State Other _).Ends state (Tried well badly) never := by
  have looked : (attempt.tried : Attempt State Other _).outcome state = _ :=
    outcome_tried attempt state
  refine ends.cases (fun result after ended holds => ?_) fun failure after ended holds => ?_
  · rw [ended] at looked
    exact ends_of_ok looked holds
  · rw [ended] at looked
    exact ends_of_ok looked holds

theorem Ends.ignoringFailure {attempt : Attempt State Failure Unit} {after : State → Prop}
    (ends : attempt.Ends state (fun _ => after) after) :
    (attempt.ignoringFailure : Attempt State Other Unit).Ends state (fun _ => after) badly := by
  have ignored : (attempt.ignoringFailure : Attempt State Other Unit).outcome state = _ :=
    outcome_ignoring_failure attempt state
  refine ends.cases (fun result reached ended holds => ?_) fun failure reached ended holds => ?_
  · rw [ended] at ignored
    exact ends_of_ok ignored holds
  · rw [ended] at ignored
    exact ends_of_ok ignored holds

end Rules

end Attempt

end PipelineWaves
