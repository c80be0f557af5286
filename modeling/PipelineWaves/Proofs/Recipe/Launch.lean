import PipelineWaves.Proofs.Attempt
import PipelineWaves.Run.Execution

/-!
# Processes of a step

Whatever the recipe of a step does, every process that it starts sees the environment of
the step and no other. One rule for each way of putting a recipe together says so.
-/

set_option autoImplicit false

namespace PipelineWaves

/-- Only processes with the given environment were started on the way. -/
def StartedIn (environment : Environment) (before after : World) : Prop :=
  ∃ launches, after.launches = before.launches ++ launches ∧
    ∀ launch ∈ launches, launch.environment = environment

namespace StartedIn

variable {environment : Environment} {before middle after : World}

theorem of_same (same : after.launches = before.launches) : StartedIn environment before after :=
  ⟨[], by rw [same, List.append_nil], by simp⟩

theorem trans (first : StartedIn environment before middle)
    (second : StartedIn environment middle after) : StartedIn environment before after := by
  obtain ⟨launches, grows, own⟩ := first
  obtain ⟨more, growsOn, ownMore⟩ := second
  refine ⟨launches ++ more, by rw [growsOn, grows, List.append_assoc], ?_⟩
  exact List.forall_mem_append.2 ⟨own, ownMore⟩

end StartedIn

namespace Attempt

variable {Failure Other Result Next : Type} {environment : Environment}

/-- Every process that the attempt starts sees the environment. -/
def StartsIn (attempt : Attempt StepState Failure Result) (environment : Environment) : Prop :=
  ∀ state, StartedIn environment state.world (attempt.outcome state).2.world

theorem pure_starts_in (result : Result) :
    (pure result : Attempt StepState Failure Result).StartsIn environment :=
  fun _ => .of_same rfl

theorem throw_starts_in (failure : Failure) :
    (throw failure : Attempt StepState Failure Result).StartsIn environment :=
  fun _ => .of_same rfl

theorem reading_starts_in (look : StepState → Except Failure Result) :
    (reading look).StartsIn environment :=
  fun _ => .of_same rfl

theorem StartsIn.bind {attempt : Attempt StepState Failure Result}
    {next : Result → Attempt StepState Failure Next} (first : attempt.StartsIn environment)
    (continues : ∀ result, (next result).StartsIn environment) :
    (attempt >>= next).StartsIn environment := by
  intro state
  have start := first state
  rw [outcome_bind]
  cases ended : attempt.outcome state with
  | mk result after =>
      rw [ended] at start
      cases result with
      | error failure => exact start
      | ok result => exact start.trans (continues result after)

theorem StartsIn.get_bind {next : StepState → Attempt StepState Failure Result}
    (continues : ∀ state, (next state).StartsIn environment) :
    (get >>= next : Attempt StepState Failure Result).StartsIn environment :=
  fun state => continues state state

theorem StartsIn.discard {attempt : Attempt StepState Failure Result}
    (starts : attempt.StartsIn environment) :
    (Functor.discard attempt : Attempt StepState Failure Unit).StartsIn environment :=
  starts.bind fun _ => pure_starts_in ()

theorem StartsIn.mapFailure {attempt : Attempt StepState Failure Result} {change : Failure → Other}
    (starts : attempt.StartsIn environment) : (attempt.mapFailure change).StartsIn environment := by
  intro state
  rw [outcome_map_failure]
  exact starts state

end Attempt

open Attempt

theorem Doing.on_files_starts_in {Result : Type} (environment : Environment)
    (work : Attempt Files RecipeError Result) : (Doing.onFiles work).StartsIn environment :=
  fun _ => .of_same rfl

namespace StepPlace

variable (place : StepPlace)

theorem probe_outcome {place : StepPlace} {directory : Option FilePath} {program : String}
    {arguments : List String} {answer : Except LaunchFault ProcessOutput} {state : StepState}
    {world : World}
    (started : place.start (place.launchOf directory program arguments) state.world =
      (answer, world)) :
    (place.probe directory program arguments).outcome state =
      (answer.mapError fun fault => .notSpawned program fault.text, { state with world }) := by
  simp only [probe, Attempt.of, Attempt.outcome, started]
  cases answer <;> rfl

theorem start_started_in (launch : Launch) (world : World) :
    StartedIn launch.environment world (place.start launch world).2 := by
  rw [start]
  split
  · exact .of_same rfl
  · exact ⟨[launch], rfl, by simp⟩

theorem probe_starts_in (directory : Option FilePath) (program : String)
    (arguments : List String) :
    (place.probe directory program arguments).StartsIn place.environment := by
  intro state
  have started := place.start_started_in (place.launchOf directory program arguments) state.world
  rw [probe, Attempt.of, Attempt.outcome]
  split
  · rename_i output world ended
    rwa [ended] at started
  · rename_i fault world ended
    rwa [ended] at started

theorem record_starts_in (environment : Environment) (output : ProcessOutput) :
    (record output).StartsIn environment :=
  fun _ => .of_same rfl

theorem run_starts_in (directory : Option FilePath) (program : String) (arguments : List String) :
    (place.run directory program arguments).StartsIn place.environment := by
  refine (place.probe_starts_in directory program arguments).bind fun output => ?_
  refine (record_starts_in _ output).bind fun _ => ?_
  split
  · exact pure_starts_in ()
  · exact throw_starts_in _

end StepPlace

theorem CacheArchive.save_starts_in (archive : CacheArchive) (tar : String) (paths : List String)
    (place : StepPlace) : (archive.save tar paths place).StartsIn place.environment := by
  refine StartsIn.get_bind fun state => ?_
  dsimp only
  split
  · exact pure_starts_in ()
  · exact (Doing.on_files_starts_in _ _).bind fun _ => place.run_starts_in _ _ _

theorem CacheArchive.restore_starts_in (archive : CacheArchive) (tar : String)
    (place : StepPlace) : (archive.restore tar place).StartsIn place.environment := by
  refine StartsIn.get_bind fun state => ?_
  split
  · exact (Doing.on_files_starts_in _ _).bind fun _ => place.run_starts_in _ _ _
  · exact pure_starts_in ()

namespace Checkout

variable (checkout : Checkout) (place : StepPlace)

theorem switch_starts_in : (checkout.switch place).StartsIn place.environment :=
  (place.run_starts_in _ _ _).bind fun _ => place.run_starts_in _ _ _

theorem clone_starts_in : (checkout.clone place).StartsIn place.environment := by
  rw [clone]
  split
  · exact (Doing.on_files_starts_in _ _).bind fun _ => place.run_starts_in _ _ _
  · exact (pure_starts_in _).bind fun _ => place.run_starts_in _ _ _

theorem run_starts_in : (checkout.run place).StartsIn place.environment := by
  refine (reading_starts_in _).bind fun found => ?_
  cases found with
  | occupied => exact throw_starts_in _
  | missing => exact checkout.clone_starts_in place
  | repository =>
      refine ((place.probe_starts_in _ _ _).bind fun output => pure_starts_in _).bind
        fun branch => ?_
      split
      · exact pure_starts_in ()
      · exact checkout.switch_starts_in place

end Checkout

theorem CustomRegistry.dispatch_starts_in (registry : CustomRegistry) (typeName : String)
    (parameters : Dictionary String) (place : StepPlace) :
    (registry.dispatch typeName parameters place).StartsIn place.environment := by
  rw [dispatch]
  split
  · intro state
    refine .of_same ?_
    rw [runHandler, Attempt.of, Attempt.outcome]
    split
    split <;> rfl
  · exact (place.run_starts_in _ _ _).mapFailure.mapFailure
  · exact throw_starts_in _

theorem ReadyAction.run_starts_in (registry : CustomRegistry) (place : StepPlace)
    (action : ReadyAction) : (action.run registry place).StartsIn place.environment := by
  cases action with
  | shell command directory => exact (place.run_starts_in _ _ _).mapFailure
  | tool program arguments => exact (place.run_starts_in _ _ _).mapFailure
  | checkout copy => exact (copy.run_starts_in place).mapFailure
  | artifact source target => exact (Doing.on_files_starts_in _ _).discard.mapFailure
  | save archive tar paths => exact (archive.save_starts_in tar paths place).mapFailure
  | restore archive tar => exact (archive.restore_starts_in tar place).mapFailure
  | custom typeName parameters => exact registry.dispatch_starts_in typeName parameters place

/-- Every process that an action starts sees the environment of its step. -/
theorem Workshop.perform_started_in (workshop : Workshop) (action : Action)
    (environment : Environment) (world : World) :
    StartedIn environment world (workshop.perform action environment world).world := by
  rw [perform]
  split
  · exact .of_same rfl
  · rename_i ready _
    exact ready.run_starts_in workshop.registry (workshop.placeFor environment) ⟨world, .none⟩

end PipelineWaves
