/-!
# Attempts

An attempt reads and changes a state and may fail. What it changed before it
failed stays changed; nothing is undone behind its back.
-/

set_option autoImplicit false

namespace PipelineWaves

abbrev Attempt (State Failure Result : Type) : Type := ExceptT Failure (StateM State) Result

namespace Attempt

variable {State Part Failure Other Result : Type}

def of (step : State → Except Failure Result × State) : Attempt State Failure Result := step

def outcome (attempt : Attempt State Failure Result) (state : State) :
    Except Failure Result × State := attempt state

def mapFailure (change : Failure → Other) (attempt : Attempt State Failure Result) :
    Attempt State Other Result :=
  of fun state =>
    match attempt.outcome state with
    | (.ok result, after) => (.ok result, after)
    | (.error failure, after) => (.error (change failure), after)

/-- The same attempt with its failure as a value. -/
def tried (attempt : Attempt State Failure Result) :
    Attempt State Other (Except Failure Result) :=
  of fun state =>
    let (result, after) := attempt.outcome state
    (.ok result, after)

def ignoringFailure (attempt : Attempt State Failure Unit) : Attempt State Other Unit :=
  of fun state => (.ok (), (attempt.outcome state).2)

def reading (look : State → Except Failure Result) : Attempt State Failure Result :=
  of fun state => (look state, state)

/-- An attempt on a part of a larger state. -/
def within (part : State → Part) (replace : State → Part → State)
    (attempt : Attempt Part Failure Result) : Attempt State Failure Result :=
  of fun state =>
    let (result, after) := attempt.outcome (part state)
    (result, replace state after)

end Attempt

end PipelineWaves
