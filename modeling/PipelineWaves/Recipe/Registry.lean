import PipelineWaves.Recipe.Process
import PipelineWaves.Text.Quoted

/-!
# Handlers of custom actions

A registry maps the types of custom actions to handlers. For a type without a
handler it may name a program: the type behind a fixed beginning, called with
one argument per parameter.
-/

set_option autoImplicit false

namespace PipelineWaves

/-- How a handler ends; one that breaks down takes the whole step with it. -/
inductive HandlerEnding where
  | done
  | failed (reason : String)
  | brokeDown
deriving DecidableEq, Repr

abbrev CustomHandler : Type :=
  Dictionary String → Environment → CapturedOutput → HandlerEnding × CapturedOutput

/-- Why an action did not succeed. -/
inductive ActionFailure where
  | failed (error : RecipeError)
  | brokeDown
deriving DecidableEq, Repr

structure CustomRegistry where
  handlers : Dictionary CustomHandler
  /-- What stands before a type in the name of its program. -/
  programPrefix : Option String

namespace CustomRegistry

def empty : CustomRegistry := ⟨Dictionary.empty, none⟩

def noHandler : String := "no handler registered"

def notRun (program reason : String) : String :=
  s!"no handler registered and '{program}' could not be run: {reason}"

/-- Runs the program for a type; if it cannot be started, the type has no handler. -/
def runProgram (programPrefix typeName : String) (parameters : Dictionary String)
    (place : StepPlace) : Doing Unit :=
  let program := programPrefix ++ typeName
  (place.run none program (handlerArguments parameters)).mapFailure fun error =>
    match error with
    | .notSpawned _ reason => .handlerFailed typeName (notRun program reason)
    | other => other

def runHandler (handler : CustomHandler) (typeName : String) (parameters : Dictionary String)
    (place : StepPlace) : Attempt StepState ActionFailure Unit :=
  Attempt.of fun state =>
    let (ending, output) := handler parameters place.environment state.output
    let state := { state with output }
    match ending with
    | .done => (.ok (), state)
    | .failed reason => (.error (.failed (.handlerFailed typeName reason)), state)
    | .brokeDown => (.error .brokeDown, state)

def dispatch (registry : CustomRegistry) (typeName : String) (parameters : Dictionary String)
    (place : StepPlace) : Attempt StepState ActionFailure Unit :=
  match registry.handlers.get? typeName, registry.programPrefix with
  | some handler, _ => runHandler handler typeName parameters place
  | none, some programPrefix =>
      (runProgram programPrefix typeName parameters place).mapFailure .failed
  | none, none => throw (.failed (.handlerFailed typeName noHandler))

def text (registry : CustomRegistry) : String :=
  let names := ", ".intercalate (registry.handlers.keys.map Text.quotedForMessage)
  let fallback :=
    match registry.programPrefix with
    | some programPrefix => "Some(" ++ Text.quotedForMessage programPrefix ++ ")"
    | none => "None"
  "CustomRegistry \x7b handlers: [" ++ names ++ "], executable_prefix: " ++ fallback ++ " \x7d"

end CustomRegistry

end PipelineWaves
