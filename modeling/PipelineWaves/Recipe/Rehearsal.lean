import PipelineWaves.Recipe.Registry

/-!
# Handlers for rehearsals

A handler that does what its parameters say: it writes the given texts, shows a
variable, sets an exit code, breaks down or fails. With it the course of a run
can be rehearsed without any program.
-/

set_option autoImplicit false

namespace PipelineWaves

namespace Rehearsal

/-- A whole number of 32 bits, with or without a sign. -/
def exitCode? (text : String) : Option Int :=
  let characters := text.toList
  let (negative, digits) :=
    match characters with
    | '-' :: digits => (true, digits)
    | '+' :: digits => (false, digits)
    | digits => (false, digits)
  if digits.isEmpty || !digits.all Char.isDigit then none
  else
    let size := digits.foldl (fun value digit => value * 10 + (digit.toNat - '0'.toNat)) 0
    let value : Int := if negative then -size else size
    if -Int.pow 2 31 ≤ value && value < Int.pow 2 31 then some value else none

def unsetText : String := "<unset>"

def written (parameters : Dictionary String) (environment : Environment)
    (output : CapturedOutput) : CapturedOutput :=
  let given (name : String) : String := (parameters.get? name).getD ""
  let shown :=
    match parameters.get? "echo_env" with
    | some name => (environment.get? name).getD unsetText
    | none => ""
  { stdout := output.stdout ++ given "stdout" ++ shown
    stderr := output.stderr ++ given "stderr"
    exitCode :=
      match parameters.get? "exit_code" with
      | some text => exitCode? text
      | none => output.exitCode }

def ending (parameters : Dictionary String) : HandlerEnding :=
  if parameters.contains "panic" then .brokeDown
  else
    match parameters.get? "fail", parameters.get? "context" with
    | some reason, some context => .failed (context ++ ": " ++ reason)
    | some reason, none => .failed reason
    | none, _ => .done

end Rehearsal

def CustomHandler.rehearsal : CustomHandler := fun parameters environment output =>
  (Rehearsal.ending parameters, Rehearsal.written parameters environment output)

end PipelineWaves
