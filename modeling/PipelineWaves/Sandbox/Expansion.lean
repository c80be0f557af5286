import PipelineWaves.Sandbox.Arithmetic
import PipelineWaves.Sandbox.Field
import PipelineWaves.Sandbox.ScriptReader
import PipelineWaves.Sandbox.Utility

/-!
# Expansion of words

What a script can see and change while it runs, and what its words become with that: parameters
are looked up, command substitutions run in a copy of the shell, and expressions are calculated.
Streams of bytes are channels of the state, so that output of one command can become input of
the next. How a script is run is a parameter here, because running and expanding need each other.
-/

set_option autoImplicit false

namespace PipelineWaves.Sandbox

inductive Stream where
  | channel (number : Nat)
  | file (location : Location)
  | nothing
deriving DecidableEq, Repr

inductive Flow where
  | next
  | exit
  | leaveFunction
  | leaveLoop (levels : Nat)
  | nextRound (levels : Nat)
  | killed (signal : Nat)
deriving DecidableEq, Repr

structure Variable where
  value : String
  exported : Bool
  /-- Whether the value cannot be changed any more. -/
  fixed : Bool
deriving DecidableEq, Repr

structure Shell where
  files : Files
  /-- The working directory as the script names it. -/
  directory : String
  bindings : Dictionary Variable
  name : String
  /-- The command that speaks when something is to be said. -/
  speaker : Option String
  arguments : List String
  status : Nat
  functions : List (String × Script)
  /-- Variables to be restored when the current function ends; none outside of functions. -/
  saved : Option (List (String × Option Variable))
  /-- How many loops the current command stands in. -/
  loops : Nat
  /-- What runs on a signal, nothing if the signal is ignored; zero is the end of the script. -/
  actions : List (Nat × String)
  /-- Signals whose actions are still to be run. -/
  caught : List Nat
  stopsOnFailure : Bool
  refusesUnset : Bool
  /-- Whether every command is shown before it runs. -/
  traces : Bool
  streams : List (Nat × Stream)
  channels : Array ByteArray
  flow : Flow
  /-- Whether somebody looks at the status, so that a failure does not stop the script. -/
  guarded : Bool
  /-- The status of the latest command substitution of the current command. -/
  substituted : Option Nat
  line : Nat

namespace Shell

def processNumber : Nat := 4242

def streamOf (shell : Shell) (descriptor : Nat) : Stream :=
  (shell.streams.lookup descriptor).getD .nothing

def isOpen (shell : Shell) (descriptor : Nat) : Bool :=
  (shell.streams.lookup descriptor).isSome

def connect (shell : Shell) (descriptor : Nat) (stream : Stream) : Shell :=
  { shell with
    streams := (descriptor, stream)
      :: shell.streams.filter fun entry => entry.1 ≠ descriptor }

def disconnect (shell : Shell) (descriptor : Nat) : Shell :=
  { shell with streams := shell.streams.filter fun entry => entry.1 ≠ descriptor }

/-- The number of a new channel that holds some bytes. -/
def openChannel (shell : Shell) (bytes : ByteArray) : Nat × Shell :=
  (shell.channels.size, { shell with channels := shell.channels.push bytes })

def channelBytes (shell : Shell) (number : Nat) : ByteArray :=
  (shell.channels[number]?).getD ByteArray.empty

def writeTo (shell : Shell) (stream : Stream) (bytes : ByteArray) : Shell :=
  match stream with
  | .nothing => shell
  | .channel number =>
      { shell with channels := shell.channels.modify number fun before => before ++ bytes }
  | .file location =>
      match shell.files.root.at? location with
      | some (.file before executable) =>
          { shell with files := shell.files.put location (.file (before ++ bytes) executable) }
      | _ => shell

def write (shell : Shell) (descriptor : Nat) (bytes : ByteArray) : Shell :=
  if bytes.isEmpty then shell else shell.writeTo (shell.streamOf descriptor) bytes

def writeText (shell : Shell) (descriptor : Nat) (text : String) : Shell :=
  shell.write descriptor text.toUTF8

/-- The bytes that are left to be read from a descriptor. -/
def input (shell : Shell) (descriptor : Nat) : ByteArray :=
  match shell.streamOf descriptor with
  | .channel number => shell.channelBytes number
  | _ => ByteArray.empty

def withInput (shell : Shell) (descriptor : Nat) (rest : ByteArray) : Shell :=
  match shell.streamOf descriptor with
  | .channel number => { shell with channels := shell.channels.modify number fun _ => rest }
  | _ => shell

def say (shell : Shell) (message : String) : Shell :=
  let speaker :=
    match shell.speaker with
    | some speaker => speaker ++ ": "
    | none => ""
  shell.writeText 2 s!"{shell.name}: {shell.line}: {speaker}{message}\n"

/-- Lets a command speak while something is done. -/
def speaking (speaker : String) (body : Shell → Shell) (shell : Shell) : Shell :=
  { body { shell with speaker := some speaker } with speaker := shell.speaker }

def withStatus (shell : Shell) (status : Nat) : Shell := { shell with status }

def fails (shell : Shell) (status : Nat) (message : String) : Shell :=
  (shell.say message).withStatus status

def ended (shell : Shell) (status : Nat) : Shell := { shell with status, flow := .exit }

/-- An error that ends the whole script. -/
def breaksOff (shell : Shell) (message : String) : Shell := (shell.say message).ended 2

def goesOn (shell : Shell) : Bool := shell.flow = .next

def value? (shell : Shell) (name : String) : Option String :=
  (shell.bindings.get? name).map Variable.value

def isFixed (shell : Shell) (name : String) : Bool :=
  ((shell.bindings.get? name).map Variable.fixed).getD false

def change (shell : Shell) (name : String) (update : Option Variable → Variable) : Shell :=
  let held := shell.bindings.get? name
  if shell.isFixed name then shell.breaksOff s!"{name}: is read only"
  else { shell with bindings := shell.bindings.insert name (update held) }

def assign (shell : Shell) (name value : String) : Shell :=
  shell.change name fun held => ⟨value, (held.map Variable.exported).getD false, false⟩

def assignExported (shell : Shell) (name value : String) : Shell :=
  shell.change name fun _ => ⟨value, true, false⟩

def assignAll (shell : Shell) (exported : Bool) (assignments : List (String × String)) : Shell :=
  assignments.foldl
    (fun shell entry =>
      if !shell.goesOn then shell
      else if exported then shell.assignExported entry.1 entry.2
      else shell.assign entry.1 entry.2)
    shell

def forget (shell : Shell) (name : String) : Shell :=
  { shell with
    bindings := Dictionary.ofList
      (shell.bindings.entries.filter fun entry => entry.1 ≠ name) }

def exported (shell : Shell) : Environment :=
  Dictionary.ofList
    ((shell.bindings.entries.filter fun entry => entry.2.exported).map fun entry =>
      (entry.1, entry.2.value))

def separators (shell : Shell) : List Char := ((shell.value? "IFS").getD " \t\n").toList

/-- Ends the script after a failure that nobody looks at, when it is asked to stop on failures. -/
def stopOnFailure (shell : Shell) : Shell :=
  if shell.stopsOnFailure && !shell.guarded && shell.goesOn && shell.status ≠ 0 then
    { shell with flow := .exit }
  else shell

/-- A copy in which a part of the script runs; only ignored signals stay what they were. -/
def copy (shell : Shell) : Shell :=
  { shell with actions := shell.actions.filter fun entry => entry.1 ≠ 0 && entry.2 = "" }

/-- Goes back to a shell after a part of the script had a copy of its own. -/
def afterCopy (shell copy : Shell) : Shell :=
  { shell with
    files := { copy.files with here := shell.files.here }
    channels := copy.channels
    status := copy.status
    flow :=
      match copy.flow with
      | .killed signal => .killed signal
      | _ => shell.flow }

end Shell

namespace Shell

/-- The value of a parameter that is no list. -/
def parameter? (shell : Shell) (name : String) : Option String :=
  match name with
  | "#" => some (toString shell.arguments.length)
  | "?" => some (toString shell.status)
  | "$" => some (toString processNumber)
  | "!" => none
  | "-" =>
      some ((if shell.stopsOnFailure then "e" else "") ++ (if shell.traces then "x" else "")
        ++ (if shell.refusesUnset then "u" else ""))
  | "0" => some shell.name
  | _ =>
      match name.toNat? with
      | some position => shell.arguments[position - 1]?
      | none => shell.value? name

def withoutLineEnds (text : String) : String :=
  String.ofList (text.toList.reverse.dropWhile fun character => character = '\n').reverse

section

variable (run : Script → Shell → Shell)

def runLines (lines : List Script) (shell : Shell) : Shell :=
  lines.foldl (fun shell line => if shell.goesOn then run line shell else shell) shell

/-- Runs the source of a script: its lines up to the one that cannot be read. -/
def runSource (source : String) (shell : Shell) : Shell :=
  let reading := Script.read source
  let shell := runLines run reading.lines shell
  match reading.fault with
  | some ⟨line, fault⟩ =>
      if shell.goesOn then { shell with line }.breaksOff fault.text else shell
  | none => shell

def finish (shell : Shell) : Shell :=
  match shell.actions.lookup 0, shell.flow with
  | _, .killed _ => shell
  | some action, _ =>
      let status := shell.status
      let others := shell.actions.filter fun entry => entry.1 ≠ 0
      let after := runSource run action { shell with flow := .next, actions := others }
      if after.flow = .exit then after else after.withStatus status
  | none, _ => shell

/-- Runs a script in a copy of the shell, up to the end of the copy. -/
def runCopy (script : Script) (shell : Shell) : Shell := finish run (run script shell.copy)

/-- Runs a script in a copy of the shell and goes on behind it. -/
def isolated (script : Script) (shell : Shell) : Shell :=
  shell.afterCopy (runCopy run script shell)

/-- What a script writes when it runs in a copy of the shell. -/
def outputOf (source : String) (shell : Shell) : String × Shell :=
  match Script.readInner source with
  | .error misreading => ("", shell.breaksOff misreading.fault.text)
  | .ok script =>
      let (number, opened) := shell.openChannel ByteArray.empty
      let copy := runCopy run script { opened.connect 1 (.channel number) with guarded := false }
      let shell := opened.afterCopy copy
      let written := Text.ofBytes (shell.channelBytes number)
      let visible := String.ofList (written.toList.filter fun character => character ≠ '\x00')
      (withoutLineEnds visible,
        { shell with substituted := some copy.status, status := opened.status })

section

-- Expansion of the words inside a part, one level less deep.
variable (inner : Word → Shell → List Piece × Shell)

/-- Expands the source of an inner word; outside quotes its plain text can be split. -/
def expandSource (inQuotes : Bool) (source : String) (shell : Shell) : List Piece × Shell :=
  match if inQuotes then Token.quotedWordOf source else Token.wordOf source with
  | .error fault => ([], shell.breaksOff fault.text)
  | .ok word =>
      let (pieces, shell) := inner word shell
      let splitting : Piece → Piece
        | .character mark _ => .character mark (!inQuotes && !mark.literal)
        | other => other
      (pieces.map splitting, shell)

def argumentPieces (inQuotes joined : Bool) (shell : Shell) : List Piece :=
  if inQuotes && joined then
    let between := String.ofList (shell.separators.take 1)
    .presence :: Field.piecesOf true false (between.intercalate shell.arguments)
  else
    let pieces (argument : String) : List Piece :=
      (if inQuotes then [Piece.presence] else [])
        ++ Field.piecesOf inQuotes (!inQuotes) argument
    ([Piece.boundary] : List Piece).intercalate (shell.arguments.map pieces)

def expandParameter (name : String) (use : ParameterUse) (inQuotes : Bool) (shell : Shell) :
    List Piece × Shell :=
  let pieces (text : String) : List Piece := Field.piecesOf inQuotes (!inQuotes) text
  let isList := name = "@" || name = "*"
  let value :=
    if isList then
      if shell.arguments.isEmpty then none else some (" ".intercalate shell.arguments)
    else shell.parameter? name
  let whole : List Piece :=
    if isList then argumentPieces inQuotes (name = "*") shell else pieces (value.getD "")
  let counts (unlessEmpty : Bool) : Bool := value.isSome && !(unlessEmpty && value = some "")
  let unsetFault (shell : Shell) : List Piece × Shell :=
    ([], shell.breaksOff s!"{name}: parameter not set")
  match use with
  | .value =>
      if shell.refusesUnset && value.isNone && !isList && name ≠ "!" then unsetFault shell
      else (whole, shell)
  | .length =>
      if shell.refusesUnset && value.isNone then unsetFault shell
      else (pieces (toString (value.getD "").utf8ByteSize), shell)
  | .invalid => ([], shell.breaksOff "Bad substitution")
  | .orElse unlessEmpty source =>
      if counts unlessEmpty then (whole, shell) else expandSource inner inQuotes source shell
  | .orAssign unlessEmpty source =>
      if counts unlessEmpty then (whole, shell)
      else
        let (found, shell) := expandSource inner inQuotes source shell
        let text := Field.textOf (Field.marksOf found)
        (pieces text, shell.assign name text)
  | .orFail unlessEmpty source =>
      if counts unlessEmpty then (whole, shell)
      else
        let (found, shell) := expandSource inner inQuotes source shell
        let given := Field.textOf (Field.marksOf found)
        let standard := if unlessEmpty then "parameter not set or null" else "parameter not set"
        let reason := if given = "" then standard else given
        ([], shell.breaksOff s!"{name}: {reason}")
  | .instead unlessEmpty source =>
      if counts unlessEmpty then expandSource inner inQuotes source shell else ([], shell)
  | .cutFront longest source =>
      let (found, shell) := expandSource inner false source shell
      let pattern := Pattern.items (Field.marksOf found)
      (pieces (String.ofList (Pattern.cutFront longest pattern (value.getD "").toList)), shell)
  | .cutBack longest source =>
      let (found, shell) := expandSource inner false source shell
      let pattern := Pattern.items (Field.marksOf found)
      (pieces (String.ofList (Pattern.cutBack longest pattern (value.getD "").toList)), shell)

def arithmeticMessage (source : String) (fault : Arithmetic.Fault) : String :=
  match fault with
  | .noNumber text => s!"Illegal number: {text}"
  | other => s!"arithmetic expression: {other.reason}: \"{source}\""

def expandNumber (source : String) (inQuotes : Bool) (shell : Shell) : List Piece × Shell :=
  let (found, shell) := expandSource inner true source shell
  let expression := Field.textOf (Field.marksOf found)
  let lookUp (name : String) : Except Arithmetic.Fault Int :=
    Arithmetic.ofText ((shell.value? name).getD "")
  match Arithmetic.evaluate lookUp expression with
  | .error fault => ([], shell.breaksOff (arithmeticMessage expression fault))
  | .ok (value, assignment) =>
      let shell :=
        match assignment with
        | some (name, value) => shell.assign name (toString value)
        | none => shell
      (Field.piecesOf inQuotes (!inQuotes) (toString value), shell)

def expandPart (part : WordPart) (shell : Shell) : List Piece × Shell :=
  match part with
  | .plain text => (Field.piecesOf false false text, shell)
  | .quoted text => (.presence :: Field.piecesOf true false text, shell)
  | .parameter name use inQuotes => expandParameter inner name use inQuotes shell
  | .output source inQuotes =>
      let (text, shell) := outputOf run source shell
      (Field.piecesOf inQuotes (!inQuotes) text, shell)
  | .number source inQuotes => expandNumber inner source inQuotes shell

def expandParts : Word → Shell → List Piece × Shell
  | [], shell => ([], shell)
  | part :: rest, shell =>
      if shell.goesOn then
        let (first, shell) := expandPart run inner part shell
        let (others, shell) := expandParts rest shell
        (first ++ others, shell)
      else ([], shell)

end

/-- A tilde at the front stands for the home directory. -/
def withHome (shell : Shell) (word : Word) : Word :=
  match word with
  | .plain text :: rest =>
      match text.toList, shell.value? "HOME" with
      | '~' :: behind, some home =>
          if behind.head? = some '/' || (behind.isEmpty && rest.isEmpty) then
            .quoted home :: .plain (String.ofList behind) :: rest
          else word
      | _, _ => word
  | other => other

/-- Arguments in quotes make no field when there are none. -/
def withoutEmptyArguments (shell : Shell) (word : Word) : Word :=
  let isArguments : WordPart → Bool
    | .parameter "@" .value true => true
    | _ => false
  if shell.arguments.isEmpty && word.any isArguments then
    word.filter fun part => part ≠ .quoted ""
  else word

/-- Expands a word whose inner words nest at most so deep. -/
def expandWord : Nat → Word → Shell → List Piece × Shell
  | 0, _, shell => ([], shell.breaksOff "Bad substitution")
  | depth + 1, word, shell =>
      expandParts run (expandWord depth) (shell.withoutEmptyArguments (shell.withHome word)) shell

def deepestWord : Nat := 100

def fieldsOf (word : Word) (shell : Shell) : List String × Shell :=
  let (pieces, shell) := expandWord run deepestWord word shell
  let fields := Field.split shell.separators pieces
  (fields.flatMap (Field.paths shell.files), shell)

def allFields : List Word → Shell → List String × Shell
  | [], shell => ([], shell)
  | word :: rest, shell =>
      let (first, shell) := fieldsOf run word shell
      if shell.goesOn then
        let (others, shell) := allFields rest shell
        (first ++ others, shell)
      else ([], shell)

/-- A word as one text, without splitting. -/
def textOf (word : Word) (shell : Shell) : String × Shell :=
  let (pieces, shell) := expandWord run deepestWord word shell
  (Field.textOf (Field.marksOf pieces), shell)

def patternOf (word : Word) (shell : Shell) : List PatternItem × Shell :=
  let (pieces, shell) := expandWord run deepestWord word shell
  (Pattern.items (Field.marksOf pieces), shell)

def assignmentValues : List (String × Word) → Shell → List (String × String) × Shell
  | [], shell => ([], shell)
  | (name, word) :: rest, shell =>
      let (value, shell) := textOf run word shell
      if shell.goesOn then
        let (others, shell) := assignmentValues rest shell
        ((name, value) :: others, shell)
      else ([], shell)

end

end Shell

end PipelineWaves.Sandbox
