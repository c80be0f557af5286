import PipelineWaves.Sandbox.Builtin

/-!
# Running scripts

One step of evaluation handles one form of command and leaves the commands
inside it to a function that it is given; `evaluate` ties the knot for a fixed
depth of nesting. Programs that a script starts get a copy of its files and of
its exported variables, and their output goes where the descriptors lead.
-/

set_option autoImplicit false

namespace PipelineWaves.Sandbox

namespace Shell

def cannotRead (path : String) (fault : FileFault) : String :=
  let reason := if Program.isMissing fault then "No such file" else fault.reason
  s!"cannot open {path}: {reason}"

def cannotWrite (path : String) (fault : FileFault) : String :=
  let reason := if Program.isMissing fault then "Directory nonexistent" else fault.reason
  s!"cannot create {path}: {reason}"

def openToRead (target : String) (shell : Shell) : Except String (Stream × Shell) :=
  if target = "/dev/null" then .ok (.nothing, shell)
  else if target = "/dev/stdin" then .ok (shell.streamOf 0, shell)
  else
    match shell.files.node? ⟨target⟩ with
    | .ok (_, .file contents _) =>
        let (number, shell) := shell.openChannel contents
        .ok (.channel number, shell)
    | .ok _ => .ok (.nothing, shell)
    | .error fault => .error (cannotRead target fault)

/-- Opens a file to be written; what it holds goes unless it is kept. -/
def openToWrite (keeps : Bool) (target : String) (shell : Shell) :
    Except String (Stream × Shell) :=
  if target = "/dev/null" then .ok (.nothing, shell)
  else if target = "/dev/stdout" then .ok (shell.streamOf 1, shell)
  else if target = "/dev/stderr" then .ok (shell.streamOf 2, shell)
  else
    match shell.files.writeTarget ⟨target⟩ with
    | .ok (location, executable) =>
        let contents := if keeps then shell.files.bytesAt location else ByteArray.empty
        let file : FileNode := .file contents (executable.getD false)
        .ok (.file location, { shell with files := shell.files.put location file })
    | .error fault => .error (cannotWrite target fault)

def connectTo (redirection : Redirection) (target : String) (shell : Shell) :
    Except String Shell := do
  match redirection.kind with
  | .read =>
      let (stream, shell) ← shell.openToRead target
      .ok (shell.connect redirection.descriptor stream)
  | .write =>
      let (stream, shell) ← shell.openToWrite false target
      .ok (shell.connect redirection.descriptor stream)
  | .readWrite =>
      let (_, opened) ← shell.openToWrite true target
      let (stream, shell) ← opened.openToRead target
      .ok (shell.connect redirection.descriptor stream)
  | .append =>
      let (stream, shell) ← shell.openToWrite true target
      .ok (shell.connect redirection.descriptor stream)
  | .duplicate =>
      if target = "-" then .ok (shell.disconnect redirection.descriptor)
      else
        match Builtin.number? target with
        | some origin =>
            if shell.isOpen origin then
              .ok (shell.connect redirection.descriptor (shell.streamOf origin))
            else .error s!"{target}: Bad file descriptor"
        | none => .error "Syntax error: Bad fd number"
  | .here _ =>
      let (number, shell) := shell.openChannel target.toUTF8
      .ok (shell.connect redirection.descriptor (.channel number))

/-- Variables that a new shell takes from its environment. -/
def variablesOf (environment : Environment) (directory : String) : Dictionary Variable :=
  let taken := environment.entries.filter fun entry => Token.isName entry.1.toList
  let bindings := taken.map fun entry => (entry.1, Variable.mk entry.2 true false)
  (Dictionary.ofList bindings).insert "PWD" ⟨directory, true, false⟩

def start (call : UtilityCall) (name : String) (arguments : List String) : Shell :=
  let directory := Program.absoluteText call.files.here
  { files := call.files
    directory
    bindings := variablesOf call.environment directory
    name
    speaker := none
    arguments
    status := 0
    functions := []
    saved := none
    loops := 0
    actions := []
    caught := []
    stopsOnFailure := false
    refusesUnset := false
    traces := false
    streams := [(0, .channel 0), (1, .channel 1), (2, .channel 2)]
    channels := #[call.input, ByteArray.empty, ByteArray.empty]
    flow := .next
    guarded := false
    substituted := none
    line := 1 }

inductive Source where
  | text (source : String)
  | file (path : String)
  | input
  | missing
deriving DecidableEq, Repr

/-- The options of a call of the shell, what it runs, its name and its arguments. -/
structure Order where
  options : List Char
  source : Source
  name : String
  arguments : List String

def orderOf (options : List Char) (standard : String) : List String → Order
  | [] => orderOperands options standard []
  | word :: rest =>
      match word.toList with
      | '-' :: first :: letters =>
          if first = '-' then orderOperands options standard rest
          else orderOf (options ++ first :: letters) standard rest
      | _ => orderOperands options standard (word :: rest)
where
  /-- What stands behind the options. -/
  orderOperands (options : List Char) (standard : String) (operands : List String) : Order :=
    match options.contains 'c', operands with
    | true, source :: name :: arguments => ⟨options, .text source, name, arguments⟩
    | true, [source] => ⟨options, .text source, standard, []⟩
    | true, [] => ⟨options, .missing, standard, []⟩
    | false, path :: arguments => ⟨options, .file path, path, arguments⟩
    | false, [] => ⟨options, .input, standard, []⟩

section

variable (run : Script → Shell → Shell)

def runShell (call : UtilityCall) : UtilityResult :=
  let order := orderOf [] call.name call.arguments
  let shell := start call order.name order.arguments
  let shell :=
    { shell with
      stopsOnFailure := order.options.contains 'e'
      refusesUnset := order.options.contains 'u'
      traces := order.options.contains 'x' }
  let ended :=
    match order.source with
    | .text source => finish run (runSource run source shell)
    | .input =>
        finish run (runSource run (Text.ofBytes call.input) (shell.withInput 0 ByteArray.empty))
    | .missing => { shell with line := 0 }.breaksOff "-c requires an argument"
    | .file path =>
        match call.files.bytes ⟨path⟩ with
        | .ok contents => finish run (runSource run (Text.ofBytes contents) shell)
        | .error fault =>
            { shell with name := call.name, line := 0 }.breaksOff (cannotRead path fault)
  { files := { ended.files with here := call.files.here }
    out := ended.channelBytes 1
    err := ended.channelBytes 2
    code := ended.status
    readsInput := !call.input.isEmpty && (ended.channelBytes 0).isEmpty
    signal :=
      match ended.flow with
      | .killed signal => some signal
      | _ => none }

section

-- Runs a loaded program, one level less deep.
variable (start : Program.Loaded → UtilityCall → UtilityResult)

def startCommand (call : UtilityCall) (command : String) (arguments : List String)
    (environment : Environment) : UtilityResult :=
  let path := (environment.get? "PATH").getD Program.searchPath
  match Program.resolve call.files path command arguments with
  | .ok loaded =>
      start loaded { call with name := command, arguments := loaded.arguments, environment }
  | .error fault =>
      let code := if Program.isMissing fault then 127 else 126
      ((Working.start call).complain code
        s!"{call.name}: {call.quoted command}: {fault.reason}").result

def runEnv (call : UtilityCall) : UtilityResult :=
  let (environment, words) :=
    match call.arguments with
    | "-i" :: rest => (Dictionary.empty, rest)
    | other => (call.environment, other)
  let definitions := words.takeWhile fun word => word.toList.contains '='
  let environment := definitions.foldl
    (fun (environment : Environment) word =>
      let (name, value) := Builtin.definition word
      environment.insert name (value.getD "")) environment
  match words.drop definitions.length with
  | [] => Program.printenv { call with arguments := [], environment }
  | command :: arguments => startCommand start call command arguments environment

end

/-- Runs a loaded program; programs may start others so many levels deep. -/
def runProgram : Nat → Program.Loaded → UtilityCall → UtilityResult
  | depth, loaded, call =>
      match Program.utilities.lookup loaded.program with
      | some utility => utility call
      | none =>
          if Program.shellNames.contains loaded.program then runShell run call
          else
            match depth with
            | 0 => ((Working.start call).complain 126 s!"{call.name}: too many programs").result
            | depth + 1 => runEnv (runProgram depth) call

def deepestStart : Nat := 20

def signalText (signal : Nat) : String :=
  if signal = 9 then "Killed\n"
  else if signal = 15 then "Terminated\n"
  else if signal = 1 then "Hangup\n"
  else if signal = 6 then "Aborted\n"
  else if signal = 11 then "Segmentation fault\n"
  else ""

def absorb (shell : Shell) (result : UtilityResult) : Shell :=
  let shell := { shell with files := { result.files with here := shell.files.here } }
  let shell := if result.readsInput then shell.withInput 0 ByteArray.empty else shell
  let shell := (shell.write 2 result.err).write 1 result.out
  match result.signal with
  | some signal => (shell.writeText 2 (signalText signal)).withStatus (128 + signal)
  | none => shell.withStatus result.code

def external (command : String) (arguments : List String) (assignments : List (String × String))
    (shell : Shell) : Shell :=
  let environment := (shell.assignAll true assignments).exported
  let path := ((assignments.lookup "PATH").orElse fun _ => shell.value? "PATH").getD
    Program.searchPath
  let call : UtilityCall := ⟨command, arguments, shell.files, shell.input 0, environment⟩
  match Program.locate shell.files path command with
  | .error fault =>
      if command = "" then shell.fails 127 ": Permission denied"
      else if Program.isMissing fault then shell.fails 127 s!"{command}: not found"
      else shell.fails 126 s!"{command}: {fault.reason}"
  | .ok file =>
      match Program.load shell.files Program.mostInterpreters file arguments with
      | .ok loaded =>
          shell.absorb
            (runProgram run deepestStart loaded { call with arguments := loaded.arguments })
      | .error .notExecutable =>
          shell.absorb (runShell run { call with arguments := file.text :: arguments })
      | .error fault =>
          if Program.isMissing fault then shell.fails 127 s!"{command}: not found"
          else shell.fails 126 s!"{command}: {fault.reason}"

def restore (shell : Shell) (saved : List (String × Option Variable)) : Shell :=
  saved.foldl
    (fun shell entry =>
      match entry.2 with
      | some variableBefore =>
          { shell with bindings := shell.bindings.insert entry.1 variableBefore }
      | none => shell.forget entry.1)
    shell

def callFunction (body : Script) (arguments : List String) (shell : Shell) : Shell :=
  let after := run body { shell with arguments, saved := some [], loops := 0 }
  let after := after.restore (after.saved.getD [])
  { after with
    arguments := shell.arguments
    saved := shell.saved
    loops := shell.loops
    flow := if after.flow = .leaveFunction then .next else after.flow }

def whereIs? (shell : Shell) (name : String) : Option String :=
  if (shell.functions.lookup name).isSome || Builtin.isBuiltin name then some name
  else
    match Program.locate shell.files ((shell.value? "PATH").getD Program.searchPath) name with
    | .ok path => some path.text
    | .error _ => none

def describe (shell : Shell) (name : String) : Shell :=
  match shell.functions.lookup name, shell.whereIs? name with
  | some _, _ => (shell.writeText 1 s!"{name} is a shell function\n").withStatus 0
  | none, some place =>
      if (Builtin.special.lookup name).isSome then
        (shell.writeText 1 s!"{name} is a special shell builtin\n").withStatus 0
      else if Builtin.isBuiltin name then
        (shell.writeText 1 s!"{name} is a shell builtin\n").withStatus 0
      else (shell.writeText 1 s!"{name} is {place}\n").withStatus 0
  | none, none => (shell.writeText 1 s!"{name}: not found\n").withStatus 127

/-- Runs a command that is no function and starts no script. An error of a regular command does
not end the script. -/
def plainCommand (name : String) (arguments : List String)
    (assignments : List (String × String)) (shell : Shell) : Shell :=
  match Builtin.special.lookup name, Builtin.regular.lookup name with
  | some builtin, _ =>
      let shell := shell.assignAll false assignments
      if shell.goesOn then shell.speaking name (builtin arguments) else shell
  | none, some builtin =>
      let prepared := shell.assignAll false assignments
      if !prepared.goesOn then prepared
      else
        let after := prepared.speaking name (builtin arguments)
        let after := if after.flow = .exit then { after with flow := .next } else after
        if assignments.isEmpty then after else { after with bindings := shell.bindings }
  | none, none => external run name arguments assignments shell

/-- The file that a script is read from; without a slash it is looked for on the search path. -/
def sourceFile (path : String) (shell : Shell) : Except String (String × ByteArray) :=
  if path.toList.contains '/' then
    match shell.files.bytes ⟨path⟩ with
    | .ok contents => .ok (path, contents)
    | .error fault => .error (cannotRead path fault)
  else
    let directories := ((shell.value? "PATH").getD Program.searchPath).splitOn ":"
    let found? (directory : String) : Option (String × ByteArray) :=
      let file := (FilePath.mk directory).join ⟨path⟩
      (shell.files.bytes file).toOption.map fun contents => (file.text, contents)
    match directories.findSome? found? with
    | some found => .ok found
    | none => .error s!"{path}: not found"

def runFile (path : String) (shell : Shell) : Shell :=
  match sourceFile path shell with
  | .ok (found, contents) =>
      let body (shell : Shell) : Shell := runSource run (Text.ofBytes contents) shell
      let after := (shell.withStatus 0).speaking found body
      { after with flow := if after.flow = .leaveFunction then .next else after.flow }
  | .error message => shell.speaking "." fun shell => shell.breaksOff message

def command (name : String) (arguments : List String) (assignments : List (String × String))
    (shell : Shell) : Shell :=
  match name, arguments with
  | "eval", arguments =>
      (shell.withStatus 0).speaking "eval" (runSource run (" ".intercalate arguments))
  | ".", path :: _ => runFile run path shell
  | ".", [] => shell.withStatus 0
  | "exec", name :: arguments =>
      { shell.speaking "exec" (external run name arguments assignments) with flow := .exit }
  | "exec", [] => shell.withStatus 0
  | "command", "-v" :: name :: _ =>
      match shell.whereIs? name with
      | some place => (shell.writeText 1 (place ++ "\n")).withStatus 0
      | none => shell.withStatus 127
  | "command", name :: arguments => plainCommand run name arguments assignments shell
  | "command", [] => shell.withStatus 0
  | "type", names => names.foldl describe (shell.withStatus 0)
  | name, arguments =>
      match Builtin.special.lookup name, shell.functions.lookup name with
      | none, some body =>
          let before := shell.bindings
          let after := callFunction run body arguments (shell.assignAll false assignments)
          if assignments.isEmpty then after else { after with bindings := before }
      | _, _ => plainCommand run name arguments assignments shell

def trace (outer : Shell) (assignments : List (String × String)) (fields : List String)
    (shell : Shell) : Shell :=
  if shell.traces then
    let sign := (shell.value? "PS4").getD "+ "
    let given := assignments.map fun entry => entry.1 ++ "=" ++ entry.2
    let line := sign ++ " ".intercalate (given ++ fields) ++ "\n"
    shell.writeTo (outer.streamOf 2) line.toUTF8
  else shell

/-- Applies redirections in order; tells whether all of them could be made. -/
def redirectAll : List Redirection → Shell → Bool × Shell
  | [], shell => (true, shell)
  | redirection :: rest, shell =>
      let word :=
        match redirection.kind with
        | .here body => body
        | _ => redirection.target
      let (target, shell) := textOf run word shell
      if !shell.goesOn then (false, shell)
      else
        match connectTo redirection target shell with
        | .ok shell => redirectAll rest shell
        | .error message => (false, shell.fails 2 message)

/-- Runs something with redirections that end with it. -/
def redirected (redirections : List Redirection) (fatal : Bool) (body : Shell → Shell)
    (shell : Shell) : Shell :=
  let (made, inside) := redirectAll run redirections shell
  let after :=
    if made then body inside
    else if fatal then { inside with flow := .exit }
    else inside
  { after with streams := shell.streams }

def simple (assignments : List (String × Word)) (words : List Word)
    (redirections : List Redirection) (shell : Shell) : Shell :=
  let (fields, shell) := allFields run words { shell with substituted := none }
  if !shell.goesOn then shell
  else
    match fields with
    | [] =>
        redirected run redirections true
          (fun inside =>
            let (values, inside) := assignmentValues run assignments inside
            if !inside.goesOn then inside
            else
              let assigned := (trace shell values [] inside).assignAll false values
              if assigned.goesOn then assigned.withStatus (assigned.substituted.getD 0)
              else assigned)
          shell
    | ["exec"] =>
        let (made, inside) := redirectAll run redirections shell
        if made then inside.withStatus 0 else { inside with flow := .exit }
    | name :: arguments =>
        redirected run redirections (Builtin.special.lookup name).isSome
          (fun inside =>
            let (values, inside) := assignmentValues run assignments inside
            if inside.goesOn then
              command run name arguments values (trace shell values fields inside)
            else inside)
          shell

def answerSignals (shell : Shell) : Shell :=
  shell.caught.foldl
    (fun shell signal =>
      match shell.goesOn, shell.actions.lookup signal with
      | true, some action =>
          let after := runSource run action shell
          if after.goesOn then after.withStatus shell.status else after
      | _, _ => shell)
    { shell with caught := [] }

def tested (script : Script) (shell : Shell) : Shell :=
  { run script { shell with guarded := true } with guarded := shell.guarded }

/-- Whether a loop goes on after one of its parts, and the shell then. -/
def afterRound (shell : Shell) : Bool × Shell :=
  match shell.flow with
  | .next => (true, shell)
  | .leaveLoop (levels + 2) => (false, { shell with flow := .leaveLoop (levels + 1) })
  | .leaveLoop _ => (false, { shell with flow := .next })
  | .nextRound (levels + 2) => (false, { shell with flow := .nextRound (levels + 1) })
  | .nextRound _ => (true, { shell with flow := .next })
  | _ => (false, shell)

def rounds (untilTrue : Bool) (test body : Script) : Nat → Nat → Shell → Shell
  | 0, _, shell => shell
  | most + 1, status, shell =>
      let (continues, shell) := afterRound (tested run test shell)
      if !continues then shell
      else if (shell.status = 0) = untilTrue then shell.withStatus status
      else
        let (continues, shell) := afterRound (run body shell)
        if continues then rounds untilTrue test body most shell.status shell else shell

def mostRounds : Nat := 1000000

def eachRound (name : String) (body : Script) : List String → Shell → Shell
  | [], shell => shell
  | word :: rest, shell =>
      let (continues, shell) := afterRound (run body (shell.assign name word))
      if continues then eachRound name body rest shell else shell

def inLoop (body : Shell → Shell) (shell : Shell) : Shell :=
  { body { shell with loops := shell.loops + 1 } with loops := shell.loops }

def chooseArm (subject : String) : List (List Word × Script) → Shell → Shell
  | [], shell => shell.withStatus 0
  | arm :: rest, shell =>
      let (fits, shell) := arm.1.foldl
        (fun (state : Bool × Shell) word =>
          if state.1 then state
          else
            let (pattern, shell) := patternOf run word state.2
            (Pattern.fits pattern subject.toList, shell))
        (false, shell)
      if !shell.goesOn then shell
      else if fits then run arm.2 (shell.withStatus 0)
      else chooseArm subject rest shell

/-- The parts of a pipeline, each with what the one before it wrote as input. -/
def piped : List Script → Shell → Shell
  | [], shell => shell
  | [last], shell => isolated run last shell
  | part :: rest, shell =>
      let (number, opened) := shell.openChannel ByteArray.empty
      let copy := runCopy run part (opened.connect 1 (.channel number))
      let after := opened.afterCopy copy
      let next := piped rest (after.connect 0 (.channel number))
      { next with streams := shell.streams }

def negate (shell : Shell) : Shell := shell.withStatus (if shell.status = 0 then 1 else 0)

/-- Runs one command; the commands inside it are left to `run`. -/
def step (script : Script) (shell : Shell) : Shell :=
  match script with
  | .nothing => shell
  | .simple line assignments words redirections =>
      let after := simple run assignments words redirections { shell with line }
      (answerSignals run after).stopOnFailure
  | .pipeline negated parts =>
      if negated then
        let after := piped run parts { shell with guarded := true }
        { after.negate with guarded := shell.guarded }
      else (piped run parts shell).stopOnFailure
  | .both first second =>
      let shell := run first shell
      if shell.goesOn then run second shell else shell
  | .andThen first second =>
      let shell := tested run first shell
      if shell.goesOn && shell.status = 0 then run second shell else shell
  | .orElse first second =>
      let shell := tested run first shell
      if shell.goesOn && shell.status ≠ 0 then run second shell else shell
  | .choose test body other =>
      let shell := tested run test shell
      if !shell.goesOn then shell
      else if shell.status = 0 then run body shell
      else run other (shell.withStatus 0)
  | .loop untilTrue test body =>
      inLoop (rounds run untilTrue test body mostRounds 0) shell
  | .forEach name words body =>
      let (fields, shell) :=
        match words with
        | some words => allFields run words shell
        | none => (shell.arguments, shell)
      if shell.goesOn then inLoop (eachRound run name body fields) (shell.withStatus 0) else shell
  | .select subject arms =>
      let (text, shell) := textOf run subject shell
      if shell.goesOn then chooseArm run text arms shell else shell
  | .group isolates body =>
      if isolates then
        (shell.afterCopy (runCopy run body { shell with loops := 0 })).stopOnFailure
      else run body shell
  | .redirected body redirections => redirected run redirections false (run body) shell
  | .define name body =>
      { shell with
        functions := (name, body) :: shell.functions.filter fun entry => entry.1 ≠ name
        status := 0 }

end

/-- Runs a script whose commands nest at most so deep. -/
def evaluate : Nat → Script → Shell → Shell
  | 0, _, shell => shell.breaksOff "too many nested commands"
  | depth + 1, script, shell => step (evaluate depth) script shell

def deepestCommand : Nat := 2000

def runScript (script : Script) (shell : Shell) : Shell := evaluate deepestCommand script shell

end Shell

end PipelineWaves.Sandbox
