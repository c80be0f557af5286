import PipelineWaves.Sandbox.Expansion
import PipelineWaves.Sandbox.FileUtility
import PipelineWaves.Sandbox.Program

/-!
# The shell's own commands

Commands that look at the shell or change it. None of them starts a program or
runs a script; those that do belong to evaluation.
-/

set_option autoImplicit false

namespace PipelineWaves.Sandbox

namespace Builtin

/-- What a command does with its arguments. -/
abbrev Effect : Type := List String → Shell → Shell

def ofUtility (name : String) (utility : Utility) : Effect := fun arguments shell =>
  let result := utility ⟨name, arguments, shell.files, shell.input 0, shell.exported⟩
  let said := Text.ofBytes result.err
  let shell :=
    if said = "" then shell else shell.writeText 2 s!"{shell.name}: {shell.line}: {said}"
  (shell.write 1 result.out).withStatus result.code

def illegalNumber (arguments : List String) (shell : Shell) : Shell :=
  shell.breaksOff s!"Illegal number: {arguments.headD default}"

/-- A number of at most 31 bits. -/
def number? (text : String) : Option Nat :=
  if text ≠ "" && text.toList.all Char.isDigit then
    text.toNat?.filter fun value => value < Nat.pow 2 31
  else none

def succeed : Effect := fun _ shell => shell.withStatus 0

def failing : Effect := fun _ shell => shell.withStatus 1

def leave (flow : Flow) : Effect := fun arguments shell =>
  match arguments with
  | [] => { shell with flow }
  | first :: _ =>
      match number? first with
      | some status => { shell with status := status % 256, flow }
      | none => illegalNumber arguments shell

/-- Leaves loops or begins their next rounds, not more than there are. -/
def levels (flow : Nat → Flow) : Effect := fun arguments shell =>
  let wanted :=
    match arguments with
    | [] => some 1
    | first :: _ => number? first
  match wanted with
  | none => illegalNumber arguments shell
  | some 0 => illegalNumber arguments shell
  | some wanted =>
      if shell.loops = 0 then shell.withStatus 0
      else { shell with status := 0, flow := flow (min wanted shell.loops) }

/-- Resolves dots in the names of a path. -/
def plainNames (names : List String) : List String :=
  (names.foldl
    (fun (above : List String) name =>
      if name = "" || name = "." then above
      else if name = ".." then above.tail
      else name :: above)
    []).reverse

def changeDirectory (target : String) (shell : Shell) : Option Shell :=
  let names := (FilePath.mk shell.directory).join ⟨target⟩ |>.pieces
  let directory := Program.absoluteText (plainNames names)
  match shell.files.node? ⟨if target = "" then "." else directory⟩ with
  | .ok (location, .directory _) =>
      let moved := { shell with files := { shell.files with here := location }, directory }
      some ((moved.assign "OLDPWD" shell.directory).assign "PWD" directory)
  | _ => none

def cd : Effect := fun arguments shell =>
  let arguments := arguments.filter fun argument => argument ≠ "-L" && argument ≠ "-P"
  let (target, shows) :=
    match arguments with
    | [] => ((shell.value? "HOME").getD "", false)
    | "-" :: _ => ((shell.value? "OLDPWD").getD "", true)
    | "--" :: target :: _ => (target, false)
    | target :: _ => (target, false)
  match changeDirectory target shell with
  | some moved =>
      (if shows then moved.writeText 1 (moved.directory ++ "\n") else moved).withStatus 0
  | none => shell.fails 2 s!"can't cd to {target}"

def pwd : Effect := fun _ shell => (shell.writeText 1 (shell.directory ++ "\n")).withStatus 0

/-- Splits an argument at its equals sign. -/
def definition (argument : String) : String × Option String :=
  let characters := argument.toList
  let name := characters.takeWhile fun character => character ≠ '='
  match characters.drop name.length with
  | [] => (argument, none)
  | _ :: value => (String.ofList name, some (String.ofList value))

/-- A value in quotes, as a script would write it. -/
def quotedValue (value : String) : String :=
  let quote := "'"
  let between := "'\"'\"'"
  quote ++ between.intercalate (value.splitOn quote) ++ quote

def list (name : String) (isListed : Variable → Bool) (shell : Shell) : Shell :=
  let entries := shell.bindings.entries.filter fun entry => isListed entry.2
  let entries := entries.mergeSort fun left right => left.1 ≤ right.1
  let lines := entries.map fun entry => s!"{name} {entry.1}={quotedValue entry.2.value}\n"
  (shell.writeText 1 (String.join lines)).withStatus 0

def define (name : String) (isListed : Variable → Bool) (mark : Variable → Variable) : Effect :=
  fun arguments shell =>
    let definitions := arguments.filter fun argument => !argument.startsWith "-"
    if definitions.isEmpty then list name isListed shell
    else
      definitions.foldl
        (fun shell argument =>
          let (variableName, value) := definition argument
          if !shell.goesOn then shell
          else if !Token.isName variableName.toList then
            shell.breaksOff s!"{variableName}: bad variable name"
          else
            let shell :=
              match value with
              | some value => shell.assign variableName value
              | none => shell
            match shell.bindings.get? variableName with
            | some held =>
                if shell.goesOn then
                  { shell with bindings := shell.bindings.insert variableName (mark held) }
                else shell
            | none => shell)
        (shell.withStatus 0)

def makeExported : Effect :=
  define "export" Variable.exported fun held => { held with exported := true }

def makeFixed : Effect :=
  define "readonly" Variable.fixed fun held => { held with fixed := true }

def makeLocal : Effect := fun arguments shell =>
  arguments.foldl
    (fun shell argument =>
      match shell.saved with
      | none => shell
      | some saved =>
          let (name, value) := definition argument
          let shell := { shell with saved := some ((name, shell.bindings.get? name) :: saved) }
          match value with
          | some value => shell.assign name value
          | none => shell)
    (if shell.saved.isNone then shell.breaksOff "not in a function" else shell.withStatus 0)

def unset : Effect := fun arguments shell =>
  match arguments with
  | "-f" :: names =>
      { shell with
        functions := shell.functions.filter fun entry => !names.contains entry.1
        status := 0 }
  | names =>
      (names.filter fun name => name ≠ "-v").foldl
        (fun shell name =>
          if !shell.goesOn then shell
          else if !Token.isName name.toList then shell.breaksOff s!"{name}: bad variable name"
          else if shell.isFixed name then shell.breaksOff s!"{name}: is read only"
          else shell.forget name)
        (shell.withStatus 0)

def shift : Effect := fun arguments shell =>
  match (arguments.head?.map number?).getD (some 1) with
  | none => illegalNumber arguments shell
  | some count =>
      if shell.arguments.length < count then shell.breaksOff "can't shift that many"
      else { shell with arguments := shell.arguments.drop count, status := 0 }

def option? (on : Bool) (shell : Shell) (letter : Char) : Option Shell :=
  if letter = 'e' then some { shell with stopsOnFailure := on }
  else if letter = 'u' then some { shell with refusesUnset := on }
  else if letter = 'x' then some { shell with traces := on }
  else if ['f', 'v', 'n', 'a', 'b', 'C', 'm'].contains letter then some shell
  else none

def longOption? (name : String) : Option Char :=
  [("errexit", 'e'), ("nounset", 'u'), ("xtrace", 'x'), ("noglob", 'f'), ("verbose", 'v'),
    ("allexport", 'a'), ("noclobber", 'C')].lookup name

def switch (sign : Char) (letters : List Char) (shell : Shell) : Shell :=
  letters.foldl
    (fun shell letter =>
      if !shell.goesOn then shell
      else
        match option? (sign = '-') shell letter with
        | some changed => changed
        | none => shell.breaksOff s!"Illegal option {sign}{letter}")
    shell

def switchNamed (sign : Char) (name : String) (shell : Shell) : Shell :=
  match longOption? name with
  | some letter => switch sign [letter] shell
  | none => shell.breaksOff s!"Illegal option {sign}o {name}"

/-- Switches options; the arguments behind them become the shell's own. -/
def set : List String → Shell → Shell
  | [], shell => shell
  | "--" :: arguments, shell => { shell with arguments }
  | word :: rest, shell =>
      match word.toList with
      | sign :: letter :: letters =>
          if sign = '-' || sign = '+' then
            let given := letter :: letters
            let shell := switch sign (given.filter fun letter => letter ≠ 'o') shell
            if !shell.goesOn then shell
            else if given.contains 'o' then
              match rest with
              | name :: behind => set behind (switchNamed sign name shell)
              | [] => shell
            else set rest shell
          else { shell with arguments := word :: rest }
      | _ => { shell with arguments := word :: rest }

def setOptions : Effect := fun arguments shell => set arguments (shell.withStatus 0)

structure Line where
  bytes : List UInt8
  rest : List UInt8
  ended : Bool

/-- Takes one line; unless `raw`, a backslash joins lines. -/
def takeLine (raw : Bool) (taken : List UInt8) : List UInt8 → Line
  | [] => ⟨taken.reverse, [], false⟩
  | [byte] =>
      if byte = 0x0a then ⟨taken.reverse, [], true⟩ else ⟨(byte :: taken).reverse, [], false⟩
  | byte :: next :: rest =>
      if byte = 0x0a then ⟨taken.reverse, next :: rest, true⟩
      else if byte = 0x5c && !raw then
        if next = 0x0a then takeLine raw taken rest
        else takeLine raw (next :: byte :: taken) rest
      else takeLine raw (byte :: taken) (next :: rest)

/-- The characters of a line; a backslash protects the one behind it. -/
def marksOf (raw : Bool) : List Char → List Mark
  | [] => []
  | ['\\'] => if raw then [⟨'\\', false⟩] else []
  | first :: second :: rest =>
      if first = '\\' && !raw then ⟨second, true⟩ :: marksOf raw rest
      else ⟨first, false⟩ :: marksOf raw (second :: rest)
  | [only] => [⟨only, false⟩]

/-- Deals a line out to variables; the last one takes what is left. -/
def deal (isSeparator isBlank : Mark → Bool) : List String → List Mark → List (String × String)
  | [], _ => []
  | [name], marks =>
      let trimmed := ((marks.dropWhile isBlank).reverse.dropWhile isBlank).reverse
      [(name, Field.textOf trimmed)]
  | name :: names, marks =>
      let start := marks.dropWhile isBlank
      let field := start.takeWhile fun mark => !isSeparator mark
      let behind := (start.drop field.length).dropWhile isBlank
      let behind :=
        match behind with
        | mark :: rest => if isSeparator mark && !isBlank mark then rest else behind
        | [] => []
      (name, Field.textOf field) :: deal isSeparator isBlank names behind

def read : Effect := fun arguments shell =>
  let raw := arguments.contains "-r"
  let names := arguments.filter fun argument => !argument.startsWith "-"
  if names.isEmpty then shell.breaksOff "arg count"
  else
    let line := takeLine raw [] (shell.input 0).toList
    let shell := shell.withInput 0 ⟨line.rest.toArray⟩
    let separators := shell.separators
    let isSeparator (mark : Mark) : Bool := !mark.literal && separators.contains mark.character
    let isBlank (mark : Mark) : Bool := isSeparator mark && mark.character.isWhitespace
    let marks := marksOf raw (Text.ofBytes ⟨line.bytes.toArray⟩).toList
    let values := deal isSeparator isBlank names marks
    let assigned := shell.assignAll false values
    if assigned.goesOn then assigned.withStatus (if line.ended then 0 else 1) else assigned

def signals : List (String × Nat) :=
  [("EXIT", 0), ("HUP", 1), ("INT", 2), ("QUIT", 3), ("ILL", 4), ("TRAP", 5), ("ABRT", 6),
    ("BUS", 7), ("FPE", 8), ("KILL", 9), ("USR1", 10), ("SEGV", 11), ("USR2", 12), ("PIPE", 13),
    ("ALRM", 14), ("TERM", 15), ("CHLD", 17), ("CONT", 18), ("STOP", 19), ("TSTP", 20),
    ("TTIN", 21), ("TTOU", 22), ("URG", 23), ("XCPU", 24), ("XFSZ", 25), ("VTALRM", 26),
    ("PROF", 27), ("WINCH", 28), ("IO", 29), ("PWR", 30), ("SYS", 31)]

def signal? (text : String) : Option Nat :=
  match number? text with
  | some number => if number ≤ 64 then some number else none
  | none =>
      let name := if text.startsWith "SIG" then String.ofList (text.toList.drop 3) else text
      signals.lookup name

def harmless : List Nat := [0, 17, 18, 23, 28]

/-- What a signal does to the shell. -/
def receive (signal : Nat) (shell : Shell) : Shell :=
  let action := if signal = 9 then none else shell.actions.lookup signal
  match action with
  | some "" => shell.withStatus 0
  | some _ => { shell with caught := shell.caught ++ [signal], status := 0 }
  | none =>
      if harmless.contains signal then shell.withStatus 0
      else { shell with flow := .killed signal, status := 128 + signal }

def killUsage : String :=
  "Usage: kill [-s sigspec | -signum | -sigspec] [pid | job]... or\nkill -l [exitstatus]"

/-- Sends a signal; only the shell itself can be reached. -/
def send (signal : Nat) (targets : List String) (shell : Shell) : Shell :=
  match targets with
  | [] => shell.fails 2 killUsage
  | target :: _ =>
      if target = toString Shell.processNumber then receive signal shell
      else if (number? target).isSome then shell.fails 1 "No such process\n"
      else shell.fails 2 s!"Illegal number: {target}"

def kill : Effect := fun arguments shell =>
  match arguments with
  | [] => shell.fails 2 killUsage
  | "-s" :: name :: targets =>
      match signal? name with
      | some signal => send signal targets shell
      | none => shell.fails 2 s!"invalid signal number or name: {name}"
  | first :: targets =>
      match first.toList with
      | '-' :: letters =>
          match signal? (String.ofList letters) with
          | some signal => send signal targets shell
          | none =>
              let letter := String.ofList (letters.take 1)
              shell.fails 2 s!"Illegal option -{letter}"
      | _ => send 15 (first :: targets) shell

def trap : Effect := fun arguments shell =>
  match if arguments.head? = some "--" then arguments.drop 1 else arguments with
  | [] =>
      let line (entry : Nat × String) : String :=
        let name := ((signals.find? fun signal => signal.2 = entry.1).map Prod.fst).getD default
        s!"trap -- {quotedValue entry.2} {name}\n"
      let entries := shell.actions.mergeSort fun left right => left.1 ≤ right.1
      (shell.writeText 1 (String.join (entries.map line))).withStatus 0
  | first :: rest =>
      let (action, names) :=
        if rest.isEmpty || (number? first).isSome then (none, first :: rest)
        else if first = "-" then (none, rest)
        else (some first, rest)
      names.foldl
        (fun shell name =>
          match signal? name with
          | none => (shell.writeText 2 s!"trap: {name}: bad trap\n").withStatus 1
          | some signal =>
              let others := shell.actions.filter fun entry => entry.1 ≠ signal
              { shell with actions := action.toList.map (fun text => (signal, text)) ++ others })
        (shell.withStatus 0)

def umask : Effect := fun arguments shell =>
  match arguments with
  | [] => (shell.writeText 1 "0022\n").withStatus 0
  | ["-S"] => (shell.writeText 1 "u=rwx,g=rx,o=rx\n").withStatus 0
  | _ => shell.withStatus 0

def special : List (String × Effect) :=
  [(":", succeed), ("exit", leave .exit), ("return", leave .leaveFunction),
    ("break", levels .leaveLoop), ("continue", levels .nextRound), ("export", makeExported),
    ("readonly", makeFixed), ("set", setOptions), ("shift", shift), ("unset", unset),
    ("trap", trap), ("times", succeed), ("local", makeLocal)]

def regular : List (String × Effect) :=
  [("true", succeed), ("false", failing), ("cd", cd), ("pwd", pwd), ("read", read),
    ("kill", kill), ("wait", succeed), ("umask", umask),
    ("hash", succeed), ("alias", succeed), ("ulimit", succeed), ("jobs", succeed),
    ("echo", ofUtility "echo" Printing.shellEcho), ("printf", ofUtility "printf" Printing.printf),
    ("test", ofUtility "test" FileUtility.test), ("[", ofUtility "[" FileUtility.test)]

/-- Commands that run scripts or other commands. -/
def running : List String := ["eval", ".", "exec", "command", "type"]

def isBuiltin (name : String) : Bool :=
  (special.lookup name).isSome || (regular.lookup name).isSome || running.contains name

end Builtin

end PipelineWaves.Sandbox
