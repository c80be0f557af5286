import PipelineWaves.CommandLine.Option
import PipelineWaves.FilePath
import PipelineWaves.Recipe.Parameters
import PipelineWaves.Recipe.Settings
import PipelineWaves.Run.Strategy

/-!
# Commands

What a command line asks for: to run a pipeline, to validate one, or to generate
a program from one. A command stands before its own options; the flag for
verbose output may stand before the command as well.
-/

set_option autoImplicit false

namespace PipelineWaves

inductive StrategyChoice where
  | sequential
  | parallel
  | limited
deriving DecidableEq, Repr

namespace StrategyChoice

def text : StrategyChoice → String
  | sequential => "sequential"
  | parallel => "parallel"
  | limited => "limited"

def all : List StrategyChoice := [sequential, parallel, limited]

def ofText? (text : String) : Option StrategyChoice := all.find? fun choice => choice.text = text

end StrategyChoice

structure RunCommand where
  file : FilePath
  overrides : List (String × String)
  strategy : StrategyChoice
  concurrency : Option Nat
  workspace : Option FilePath
  toolchain : Option String
  git : Option String
  tar : Option String
  json : Bool
deriving DecidableEq, Repr

inductive Command where
  | run (command : RunCommand)
  | validate (file : FilePath) (json : Bool)
  | generate (file out : FilePath)
deriving DecidableEq, Repr

structure CommandLine where
  command : Command
  verbose : Bool
deriving DecidableEq, Repr

namespace RunCommand

/-- The limit of the strategy `limited` unless another one is given. -/
def standardLimit : Nat := 4

/-- A given limit implies the limited strategy, except where steps run one by one. -/
def schedulingStrategy (command : RunCommand) : SchedulingStrategy :=
  match command.strategy, command.concurrency with
  | .sequential, _ => .sequential
  | _, some most => .limited most
  | .limited, none => .limited standardLimit
  | .parallel, none => .parallel

def settings (command : RunCommand) : RecipeSettings :=
  let standard := RecipeSettings.standard
  { standard with
    workspace := command.workspace.getD standard.workspace
    toolchain := command.toolchain.getD standard.toolchain
    git := command.git.getD standard.git
    tar := command.tar.getD standard.tar }

end RunCommand

namespace CommandLine

def anyValue (_ : String) : Option ArgumentFault := none

def pathFault? (value : String) : Option ArgumentFault :=
  if value = "" then some .invalidValue else none

def keyValueFault? (value : String) : Option ArgumentFault :=
  if (splitKeyValue value).isSome then none else some .valueValidation

def strategyFault? (value : String) : Option ArgumentFault :=
  if (StrategyChoice.ofText? value).isSome then none else some .invalidValue

def largestCount : Nat := Nat.pow 2 64 - 1

/-- A natural number of at most 64 bits, with or without a plus sign. -/
def count? (value : String) : Option Nat :=
  let digits :=
    match value.toList with
    | '+' :: rest => rest
    | other => other
  if digits.isEmpty || !digits.all Char.isDigit then none
  else
    let number := digits.foldl (fun number digit => number * 10 + (digit.toNat - '0'.toNat)) 0
    if number ≤ largestCount then some number else none

def countFault? (value : String) : Option ArgumentFault :=
  if (count? value).isSome then none else some .valueValidation

def valueRule (long : String) (fault? : String → Option ArgumentFault) : OptionRule :=
  ⟨long, none, .value false, false, fault?⟩

def flagRule (long : String) : OptionRule := ⟨long, none, .flag, false, anyValue⟩

def helpRule : OptionRule := ⟨"help", some 'h', .help, false, anyValue⟩

def versionRule : OptionRule := ⟨"version", some 'V', .version, false, anyValue⟩

def verboseRule : OptionRule := ⟨"verbose", some 'v', .flag, false, anyValue⟩

def fileRule : OptionRule := ⟨"file", some 'f', .value false, true, pathFault?⟩

def outRule : OptionRule := ⟨"out", some 'o', .value false, true, pathFault?⟩

def variableRule : OptionRule := ⟨"var", none, .value true, false, keyValueFault?⟩

def runRules : List OptionRule :=
  [fileRule, variableRule, valueRule "strategy" strategyFault?,
    valueRule "concurrency" countFault?, valueRule "workspace" pathFault?,
    valueRule "toolchain" anyValue, valueRule "git" anyValue, valueRule "tar" anyValue,
    flagRule "json", verboseRule, helpRule]

def validateRules : List OptionRule := [fileRule, flagRule "json", verboseRule, helpRule]

def generateRules : List OptionRule := [fileRule, outRule, verboseRule, helpRule]

/-- The options that may stand before a command. -/
def mainRules : List OptionRule := [verboseRule, helpRule, versionRule]

def file (values : OptionValues) : FilePath := ⟨(values.value? "file").getD ""⟩

def runCommand (values : OptionValues) : RunCommand :=
  { file := file values
    overrides := (values.all "var").filterMap splitKeyValue
    strategy := ((values.value? "strategy").bind StrategyChoice.ofText?).getD .parallel
    concurrency := (values.value? "concurrency").bind count?
    workspace := (values.value? "workspace").map FilePath.mk
    toolchain := values.value? "toolchain"
    git := values.value? "git"
    tar := values.value? "tar"
    json := values.has "json" }

inductive CommandName where
  | run
  | validate
  | generate
  | help

namespace CommandName

def ofWord? : String → Option CommandName
  | "run" => some .run
  | "validate" => some .validate
  | "generate" => some .generate
  | "help" => some .help
  | _ => none

end CommandName

/-- Help can be asked for about at most one command. -/
def helpFault (words : List String) : ArgumentFault :=
  match words with
  | [] => .help
  | [word] => if (CommandName.ofWord? word).isSome then .help else .unknownCommand
  | _ => .unknownCommand

/-- Reads the words behind the name of a command. -/
def readCommand (verbose : Bool) (name : CommandName) (words : List String) :
    Except ArgumentFault CommandLine :=
  let finish (rules : List OptionRule) (command : OptionValues → Command) :
      Except ArgumentFault CommandLine := do
    let values ← OptionValues.read rules words
    .ok ⟨command values, verbose || values.has "verbose"⟩
  match name with
  | .run => finish runRules fun values => .run (runCommand values)
  | .validate => finish validateRules fun values => .validate (file values) (values.has "json")
  | .generate =>
      finish generateRules fun values =>
        .generate (file values) ⟨(values.value? "out").getD ""⟩
  | .help => .error (helpFault words)

/-- What is missing when there is no command at all. -/
def missingCommand (reading : OptionReading) : ArgumentFault :=
  if reading.given.isEmpty then .helpOnMissing else .missingCommand

/-- A word behind a separator is no command any more. -/
def separatedFault (reading : OptionReading) : List String → ArgumentFault
  | [] => missingCommand reading
  | word :: _ => if (CommandName.ofWord? word).isSome then .unknownArgument else .unknownCommand

/-- Reads the options before a command, then the command. -/
def readFrom (reading : OptionReading) : List String → Except ArgumentFault CommandLine
  | [] => .error (missingCommand reading)
  | word :: rest =>
      match CommandName.ofWord? word with
      | some name => readCommand (reading.isGiven "verbose") name rest
      | none =>
          match OptionReading.wordForm word with
          | .long name =>
              match reading.takeLong mainRules name with
              | .ok reading => readFrom reading rest
              | .error fault => .error fault
          | .letters letters =>
              match reading.takeLetters mainRules letters with
              | .ok reading => readFrom reading rest
              | .error fault => .error fault
          | .separator => .error (separatedFault reading rest)
          | .bare => .error .unknownCommand

/-- Reads the words behind the name of the program. -/
def read (words : List String) : Except ArgumentFault CommandLine :=
  readFrom .start words

/-- Showing help or the version is no failure. -/
def exitCode : ArgumentFault → Nat
  | .help => 0
  | .version => 0
  | _ => 2

end CommandLine

end PipelineWaves
