import PipelineWaves.CommandLine.Help
import PipelineWaves.Program.Generation
import PipelineWaves.Run.Arrival
import PipelineWaves.Run.Execution
import PipelineWaves.Terminal.Display

/-!
# Replies to command lines

What a command writes, how it exits and the world after it. Everything that a
reply depends on is an argument: the words of the command line, the terminal,
the machine that runs processes, an identifier, the time and the world before.
-/

set_option autoImplicit false

namespace PipelineWaves

/-- Why a pipeline cannot be used. -/
inductive PipelineFault where
  | unloadable (error : LoadError)
  | invalid (pipelineName : String) (error : BuildError)

namespace PipelineFault

def message : PipelineFault → String
  | unloadable error => "Failed to load pipeline config: " ++ error.message
  | invalid pipelineName error =>
      ProductionError.invalidContext pipelineName ++ ": " ++ error.message

end PipelineFault

namespace CompiledPipeline

/-- Loads and compiles a pipeline with some of its variables replaced. -/
def load (files : Files) (path : FilePath) (overrides : List (String × String)) :
    Except PipelineFault CompiledPipeline :=
  match Definition.load files path with
  | .error error => .error (.unloadable error)
  | .ok definition =>
      let pipeline := definition.toPipeline
      let pipeline := pipeline.withOverrides (Dictionary.ofList overrides)
      (CompiledPipeline.compile pipeline).mapError (PipelineFault.invalid definition.name)

end CompiledPipeline

/-- Where commands are carried out. -/
structure Station where
  terminal : Terminal
  machine : Machine
  identifier : RunIdentifier
  now : Instant
  /-- Commands run with several workers. -/
  arrival : Arrival := .shared 4

structure Reply where
  written : String
  exitCode : Nat
  world : World

namespace Reply

def lines (texts : List String) : String := String.join (texts.map fun text => text ++ "\n")

end Reply

namespace Station

def registry : CustomRegistry := { CustomRegistry.empty with programPrefix := some handlerPrefix }

def execute (station : Station) (command : RunCommand) (compiled : CompiledPipeline)
    (world : World) : CompiledPipeline.Run World :=
  let workshop : Workshop := ⟨command.settings, registry, station.machine⟩
  let surroundings := workshop.surroundings station.now fun _ => false
  compiled.run (surroundings.arriving station.arrival) station.identifier world

def summary (terminal : Terminal) (report : RunReport) : String :=
  let symbol := terminal.symbol (if report.isSuccess then .check else .cross)
  let elapsed := (report.elapsed.map Duration.text).getD ""
  let line := symbol ++ " " ++ terminal.styled .bold report.pipelineName ++ " "
    ++ terminal.status report.status ++ " " ++ terminal.styled .dim elapsed
  Reply.lines ["\n" ++ terminal.report report, "\n" ++ line]

def run (station : Station) (command : RunCommand) (world : World) : Reply :=
  match CompiledPipeline.load world.files command.file command.overrides with
  | .error fault =>
      let line := station.terminal.symbol .cross ++ " " ++ station.terminal.styled .red fault.message
      ⟨Reply.lines [line], 1, world⟩
  | .ok compiled =>
      let run := station.execute command compiled world
      let written :=
        if command.json then Reply.lines [run.report.toJson.pretty]
        else summary station.terminal run.report
      ⟨written, run.report.exitCode, run.state⟩

def validity (terminal : Terminal) (compiled : CompiledPipeline) : List String :=
  let pipeline := compiled.pipeline
  [terminal.symbol .check ++ " Pipeline configuration is valid!",
    "  Name: " ++ terminal.styled .bold pipeline.name,
    "  Steps: " ++ terminal.styled .cyan (toString pipeline.steps.length),
    "  Variables: " ++ terminal.styled .cyan (toString pipeline.environment.size),
    terminal.plan compiled.graph]

def wavesJson (graph : Graph) : Json :=
  .object [("waves", .list (graph.waveIds.map fun wave => .list (wave.map .text)))]

def failure (terminal : Terminal) (what message : String) : List String :=
  [terminal.symbol .cross ++ " " ++ what ++ " failed:", "  " ++ terminal.styled .red message]

def validate (station : Station) (file : FilePath) (json : Bool) (world : World) : Reply :=
  let terminal := station.terminal
  let start := terminal.symbol .info ++ " Validating pipeline..."
  match CompiledPipeline.load world.files file [] with
  | .error fault => ⟨Reply.lines (start :: failure terminal "Validation" fault.message), 1, world⟩
  | .ok compiled =>
      let plan := if json then ["\n" ++ (wavesJson compiled.graph).pretty] else []
      ⟨Reply.lines (start :: validity terminal compiled ++ plan), 0, world⟩

def buildHint (terminal : Terminal) (out : FilePath) : String :=
  terminal.symbol .check ++ " Build it with: cargo build --release --manifest-path "
    ++ terminal.styled .cyan (out.join ⟨"Cargo.toml"⟩).text

def generate (station : Station) (file out : FilePath) (world : World) : Reply :=
  let terminal := station.terminal
  let production := Production.run station.identifier file out world.files
  let world := { world with files := production.files }
  match production.result with
  | .ok _ => ⟨production.logText ++ Reply.lines [buildHint terminal out], 0, world⟩
  | .error error =>
      ⟨production.logText ++ Reply.lines (failure terminal "Generation" error.message), 1, world⟩

/-- Replies to the words behind the name of the program. -/
def reply (station : Station) (words : List String) (world : World) : Reply :=
  match CommandLine.read words with
  | .error fault => ⟨CommandLine.shown words fault, CommandLine.exitCode fault, world⟩
  | .ok line =>
      match line.command with
      | .run command => station.run command world
      | .validate file json => station.validate file json world
      | .generate file out => station.generate file out world

end Station

end PipelineWaves
