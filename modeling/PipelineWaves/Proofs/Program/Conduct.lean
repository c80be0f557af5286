import PipelineWaves.Program.Table
import PipelineWaves.Proofs.Program.Scheduler
import PipelineWaves.Recipe.Process
import PipelineWaves.Recipe.Settings
import PipelineWaves.Text.Quoted

/-!
# What a program does for a step

A generated program carries out the actions in its table by itself, in its current
directory. It has one function for all kinds of actions. What the processes of a step write
is kept as text, and a failure is a line of text. Of the parameters of an action it checks
nothing but the key of a cache.
-/

set_option autoImplicit false

namespace PipelineWaves

/-- Where a program runs. -/
structure ProgramHost where
  machine : Machine
  workspace : FilePath
  toolchain : String
  /-- The variable that names the home directory; empty if it is not set. -/
  home : String

/-- The world, and what the processes of a step have written so far. -/
structure ProgramState where
  world : World
  stdout : String
  stderr : String

abbrev Conduct (Result : Type) : Type := Attempt ProgramState String Result

namespace ProgramState

def files (state : ProgramState) : Files := state.world.files

def withFiles (state : ProgramState) (files : Files) : ProgramState :=
  { state with world := { state.world with files } }

def record (state : ProgramState) (output : ProcessOutput) : ProgramState :=
  { state with stdout := state.stdout ++ output.stdout, stderr := state.stderr ++ output.stderr }

end ProgramState

namespace Conduct

variable {Result : Type}

def onFiles (work : Attempt Files String Result) : Conduct Result :=
  work.within ProgramState.files ProgramState.withFiles

end Conduct

namespace ProgramCopy

def filesystemError (path : FilePath) (fault : FileFault) : String :=
  s!"filesystem error at {path.text}: {fault.text}"

variable {Result : Type}

def reportedAt (path : FilePath) (call : FileCall Result) : Attempt Files String Result :=
  call.mapFailure (filesystemError path)

/-- A file that is copied onto a directory lands in it. -/
def targetOf (files : Files) (source destination : FilePath) : FilePath :=
  match source.name? with
  | some name => if files.isDirectory destination then destination.join ⟨name⟩ else destination
  | none => destination

def copyFile (source destination : FilePath) : Attempt Files String Unit := do
  let target := targetOf (← get) source destination
  match target.parent? with
  | some parent => reportedAt parent (Files.createDirectories parent)
  | none => pure ()
  reportedAt target (Files.copyFile source target)

def copyEntries (copy : FilePath → FilePath → Attempt Files String Unit)
    (source destination : FilePath) : List String → Attempt Files String Unit
  | [] => pure ()
  | name :: rest => do
      copy (source.join ⟨name⟩) (destination.join ⟨name⟩)
      copyEntries copy source destination rest

/-- Copies a tree that is at most so many levels deep; longer paths are refused anyway. -/
def copyWithin : Nat → FilePath → FilePath → Attempt Files String Unit
  | 0, source, _ => throw (filesystemError source .nameTooLong)
  | depth + 1, source, destination => do
      let (_, node) ← reportedAt source (Attempt.reading fun files => files.node? source)
      if node.isDirectory then
        reportedAt destination (Files.createDirectories destination)
        let names ← reportedAt source (Attempt.reading fun files => files.names source)
        copyEntries (copyWithin depth) source destination names
      else copyFile source destination

def copy (source destination : FilePath) : Attempt Files String Unit :=
  copyWithin (Walk.longestPath + 1) source destination

end ProgramCopy

namespace ProgramHost

/-- A program in the given directory or the current one, with the variables of the step. -/
def place (host : ProgramHost) (environment : List (String × String)) : StepPlace :=
  ⟨host.machine, host.workspace, Dictionary.ofList environment⟩

def output (host : ProgramHost) (environment : List (String × String))
    (directory : Option FilePath) (program : String) (arguments : List String) :
    Conduct ProcessOutput :=
  let place := host.place environment
  Attempt.of fun state =>
    match place.start (place.launchOf directory program arguments) state.world with
    | (.ok output, world) => (.ok output, { state with world })
    | (.error fault, world) =>
        (.error s!"failed to spawn '{program}': {fault.text}", { state with world })

def capture (host : ProgramHost) (environment : List (String × String))
    (directory : Option FilePath) (program : String) (arguments : List String) : Conduct Unit := do
  let output ← host.output environment directory program arguments
  modify fun state => state.record output
  if output.isSuccess then pure () else throw s!"process exited with code {output.exitCode}"

def cacheRoot (host : ProgramHost) (directory : Option String) : FilePath :=
  let standard :=
    ((if host.home = "" then host.workspace else ⟨host.home⟩ : FilePath).join ⟨".cache"⟩).join
      ⟨applicationName⟩
  match directory with
  | some directory =>
      if Text.isBlankText directory then standard else host.workspace.join ⟨directory⟩
  | none => standard

def archiveOf (host : ProgramHost) (key : String) (directory : Option String) : FilePath :=
  (host.cacheRoot directory).join ⟨key ++ ".tar.gz"⟩

def checkKey (key : String) : Conduct Unit :=
  let characters := key.toList
  if Text.isBlankText key || characters.contains '/' || characters.contains '\\'
      || containsDoubleDot characters then
    throw ("invalid value for parameter 'key': " ++ Text.quotedForMessage key)
  else pure ()

/-- Whether something else than an empty directory lies at a path. -/
def isOccupied (files : Files) (target : FilePath) : Bool :=
  files.isPresent target &&
    (!files.isDirectory target ||
      match files.names target with
      | .ok names => !names.isEmpty
      | .error _ => true)

def checkout (host : ProgramHost) (environment : List (String × String))
    (repository branch path : String) : Conduct Unit := do
  let target := host.workspace.join ⟨path⟩
  let files := (← get).files
  if files.isPresent (target.join ⟨".git"⟩) then
    let head ← host.output environment (some target) "git" ["rev-parse", "--abbrev-ref", "HEAD"]
    if head.isSuccess && Text.trimBlank head.stdout = branch then pure ()
    else
      host.capture environment (some target) "git" ["fetch", "origin", branch]
      host.capture environment (some target) "git" ["checkout", branch]
  else if isOccupied files target then
    throw s!"filesystem error at {target.text}: path exists and is not a git repository"
  else
    match target.parent? with
    | some parent =>
        Conduct.onFiles ((Files.createDirectories parent).mapFailure FileFault.text)
    | none => pure ()
    host.capture environment none "git"
      ["clone", "--branch", branch, "--single-branch", repository, target.text]

def saveCache (host : ProgramHost) (environment : List (String × String)) (key : String)
    (paths : List String) (directory : Option String) : Conduct Unit := do
  checkKey key
  let files := (← get).files
  let present := paths.filter fun path => files.isPresent (host.workspace.join ⟨path⟩)
  if present.isEmpty then pure ()
  else
    Conduct.onFiles
      ((Files.createDirectories (host.cacheRoot directory)).mapFailure FileFault.text)
    host.capture environment none "tar"
      (["-czf", (host.archiveOf key directory).text, "-C", host.workspace.text] ++ present)

def restoreCache (host : ProgramHost) (environment : List (String × String)) (key : String)
    (directory : Option String) : Conduct Unit := do
  checkKey key
  let archive := host.archiveOf key directory
  if (← get).files.isFile archive then
    host.capture environment none "tar" ["-xzf", archive.text, "-C", host.workspace.text]
  else pure ()

def runAction (host : ProgramHost) (environment : List (String × String)) :
    ProgramAction → Conduct Unit
  | .shell command directory =>
      host.capture environment (directory.map fun path => host.workspace.join ⟨path⟩) "sh"
        ["-c", command]
  | .compile sourceFile outputName optimize =>
      host.capture environment none host.toolchain
        ["build-exe", sourceFile, "-O", optimize, "--name", outputName]
  | .testRun testFile filter =>
      host.capture environment none host.toolchain
        (["test", testFile] ++
          match filter with
          | some filter => ["--test-filter", filter]
          | none => [])
  | .checkout repository branch path => host.checkout environment repository branch path
  | .artifact sourcePath destination =>
      Conduct.onFiles
        (ProgramCopy.copy (host.workspace.join ⟨sourcePath⟩) (host.workspace.join ⟨destination⟩))
  | .cacheSave key paths directory => host.saveCache environment key paths directory
  | .cacheRestore key directory => host.restoreCache environment key directory
  | .custom typeName parameters =>
      host.capture environment none (handlerPrefix ++ typeName)
        (parameters.map fun entry => "--" ++ entry.1 ++ "=" ++ entry.2)

/-- The run of one step, and the world after it. -/
def runStep (host : ProgramHost) (step : ProgramStep) (duration : Duration) (world : World) :
    StepRun × World :=
  match (host.runAction step.environment step.action).outcome ⟨world, "", ""⟩ with
  | (.ok _, after) => (⟨.success, after.stdout, after.stderr, none, duration⟩, after.world)
  | (.error detail, after) =>
      (⟨.failed, after.stdout, after.stderr, some detail, duration⟩, after.world)

end ProgramHost

end PipelineWaves
