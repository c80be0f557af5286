import PipelineWaves.CommandLine.Reply
import PipelineWaves.Sandbox.Machine

/-!
# The program

Reads the definition that a command line names, lets a station reply, writes the
files that the reply has changed, prints what it has to say and exits. Steps run
in the sandbox: their processes see the installed programs and the definition.
-/

set_option autoImplicit false

namespace PipelineWaves

namespace Main

/-- The files below a location with their paths, and the directories with none. -/
def listing : Nat → String → FileNode → List (String × Option ByteArray)
  | 0, _, _ => []
  | depth + 1, path, node =>
      match node with
      | .file contents _ => [(path, some contents)]
      | .link _ => []
      | .directory entries =>
          (path, none) :: entries.flatMap fun entry =>
            listing depth (path ++ "/" ++ entry.1) entry.2

def deepest : Nat := 64

/-- What lies in the working directory after a command and did not lie there before. -/
def changes (before after : Files) : List (String × Option ByteArray) :=
  let listed (files : Files) : List (String × Option ByteArray) :=
    listing deepest "." ((files.root.at? files.here).getD .emptyDirectory)
  let old := listed before
  (listed after).filter fun entry =>
    match old.lookup entry.1, entry.2 with
    | some none, none => false
    | some (some before), some after => before.toList ≠ after.toList
    | _, _ => true

/-- The definition file of a command. -/
def definitionPath : Command → FilePath
  | .run command => command.file
  | .validate file _ => file
  | .generate file _ => file

def emptyFiles : Files :=
  Sandbox.Program.install
    { root := .directory [("work", .emptyDirectory)], here := ["work"] }

/-- Files with the definition in its place, if it could be read. -/
def filesWith (path : FilePath) (contents : Option ByteArray) : Files :=
  match contents, path.parent? with
  | some contents, some parent =>
      let made := ((Files.createDirectories parent).outcome emptyFiles).2
      ((Files.writeBytes path contents).outcome made).2
  | _, _ => emptyFiles

def environment (home locale : String) : Environment :=
  Dictionary.ofList
    [("HOME", home), ("LANG", locale), ("PATH", Sandbox.Program.searchPath)]

def station (home locale : String) (identifier : RunIdentifier) : Station :=
  { terminal := Terminal.ofLocale false locale
    machine := Sandbox.machine (environment home locale)
    identifier
    now := ⟨0, 0⟩ }

def readContents (path : String) : IO (Option ByteArray) := do
  try
    return some (← IO.FS.readBinFile path)
  catch _ => return none

def writeChange (change : String × Option ByteArray) : IO Unit :=
  match change.2 with
  | none => IO.FS.createDirAll change.1
  | some contents => IO.FS.writeBinFile change.1 contents

def newIdentifier : IO RunIdentifier := do
  let bytes ← IO.getRandomBytes 16
  let digits := bytes.toList.flatMap fun byte =>
    [Nat.digitChar (byte.toNat / 16), Nat.digitChar (byte.toNat % 16)]
  return ⟨digits⟩

def world (words : List String) : IO World := do
  match CommandLine.read words with
  | .error _ => return ⟨emptyFiles, []⟩
  | .ok line =>
      let path := definitionPath line.command
      return ⟨filesWith path (← readContents path.text), []⟩

end Main

end PipelineWaves

open PipelineWaves in
def main (words : List String) : IO UInt32 := do
  let home := (← IO.getEnv "HOME").getD ""
  let locale := (← IO.getEnv "LANG").getD ""
  let station := Main.station home locale (← Main.newIdentifier)
  let world ← Main.world words
  let reply := station.reply words world
  for change in Main.changes world.files reply.world.files do
    Main.writeChange change
  IO.print reply.written
  return reply.exitCode.toUInt32
