import PipelineWaves.Attempt
import PipelineWaves.Files.Walk

/-!
# File calls

The calls by which programs look at files and change them. A call that fails
changes nothing, except that making a chain of directories keeps the ones made
before the failure.
-/

set_option autoImplicit false

namespace PipelineWaves

abbrev FileCall (Result : Type) : Type := Attempt Files FileFault Result

namespace Files

def isPresent (files : Files) (path : FilePath) : Bool :=
  match files.node? path with
  | .ok _ => true
  | .error _ => false

def isDirectory (files : Files) (path : FilePath) : Bool :=
  match files.node? path with
  | .ok (_, node) => node.isDirectory
  | .error _ => false

def isFile (files : Files) (path : FilePath) : Bool :=
  match files.node? path with
  | .ok (_, node) => node.isFile
  | .error _ => false

def bytes (files : Files) (path : FilePath) : Except FileFault ByteArray :=
  match files.node? path with
  | .ok (_, .file contents _) => .ok contents
  | .ok _ => .error .isADirectory
  | .error fault => .error fault

def text (files : Files) (path : FilePath) : Except FileFault String :=
  match files.bytes path with
  | .ok contents =>
      match String.fromUTF8? contents with
      | some text => .ok text
      | none => .error .notText
  | .error fault => .error fault

def names (files : Files) (path : FilePath) : Except FileFault (List String) :=
  match files.node? path with
  | .ok (_, .directory entries) => .ok (FileNode.directory entries).names
  | .ok _ => .error .notADirectory
  | .error fault => .error fault

def put (files : Files) (location : Location) (node : FileNode) : Files :=
  { files with root := FileNode.put node files.root location }

def remove (files : Files) (location : Location) : Files :=
  { files with root := files.root.remove location }

/-- A step that changes the files or refuses to. -/
def changing (step : Files → Except FileFault Files) : FileCall Unit :=
  Attempt.of fun files =>
    match step files with
    | .ok after => (.ok (), after)
    | .error fault => (.error fault, files)

def createDirectory (path : FilePath) : FileCall Unit :=
  changing fun files => do
    let (location, directory, name) ← files.parentOf path
    match name with
    | none => .error .exists
    | some name =>
        if name.utf8ByteSize > Walk.longestName then .error .nameTooLong
        else if (directory.child? name).isSome then .error .exists
        else .ok (files.put (location ++ [name]) .emptyDirectory)

/-- Makes the directories of a chain, the outermost last in the list; existing ones are left. -/
def createChain : List FilePath → FileCall Unit
  | [] => pure ()
  | path :: above =>
      Attempt.of fun files =>
        match (createDirectory path).outcome files with
        | (.ok _, after) => (.ok (), after)
        | (.error .missing, _) =>
            match above with
            | [] => (.error .missing, files)
            | _ =>
                match (createChain above).outcome files with
                | (.error fault, after) => (.error fault, after)
                | (.ok _, after) =>
                    match (createDirectory path).outcome after with
                    | (.ok _, made) => (.ok (), made)
                    | (.error fault, _) =>
                        if after.isDirectory path then (.ok (), after) else (.error fault, after)
        | (.error fault, _) =>
            if files.isDirectory path then (.ok (), files) else (.error fault, files)

/-- A path and the paths above it that have a name of their own, the nearest first. -/
def chainAbove : Nat → FilePath → List FilePath
  | 0, path => [path]
  | depth + 1, path =>
      match path.parent? with
      | none => [path]
      | some parent => if parent.text = "" then [path] else path :: chainAbove depth parent

def createDirectories (path : FilePath) : FileCall Unit :=
  if path.text = "" then pure () else createChain (chainAbove path.components.length path)

/-- Where writing to a path puts its contents, and whether a file there is executable. -/
def writeTarget (files : Files) (path : FilePath) : Except FileFault (Location × Option Bool) :=
  match pathFault? path with
  | some fault => .error fault
  | none =>
      let last := lastName path
      if last.slash || last.name.isNone then
        match files.parentOf path with
        | .ok _ => .error .isADirectory
        | .error fault => .error fault
      else
        match files.walk true path with
        | .ok (.vacant location name) => .ok (location ++ [name], none)
        | .ok (.node location (.file _ executable)) => .ok (location, some executable)
        | .ok (.node _ _) => .error .isADirectory
        | .error fault => .error fault

def writeBytes (path : FilePath) (contents : ByteArray) : FileCall Unit :=
  changing fun files => do
    let (location, executable) ← files.writeTarget path
    .ok (files.put location (.file contents (executable.getD false)))

def writeText (path : FilePath) (text : String) : FileCall Unit := writeBytes path text.toUTF8

/-- Opens a file for reading; a directory cannot be copied. -/
def openForCopy (files : Files) (path : FilePath) : Except FileFault (Location × Bool) :=
  match files.node? path with
  | .ok (location, .file _ executable) => .ok (location, executable)
  | .ok _ => .error .notRegular
  | .error fault => .error fault

/-- The bytes at a location, none where no file is. -/
def bytesAt (files : Files) (location : Location) : ByteArray :=
  match files.root.at? location with
  | some (.file contents _) => contents
  | _ => ByteArray.empty

/-- Copies a file: the target is emptied before the source is read. -/
def copyFile (source target : FilePath) : FileCall Unit :=
  changing fun files => do
    let (origin, executable) ← files.openForCopy source
    let (location, _) ← files.writeTarget target
    let emptied := files.put location (.file ByteArray.empty executable)
    .ok (emptied.put location (.file (emptied.bytesAt origin) executable))

def isBelow (above below : Location) : Bool := above.isPrefixOf below && above ≠ below

def rename (old new : FilePath) : FileCall Unit :=
  changing fun files => do
    let (oldParent, oldDirectory, oldName) ← files.parentOf old
    let (newParent, newDirectory, newName) ← files.parentOf new
    match oldName, newName with
    | some oldName, some newName =>
        let origin := oldParent ++ [oldName]
        let target := newParent ++ [newName]
        match oldDirectory.child? oldName with
        | none => .error .missing
        | some node =>
            if newName.utf8ByteSize > Walk.longestName then .error .nameTooLong
            else if !node.isDirectory && ((lastName old).slash || (lastName new).slash) then
              .error .notADirectory
            else if isBelow origin target then .error .invalid
            else if isBelow target origin then .error .notEmpty
            else if origin = target then .ok files
            else
              let moved := (files.remove origin).put target node
              match newDirectory.child? newName with
              | none => .ok moved
              | some (.directory entries) =>
                  if !node.isDirectory then .error .isADirectory
                  else if !entries.isEmpty then .error .notEmpty
                  else .ok moved
              | some _ => if node.isDirectory then .error .notADirectory else .ok moved
    | _, _ => .error .busy

def ownLocation (files : Files) (path : FilePath) : Except FileFault (Location × FileNode) :=
  match files.walk false path with
  | .ok (.node location node) => .ok (location, node)
  | .ok (.vacant _ _) => .error .missing
  | .error fault => .error fault

def removeFile (path : FilePath) : FileCall Unit :=
  changing fun files => do
    let (location, node) ← files.ownLocation path
    if node.isDirectory then .error .isADirectory else .ok (files.remove location)

/-- Removes a directory with everything in it; a link goes, but not what it leads to. -/
def removeTree (path : FilePath) : FileCall Unit :=
  changing fun files => do
    let (location, _) ← files.ownLocation path
    .ok (files.remove location)

def createLink (path : FilePath) (target : String) : FileCall Unit :=
  changing fun files => do
    let (location, directory, name) ← files.parentOf path
    match name with
    | none => .error .exists
    | some name =>
        if (directory.child? name).isSome then .error .exists
        else .ok (files.put (location ++ [name]) (.link target))

def setExecutable (path : FilePath) (executable : Bool) : FileCall Unit :=
  changing fun files => do
    match ← files.node? path with
    | (location, .file contents _) => .ok (files.put location (.file contents executable))
    | _ => .ok files

end Files

end PipelineWaves
