import PipelineWaves.FilePath
import PipelineWaves.Files.Fault
import PipelineWaves.Files.Node

/-!
# Walking along paths

How a path leads to a place in a tree. A walk goes from directory to directory,
name by name; a dot stays, two dots go back up, and a symbolic link is replaced
by the names of its target. At most forty links are followed. A path with a
slash at its end must lead to a directory.
-/

set_option autoImplicit false

namespace PipelineWaves

structure Files where
  root : FileNode
  here : Location
deriving Inhabited

namespace Walk

/-- Directories above the current place, the nearest first, with their own names. -/
abbrev Trail := List (String × FileNode)

def nodeOf (root : FileNode) : Trail → FileNode
  | [] => root
  | step :: _ => step.2

def locationOf (trail : Trail) : Location := (trail.map Prod.fst).reverse

/-- How far the names lead before a link has to be followed. -/
inductive Stop where
  | refused (fault : FileFault)
  | arrived (trail : Trail)
  /-- Only the last name is missing from an existing directory. -/
  | vacant (directory : Trail) (name : String)
  | linked (directory : Trail) (target : String) (rest : List String)

def longestName : Nat := 255

def longestPath : Nat := 4095

def mostLinks : Nat := 40

/-- Goes down the names; a link at the very end is followed only if asked for. -/
def along (root : FileNode) (followLast : Bool) : Trail → List String → Stop
  | trail, [] => .arrived trail
  | trail, name :: rest =>
      match nodeOf root trail with
      | .directory entries =>
          if name = "." then along root followLast trail rest
          else if name = ".." then along root followLast trail.tail rest
          else if name.utf8ByteSize > longestName then .refused .nameTooLong
          else
            match entries.lookup name with
            | none => if rest.isEmpty then .vacant trail name else .refused .missing
            | some (.link target) =>
                if rest.isEmpty && !followLast then .arrived ((name, .link target) :: trail)
                else .linked trail target rest
            | some child => along root followLast ((name, child) :: trail) rest
      | _ => .refused .notADirectory

end Walk

/-- The names of a path; a slash at the end stands for a dot. -/
def FilePath.walkNames (path : FilePath) : List String :=
  let names := path.pieces.filter fun piece => piece ≠ ""
  if path.text.toList.getLast? = some '/' then names ++ ["."] else names

inductive Place where
  | node (location : Location) (node : FileNode)
  | vacant (directory : Location) (name : String)

namespace Files

def trailTo (root : FileNode) (location : Location) : Walk.Trail :=
  let step (trail : Walk.Trail) (name : String) : Walk.Trail :=
    match (Walk.nodeOf root trail).child? name with
    | some child => (name, child) :: trail
    | none => trail
  location.foldl step []

def startOf (files : Files) (path : FilePath) : Walk.Trail :=
  if path.isAbsolute then [] else trailTo files.root files.here

def walkFrom (files : Files) (followLast : Bool) :
    Nat → Walk.Trail → List String → Except FileFault Place
  | links, trail, names =>
      match Walk.along files.root followLast trail names with
      | .refused fault => .error fault
      | .arrived trail => .ok (.node (Walk.locationOf trail) (Walk.nodeOf files.root trail))
      | .vacant trail name => .ok (.vacant (Walk.locationOf trail) name)
      | .linked trail target rest =>
          match links with
          | 0 => .error .tooManyLinks
          | links + 1 =>
              let target : FilePath := ⟨target⟩
              let trail := if target.isAbsolute then [] else trail
              if target.text = "" then .error .missing
              else walkFrom files followLast links trail (target.walkNames ++ rest)

def pathFault? (path : FilePath) : Option FileFault :=
  if path.text.toList.contains '\x00' then some .nulInPath
  else if path.text = "" then some .missing
  else if path.text.utf8ByteSize > Walk.longestPath then some .nameTooLong
  else none

def walk (files : Files) (followLast : Bool) (path : FilePath) : Except FileFault Place :=
  match pathFault? path with
  | some fault => .error fault
  | none =>
      walkFrom files followLast Walk.mostLinks (files.startOf path) path.walkNames

def node? (files : Files) (path : FilePath) : Except FileFault (Location × FileNode) :=
  match files.walk true path with
  | .ok (.node location node) => .ok (location, node)
  | .ok (.vacant _ _) => .error .missing
  | .error fault => .error fault

/-- The last name of a path, the way to its directory, and whether a slash follows. -/
structure LastName where
  directory : List String
  name : Option String
  slash : Bool

def lastName (path : FilePath) : LastName :=
  let names := path.pieces.filter fun piece => piece ≠ ""
  let slash := path.text.toList.getLast? = some '/'
  match names.getLast? with
  | none => ⟨[], none, slash⟩
  | some name =>
      if name = "." || name = ".." then ⟨names.dropLast, none, slash⟩
      else ⟨names.dropLast, some name, slash⟩

/-- The directory that holds the last name of a path, and that name unless it is dots. -/
def parentOf (files : Files) (path : FilePath) :
    Except FileFault (Location × FileNode × Option String) :=
  match pathFault? path with
  | some fault => .error fault
  | none =>
      let last := lastName path
      let start := files.startOf path
      match walkFrom files true Walk.mostLinks start (last.directory ++ ["."]) with
      | .ok (.node location node) => .ok (location, node, last.name)
      | .ok (.vacant _ _) => .error .missing
      | .error fault => .error fault

end Files

end PipelineWaves
