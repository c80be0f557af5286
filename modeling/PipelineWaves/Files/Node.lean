/-!
# File trees

A node is a regular file, a symbolic link or a directory of named nodes. A
location is the list of names from the root downwards, and `at?` is the view of
a tree that everything else is said with: what stands at a location, if
anything does. Every node above a node is a directory, by construction.
-/

set_option autoImplicit false

namespace PipelineWaves

inductive FileNode where
  | file (contents : ByteArray) (executable : Bool)
  | link (target : String)
  | directory (entries : List (String × FileNode))

/-- Names from the root downwards; the empty list is the root itself. -/
abbrev Location := List String

namespace FileNode

def emptyDirectory : FileNode := .directory []

instance : Inhabited FileNode := ⟨emptyDirectory⟩

def ofText (text : String) (executable : Bool) : FileNode := .file text.toUTF8 executable

def entries : FileNode → List (String × FileNode)
  | .directory entries => entries
  | _ => []

def isDirectory : FileNode → Bool
  | .directory _ => true
  | _ => false

def isFile : FileNode → Bool
  | .file _ _ => true
  | _ => false

def child? (node : FileNode) (name : String) : Option FileNode := node.entries.lookup name

/-- The names in a directory, each once. -/
def names (node : FileNode) : List String := (node.entries.map Prod.fst).eraseDups

def at? : FileNode → Location → Option FileNode
  | node, [] => some node
  | node, name :: rest =>
      match node.child? name with
      | some child => child.at? rest
      | none => none

/-- Replaces the entry of a name, or adds one at the end. -/
def withEntry (name : String) (new : FileNode) :
    List (String × FileNode) → List (String × FileNode)
  | [] => [(name, new)]
  | entry :: rest =>
      if entry.1 = name then (name, new) :: rest else entry :: withEntry name new rest

def withoutEntry (name : String) (entries : List (String × FileNode)) :
    List (String × FileNode) :=
  entries.filter fun entry => entry.1 ≠ name

/-- Puts a node at a location whose parent is a directory; elsewhere nothing changes. -/
def put (new : FileNode) : FileNode → Location → FileNode
  | _, [] => new
  | .directory entries, [name] => .directory (withEntry name new entries)
  | .directory entries, name :: rest =>
      match entries.lookup name with
      | some child => .directory (withEntry name (put new child rest) entries)
      | none => .directory entries
  | other, _ :: _ => other

def remove : FileNode → Location → FileNode
  | node, [] => node
  | .directory entries, [name] => .directory (withoutEntry name entries)
  | .directory entries, name :: rest =>
      match entries.lookup name with
      | some child => .directory (withEntry name (child.remove rest) entries)
      | none => .directory entries
  | other, _ :: _ => other

end FileNode

end PipelineWaves
