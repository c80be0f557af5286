/-!
# File paths

Paths as texts, with the components that a slash separates. Repeated slashes, a
trailing slash and inner single dots name nothing of their own; double dots stay
as they are. Joining keeps both texts, and an absolute right side stands alone.
-/

set_option autoImplicit false

namespace PipelineWaves

structure FilePath where
  text : String
deriving DecidableEq, Repr

inductive PathComponent where
  | root
  | current
  | parent
  | normal (name : String)
deriving DecidableEq, Repr

namespace FilePath

def piecesOf (separator : Char) (text : String) : List String :=
  (text.toList.splitOn separator).map String.ofList

def pieces (path : FilePath) : List String := piecesOf '/' path.text

def isAbsolute (path : FilePath) : Bool := path.text.toList.head? = some '/'

def componentOf (piece : String) : Option PathComponent :=
  if piece = "" || piece = "." then none
  else if piece = ".." then some .parent
  else some (.normal piece)

/-- The components of a path; a single dot counts only at its very start. -/
def components (path : FilePath) : List PathComponent :=
  let body := path.pieces.filterMap componentOf
  if path.isAbsolute then .root :: body
  else if path.pieces.head? = some "." then .current :: body
  else body

def join (left right : FilePath) : FilePath :=
  if right.isAbsolute || left.text = "" then right
  else if left.text.toList.getLast? = some '/' then ⟨left.text ++ right.text⟩
  else ⟨left.text ++ "/" ++ right.text⟩

/-- The last component, when it is a plain name. -/
def name? (path : FilePath) : Option String :=
  match path.components.getLast? with
  | some (.normal name) => some name
  | _ => none

/-- Drops pieces at the end that name nothing. -/
def dropTrailingPieces (absolute : Bool) : List String → List String
  | [] => []
  | [piece] => if absolute then [] else [piece]
  | piece :: rest =>
      if componentOf piece = none then dropTrailingPieces absolute rest else piece :: rest

def parent? (path : FilePath) : Option FilePath :=
  match path.components.getLast? with
  | none => none
  | some .root => none
  | some _ =>
      let inner := path.pieces.reverse
      let afterLast :=
        match inner.dropWhile fun piece => componentOf piece = none with
        | [] => []
        | _ :: rest => rest
      let kept := (dropTrailingPieces path.isAbsolute afterLast).reverse
      if path.isAbsolute then
        let body := kept.drop 1
        some ⟨"/" ++ "/".intercalate body⟩
      else some ⟨"/".intercalate kept⟩

/-- What follows the last dot of the name, unless the name starts with that dot. -/
def extension? (path : FilePath) : Option String :=
  match path.name? with
  | none => none
  | some name =>
      match piecesOf '.' name with
      | [] => none
      | [_] => none
      | ["", _] => none
      | pieces => pieces.getLast?

def sameAs (left right : FilePath) : Bool := left.components = right.components

end FilePath

end PipelineWaves
