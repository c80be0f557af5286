import PipelineWaves.Files.Call

/-!
# Fields

An expanded word is a list of pieces. Pieces are split into fields at separator characters that
no quotes protect, and a field with pattern characters stands for the paths that it fits, if
there are any: a star fits any run of characters, a question mark one character, and brackets
one character of a class.
-/

set_option autoImplicit false

namespace PipelineWaves.Sandbox

inductive PatternItem where
  | character (character : Char)
  | one
  | any
  | among (negated : Bool) (ranges : List (Char × Char))
deriving DecidableEq, Repr

/-- A character and whether quotes keep it from having a meaning of its own. -/
structure Mark where
  character : Char
  literal : Bool
deriving DecidableEq, Repr

namespace Pattern

def suffixes {Item : Type} : List Item → List (List Item)
  | [] => [[]]
  | item :: rest => (item :: rest) :: suffixes rest

def beginnings {Item : Type} (items : List Item) : List (List Item) :=
  (suffixes items.reverse).reverse.map List.reverse

/-- The ranges of a class, from the characters between its brackets. -/
def rangesOf : List Char → List (Char × Char)
  | low :: '-' :: high :: rest => (low, high) :: rangesOf rest
  | character :: rest => (character, character) :: rangesOf rest
  | [] => []

/-- The characters of a class and what stands behind it; a bracket may come first. -/
def classOf (marks : List Mark) : Option (Bool × List Char × List Mark) :=
  let negated :=
    match marks with
    | mark :: _ => !mark.literal && (mark.character = '!' || mark.character = '^')
    | [] => false
  let inner := if negated then marks.drop 1 else marks
  match inner with
  | [] => none
  | first :: rest =>
      let closes (mark : Mark) : Bool := mark.character = ']' && !mark.literal
      let others := rest.takeWhile fun mark => !closes mark
      match rest.drop others.length with
      | [] => none
      | _ :: behind => some (negated, first.character :: others.map Mark.character, behind)

/-- Reads the items of a pattern, at most so many. -/
def itemsFrom : Nat → List Mark → List PatternItem
  | 0, _ => []
  | _, [] => []
  | steps + 1, mark :: rest =>
      if mark.literal then .character mark.character :: itemsFrom steps rest
      else if mark.character = '*' then .any :: itemsFrom steps rest
      else if mark.character = '?' then .one :: itemsFrom steps rest
      else if mark.character = '[' then
        match classOf rest with
        | some (negated, members, behind) =>
            .among negated (rangesOf members) :: itemsFrom steps behind
        | none => .character '[' :: itemsFrom steps rest
      else .character mark.character :: itemsFrom steps rest

def items (marks : List Mark) : List PatternItem := itemsFrom marks.length marks

def accepts : PatternItem → Char → Bool
  | .character wanted, found => found = wanted
  | .one, _ => true
  | .any, _ => false
  | .among negated ranges, found =>
      let inside := ranges.any fun range => range.1 ≤ found && found ≤ range.2
      if negated then !inside else inside

def fits : List PatternItem → List Char → Bool
  | [], characters => characters.isEmpty
  | .any :: rest, characters => (suffixes characters).any (fits rest)
  | _ :: _, [] => false
  | item :: rest, character :: characters => accepts item character && fits rest characters

def isPattern (marks : List Mark) : Bool :=
  marks.any fun mark => !mark.literal && ['*', '?', '['].contains mark.character

/-- Cuts the shortest or longest beginning that fits. -/
def cutFront (longest : Bool) (pattern : List PatternItem) (characters : List Char) : List Char :=
  let fronts := beginnings characters
  let fronts := if longest then fronts.reverse else fronts
  match fronts.find? (fits pattern) with
  | some front => characters.drop front.length
  | none => characters

def cutBack (longest : Bool) (pattern : List PatternItem) (characters : List Char) : List Char :=
  let backs := suffixes characters
  let backs := if longest then backs else backs.reverse
  match backs.find? (fits pattern) with
  | some back => characters.take (characters.length - back.length)
  | none => characters

end Pattern

inductive Piece where
  | character (mark : Mark) (splits : Bool)
  /-- Quotes make a field even when nothing stands between them. -/
  | presence
  /-- The end of one of several arguments. -/
  | boundary
deriving DecidableEq, Repr

namespace Field

def piecesOf (quoted splits : Bool) (text : String) : List Piece :=
  text.toList.map fun character => .character ⟨character, quoted⟩ splits

def mark? : Piece → Option Mark
  | .character mark _ => some mark
  | _ => none

def marksOf (pieces : List Piece) : List Mark := pieces.filterMap mark?

def textOf (marks : List Mark) : String := String.ofList (marks.map Mark.character)

/-- The fields so far, the latest first, and the one that is being read. -/
structure Splitting where
  fields : List (List Mark)
  current : Option (List Mark)
  /-- Whether blanks have just ended a field. -/
  afterBlank : Bool

namespace Splitting

def add (state : Splitting) (mark : Mark) : Splitting :=
  { state with current := some (mark :: state.current.getD []), afterBlank := false }

def finish (state : Splitting) : Splitting :=
  match state.current with
  | some field => { state with fields := field.reverse :: state.fields, current := none }
  | none => state

def blank (state : Splitting) : Splitting :=
  match state.current with
  | some _ => { state.finish with afterBlank := true }
  | none => state

def separate (state : Splitting) : Splitting :=
  if state.afterBlank then { state with afterBlank := false }
  else { state with current := some (state.current.getD []) }.finish

end Splitting

def splitStep (separators : List Char) (state : Splitting) : Piece → Splitting
  | .presence => { state with current := some (state.current.getD []) }
  | .boundary => { state.finish with afterBlank := false }
  | .character mark splits =>
      if splits && separators.contains mark.character then
        if mark.character.isWhitespace then state.blank else state.separate
      else state.add mark

def split (separators : List Char) (pieces : List Piece) : List (List Mark) :=
  (pieces.foldl (splitStep separators) ⟨[], none, false⟩).finish.fields.reverse

def segments : List Mark → List (List Mark)
  | [] => [[]]
  | mark :: rest =>
      if mark.character = '/' then [] :: segments rest
      else
        match segments rest with
        | first :: others => (mark :: first) :: others
        | [] => [[mark]]

/-- The names that a segment stands for in a directory; names with a dot at the front are hidden. -/
def namesFor (files : Files) (directory : String) (segment : List Mark) : List String :=
  if Pattern.isPattern segment then
    let path := if directory = "" then "." else directory
    let names := ((files.names ⟨path⟩).toOption.getD []).mergeSort fun left right => left ≤ right
    let showsHidden := (segment.head?.map Mark.character) = some '.'
    let pattern := Pattern.items segment
    names.filter fun name =>
      (showsHidden || !name.startsWith ".") && Pattern.fits pattern name.toList
  else [textOf segment]

def pathsFrom (files : Files) : List String → List (List Mark) → List String
  | found, [] => found
  | found, segment :: rest =>
      let isLast := rest.isEmpty
      let next := found.flatMap fun directory =>
        (namesFor files directory segment).filterMap fun name =>
          let path := directory ++ name
          if isLast then
            if name = "" || files.isPresent ⟨path⟩ then some path else none
          else some (path ++ "/")
      pathsFrom files next rest

/-- What a field stands for: the paths that fit, or itself. -/
def paths (files : Files) (field : List Mark) : List String :=
  if Pattern.isPattern field then
    match pathsFrom files [""] (segments field) with
    | [] => [textOf field]
    | found => found
  else [textOf field]

end Field

end PipelineWaves.Sandbox
