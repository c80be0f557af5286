import PipelineWaves.Program.Error
import PipelineWaves.Text.Blank

/-!
# Templates

A template is text with placeholders: a name between two opening and two closing
braces, with optional blanks around it. It splits from left to right into plain
segments and placeholders, the leftmost placeholder first. All placeholders are
filled at once, so that what a value contains is never taken for a placeholder.
-/

set_option autoImplicit false

namespace PipelineWaves

inductive TemplateSegment where
  | plain (character : Char)
  | placeholder (key : String)
deriving DecidableEq, Repr

namespace Template

def startsName (character : Char) : Bool := character.isAlpha || character = '_'

def continuesName (character : Char) : Bool := character.isAlphanum || character = '_'

def isOpening (characters : List Char) : Bool := characters.take 2 = ['\x7b', '\x7b']

def isClosing (characters : List Char) : Bool := characters.take 2 = ['\x7d', '\x7d']

/-- The placeholder at the start of a text: its key and the number of its characters. -/
def placeholder? (characters : List Char) : Option (String × Nat) :=
  if isOpening characters then
    let inner := characters.drop 2
    let before := inner.takeWhile Text.isBlank
    let afterBlank := inner.drop before.length
    match afterBlank.head? with
    | none => none
    | some first =>
        if startsName first then
          let name := afterBlank.takeWhile continuesName
          let afterName := afterBlank.drop name.length
          let behind := afterName.takeWhile Text.isBlank
          if isClosing (afterName.drop behind.length) then
            some (String.ofList name, before.length + name.length + behind.length + 3)
          else none
        else none
  else none

/-- The segments of a text; a placeholder counts its characters after the first one. -/
def segmentsOf : List Char → List TemplateSegment
  | [] => []
  | first :: rest =>
      match placeholder? (first :: rest) with
      | some (key, more) => .placeholder key :: segmentsOf (rest.drop more)
      | none => .plain first :: segmentsOf rest
termination_by characters => characters.length
decreasing_by all_goals simp; try omega

def segments (template : String) : List TemplateSegment := segmentsOf template.toList

def missingKeys (values : List (String × String)) (segments : List TemplateSegment) :
    List String :=
  segments.filterMap fun
    | .placeholder key => if (values.lookup key).isNone then some key else none
    | .plain _ => none

def fill (values : List (String × String)) : TemplateSegment → String
  | .plain character => String.singleton character
  | .placeholder key => (values.lookup key).getD ""

def render (name template : String) (values : List (String × String)) :
    Except GenerationError String :=
  let segments := segments template
  match missingKeys values segments with
  | [] => .ok (String.join (segments.map (fill values)))
  | missing => .error (.unfilledPlaceholders name missing)

end Template

end PipelineWaves
