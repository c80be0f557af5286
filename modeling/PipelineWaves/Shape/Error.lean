import PipelineWaves.Json.Document
import PipelineWaves.Text.Quoted

/-!
# Misfits of content

Definitions and reports have a fixed shape. A `ShapeError` says how content
misses the shape asked for. A `ReadError` is such a misfit, with the place where
it was found if the format keeps places, or a fault of the text itself.
-/

set_option autoImplicit false

namespace PipelineWaves

/-- What stands where something else is needed. -/
inductive Found where
  | absent
  | boolean (value : Bool)
  | integer (value : Int)
  | real (value : Binary64)
  | text (value : String)
  | list
  | object
  | tagged
  | unitVariant
  | other (description : String)

/-- The words that one format uses for absent values and real numbers. -/
structure FoundWording where
  absent : String
  real : Binary64 → String

namespace Found

def describe (wording : FoundWording) : Found → String
  | absent => wording.absent
  | boolean value => if value then "boolean \x60true\x60" else "boolean \x60false\x60"
  | integer value => s!"integer \x60{value}\x60"
  | real value => "floating point \x60" ++ wording.real value ++ "\x60"
  | text value => "string " ++ Text.quotedForMessage value
  | list => "sequence"
  | object => "map"
  | tagged => "enum"
  | unitVariant => "unit variant"
  | other description => description

end Found

inductive ShapeError where
  | wrongType (found : Found) (expected : String)
  | wrongValue (found : Found) (expected : String)
  | wrongLength (length : Nat) (expected : String)
  | unknownVariant (name : String) (known : List String)
  | unknownField (name : String) (known : List String)
  | missingField (name : String)
  | duplicateField (name : String)
  | stated (message : String)

namespace ShapeError

def nameInMessage (name : String) : String := "\x60" ++ name ++ "\x60"

def choice : List String → String
  | [] => ""
  | [only] => nameInMessage only
  | [first, second] => nameInMessage first ++ " or " ++ nameInMessage second
  | names => "one of " ++ ", ".intercalate (names.map nameInMessage)

def message (wording : FoundWording) : ShapeError → String
  | wrongType found expected => s!"invalid type: {found.describe wording}, expected {expected}"
  | wrongValue found expected => s!"invalid value: {found.describe wording}, expected {expected}"
  | wrongLength length expected => s!"invalid length {length}, expected {expected}"
  | unknownVariant name known =>
      "unknown variant " ++ nameInMessage name ++ ", expected " ++ choice known
  | unknownField name known =>
      "unknown field " ++ nameInMessage name ++ ", expected " ++ choice known
  | missingField name => "missing field " ++ nameInMessage name
  | duplicateField name => "duplicate field " ++ nameInMessage name
  | stated message => message

end ShapeError

inductive ReadError where
  | fault (fault : TextFault)
  | shape (place : Option String) (error : ShapeError)

namespace ReadError

def of (error : ShapeError) : ReadError := .shape none error

/-- Gives a misfit its place unless it has one. -/
def placedAt (place : String) : ReadError → ReadError
  | .shape none error => .shape (some place) error
  | other => other

end ReadError

end PipelineWaves
