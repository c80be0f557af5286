import PipelineWaves.Shape.Readable

/-!
# Reading whole content

Content that was taken as a whole can be read again like any other source. It
has no places and no text faults any more; a record may be given by name or by
position, and surplus items are counted.
-/

set_option autoImplicit false

namespace PipelineWaves.Content

def found : Content → Found
  | .absent => .absent
  | .boolean value => .boolean value
  | .integer value => .integer value
  | .real value => .real value
  | .text value => .text value
  | .list _ => .list
  | .object _ => .object

def mismatch {Result : Type} (content : Content) (expected : String) : Except ReadError Result :=
  .error (.of (.wrongType content.found expected))

def readText (content : Content) (expected : String) : Except ReadError String :=
  match content with
  | .text value => .ok value
  | other => other.mismatch expected

def surplusText (taken : Nat) : String :=
  if taken = 1 then "1 element in sequence" else s!"{taken} elements in sequence"

def itemsOf (items : List Content) : Items Content :=
  { items
    finish := fun taken =>
      if taken < items.length then .error (.of (.wrongLength items.length (surplusText taken)))
      else .ok () }

/-- The position that a key gives in place of a name. -/
def position? : Content → Option Nat
  | .integer value => if 0 ≤ value then some value.toNat else none
  | _ => none

def fieldsOf (fields : List (Content × Content)) : Fields Content :=
  { fields := fields.map fun field =>
      (⟨field.1.readText, .ok field.1, field.1.position?⟩, field.2)
    finish := .ok () }

def layoutOf (content : Content) (expected : String) : Except ReadError (Layout Content) :=
  match content with
  | .list items => .ok (.positions (itemsOf items))
  | .object fields => .ok (.names (fieldsOf fields))
  | other => other.mismatch expected

def variantPositionText (known : List String) : String :=
  s!"variant index 0 <= i < {known.length}"

/-- One of several names, given by itself or by its position. -/
def readName (content : Content) (known : List String) : Except ReadError String := do
  match content.position? with
  | some position =>
      match known[position]? with
      | some name => .ok name
      | none => .error (.of (.wrongValue (.integer position) (variantPositionText known)))
  | none =>
      let name ← content.readText "variant identifier"
      if known.contains name then .ok name else .error (.of (.unknownVariant name known))

/-- A name alone, or the only name of an object whose value says nothing. -/
def readVariant (content : Content) (known : List String) : Except ReadError String := do
  match content with
  | .text _ => content.readName known
  | .object [(key, value)] =>
      let name ← key.readName known
      match value with
      | .absent => .ok name
      | .object [] => .ok name
      | other => other.mismatch "unit"
  | .object _ => .error (.of (.wrongValue .object "map with a single key"))
  | other => other.mismatch "string or map"

mutual

/-- Content as a JSON value; numbers that JSON cannot write become `null`. -/
def toJson : Content → Json
  | .absent => .null
  | .boolean value => .boolean value
  | .integer value => .number (.integer value)
  | .real (.finite negative significand exponent) =>
      .number (.real (.finite negative significand exponent))
  | .real _ => .null
  | .text value => .text value
  | .list items => .list (itemsToJson items)
  | .object fields => .object (fieldsToJson fields)

def itemsToJson : List Content → List Json
  | [] => []
  | item :: rest => toJson item :: itemsToJson rest

def fieldsToJson : List (Content × Content) → List (String × Json)
  | [] => []
  | (.text name, value) :: rest => (name, toJson value) :: fieldsToJson rest
  | (_, value) :: rest => ("", toJson value) :: fieldsToJson rest

end

mutual

def ofJson : Json → Content
  | .null => .absent
  | .boolean value => .boolean value
  | .number (.integer value) => .integer value
  | .number (.real value) => .real value
  | .text value => .text value
  | .list items => .list (itemsOfJson items)
  | .object fields => .object (fieldsOfJson fields)

def itemsOfJson : List Json → List Content
  | [] => []
  | item :: rest => ofJson item :: itemsOfJson rest

def fieldsOfJson : List (String × Json) → List (Content × Content)
  | [] => []
  | (name, value) :: rest => (.text name, ofJson value) :: fieldsOfJson rest

end

instance : Readable Content where
  located _ error := error
  text := readText
  present
    | .absent => .ok none
    | other => .ok (some other)
  items content expected :=
    match content with
    | .list items => .ok (itemsOf items)
    | other => other.mismatch expected
  fields content expected :=
    match content with
    | .object fields => .ok (fieldsOf fields)
    | other => other.mismatch expected
  layout := layoutOf
  anyLayout := layoutOf
  content content := .ok content
  json content := .ok content.toJson
  variant := readVariant
  skip _ := .ok ()

end PipelineWaves.Content
