import PipelineWaves.Shape.Content

/-!
# Reading from JSON documents

A JSON document is a readable source without places. A record may be given by
name or by position, and `null` stands for nothing where something is optional.
-/

set_option autoImplicit false

namespace PipelineWaves.JsonDocument

/-- How messages about JSON name absent values and real numbers. -/
def wording : FoundWording := ⟨"null", Binary64.inNotation⟩

def ofFault {Result : Type} (result : Except TextFault Result) : Except ReadError Result :=
  match result with
  | .ok value => .ok value
  | .error fault => .error (.fault fault)

/-- What a document is at its start, without reading on into lists and objects. -/
def found : JsonDocument → Except ReadError Found
  | .broken fault => .error (.fault fault)
  | .null => .ok .absent
  | .boolean value => .ok (.boolean value)
  | .number (.ok (.integer value)) => .ok (.integer value)
  | .number (.ok (.real value)) => .ok (.real value)
  | .number (.error fault) => .error (.fault fault)
  | .text (.ok value) => .ok (.text value)
  | .text (.error fault) => .error (.fault fault)
  | .list _ _ => .ok .list
  | .object _ _ => .ok .object
  | .tooDeep (.object _ _) => .ok .object
  | .tooDeep _ => .ok .list
  | .misplaced _ => .error (.fault .malformed)

def mismatch {Result : Type} (document : JsonDocument) (expected : String) :
    Except ReadError Result := do
  .error (.of (.wrongType (← document.found) expected))

def readText (document : JsonDocument) (expected : String) : Except ReadError String :=
  match document with
  | .text value => ofFault value
  | other => other.mismatch expected

def itemsOf (items : List JsonDocument) (ending : Option TextFault) : Items JsonDocument :=
  { items
    finish := fun taken =>
      if taken < items.length then .error (.fault .malformed) else ofFault (ended ending) }

def fieldsOf (fields : List (Except TextFault String × JsonDocument))
    (ending : Option TextFault) : Fields JsonDocument :=
  { fields := fields.map fun field =>
      (⟨fun _ => ofFault field.1, ofFault (field.1.map .text), none⟩, field.2)
    finish := ofFault (ended ending) }

def layoutOf (document : JsonDocument) (expected : String) :
    Except ReadError (Layout JsonDocument) :=
  match document with
  | .list items ending => .ok (.positions (itemsOf items ending))
  | .object fields ending => .ok (.names (fieldsOf fields ending))
  | .tooDeep _ => .error (.fault .malformed)
  | other => other.mismatch expected

/-- A name alone, or the only name of an object. -/
inductive VariantForm where
  | bare (name : String)
  | holding (name : String) (value : JsonDocument) (finish : Except ReadError Unit)

def variantForm (document : JsonDocument) (known : List String) : Except ReadError VariantForm := do
  let check (name : String) : Except ReadError String :=
    if known.contains name then .ok name else .error (.of (.unknownVariant name known))
  match document with
  | .text name => return .bare (← check (← ofFault name))
  | .object ((_, .misplaced found) :: _) _ => found.mismatch "variant identifier"
  | .object ((name, value) :: others) ending =>
      let name ← check (← ofFault name)
      return .holding name value
        (if others.isEmpty then ofFault (ended ending) else .error (.fault .malformed))
  | .object [] (some fault) => .error (.fault fault)
  | .broken fault => .error (.fault fault)
  | _ => .error (.fault .malformed)

def readVariant (document : JsonDocument) (known : List String) : Except ReadError String := do
  match ← document.variantForm known with
  | .bare name => .ok name
  | .holding name value finish =>
      match value with
      | .null => do
          finish
          .ok name
      | other => other.mismatch "unit"

def readInteger (lowest highest : Int) (expected : String) (document : JsonDocument) :
    Except ReadError Int :=
  match document with
  | .number (.ok (.integer value)) =>
      if lowest ≤ value ∧ value ≤ highest then .ok value
      else .error (.of (.wrongValue (.integer value) expected))
  | other => other.mismatch expected

instance : Readable JsonDocument where
  located _ error := error
  text := readText
  present
    | .null => .ok none
    | .broken fault => .error (.fault fault)
    | other => .ok (some other)
  items document expected :=
    match document with
    | .list items ending => .ok (itemsOf items ending)
    | .tooDeep (.list _ _) => .error (.fault .malformed)
    | other => other.mismatch expected
  fields document expected :=
    match document with
    | .object fields ending => .ok (fieldsOf fields ending)
    | .tooDeep (.object _ _) => .error (.fault .malformed)
    | other => other.mismatch expected
  layout := layoutOf
  anyLayout := layoutOf
  content document := ofFault (document.value.map Content.ofJson)
  json document := ofFault document.value
  variant := readVariant
  skip document := ofFault document.skip

/-- Reads a whole text; what follows the document is looked at last. -/
def readAll {Result : Type} (read : JsonDocument → Except ReadError Result) (source : String) :
    Except ReadError Result := do
  let reading := JsonDocument.read source
  let result ← read reading.document
  ofFault (ended reading.trailing)
  .ok result

end PipelineWaves.JsonDocument
