import PipelineWaves.Shape.Error

/-!
# Readable sources

A source is content that definitions can be read from, whatever its format. The
class `Readable` says what a reader may ask of a source: its text, its items,
its fields, or its whole content. `Schema` describes a record by its fields and
reads it from any source: fields by name in the order in which they are given,
or by position. Fields are checked one after the other, so of several misfits
the one that stands first is reported, and missing fields only at the end.
-/

set_option autoImplicit false

namespace PipelineWaves

inductive Content where
  | absent
  | boolean (value : Bool)
  | integer (value : Int)
  | real (value : Binary64)
  | text (value : String)
  | list (items : List Content)
  | object (fields : List (Content × Content))

/-- The items of a source; `finish` is asked after the last item that was taken. -/
structure Items (Source : Type) where
  items : List Source
  finish : Nat → Except ReadError Unit

/--
The name of a field: its text, with the words for what it should be, its content, and the
position that it is if a number stands in place of a name.
-/
structure FieldKey where
  text : String → Except ReadError String
  content : Except ReadError Content
  position : Option Nat

structure Fields (Source : Type) where
  fields : List (FieldKey × Source)
  finish : Except ReadError Unit

/-- A record is given by position or by name. -/
inductive Layout (Source : Type) where
  | positions (items : Items Source)
  | names (fields : Fields Source)

class Readable (Source : Type) where
  /-- Adds the place of a source to errors found in it. -/
  located : Source → ReadError → ReadError
  /-- The text of a source, with the words for what it should be. -/
  text : Source → String → Except ReadError String
  /-- The source itself, unless it stands for nothing. -/
  present : Source → Except ReadError (Option Source)
  items : Source → String → Except ReadError (Items Source)
  fields : Source → String → Except ReadError (Fields Source)
  /-- A record in either layout that its format allows. -/
  layout : Source → String → Except ReadError (Layout Source)
  /-- A record in either layout, in a place that takes any content. -/
  anyLayout : Source → String → Except ReadError (Layout Source)
  content : Source → Except ReadError Content
  json : Source → Except ReadError Json
  /-- One name out of several; its words are those for a wrong kind of content. -/
  variant : Source → List String → Except ReadError String
  skip : Source → Except ReadError Unit

namespace Readable

variable {Source : Type} [Readable Source]

/-- Errors without a place get the place of this source. -/
def within {Result : Type} (source : Source) (result : Except ReadError Result) :
    Except ReadError Result :=
  match result with
  | .ok value => .ok value
  | .error error => .error (located source error)

def string (source : Source) : Except ReadError String := text source "a string"

def readEach {Result : Type} (read : Source → Except ReadError Result) :
    List Source → Except ReadError (List Result)
  | [] => .ok []
  | source :: rest => do
      let value ← read source
      let values ← readEach read rest
      .ok (value :: values)

def listOf {Result : Type} (read : Source → Except ReadError Result) (source : Source) :
    Except ReadError (List Result) :=
  within source do
    let items ← items source "a sequence"
    let values ← readEach read items.items
    items.finish items.items.length
    .ok values

def readEachField {Result : Type} (read : Source → Except ReadError Result) :
    List (FieldKey × Source) →
      Except ReadError (List (String × Result))
  | [] => .ok []
  | (key, source) :: rest => do
      let name ← key.text "a string"
      let value ← read source
      let values ← readEachField read rest
      .ok ((name, value) :: values)

def fieldsOf {Result : Type} (read : Source → Except ReadError Result) (source : Source) :
    Except ReadError (List (String × Result)) :=
  within source do
    let fields ← fields source "a map"
    let values ← readEachField read fields.fields
    fields.finish
    .ok values

def option {Result : Type} (read : Source → Except ReadError Result) (source : Source) :
    Except ReadError (Option Result) := do
  match ← present source with
  | none => .ok none
  | some source => (read source).map some

/-- One of several values, given by its name. -/
def oneOf {Value : Type} (values : List Value) (nameOf : Value → String) (source : Source) :
    Except ReadError Value :=
  within source do
    let known := values.map nameOf
    let name ← variant source known
    match values.find? fun value => nameOf value = name with
    | some value => .ok value
    | none => .error (.of (.unknownVariant name known))

end Readable

/-- A field of a record; one that is not needed may be left out at the end of a list. -/
structure FieldName where
  name : String
  aliases : List String
  needed : Bool

namespace FieldName

def required (name : String) : FieldName := ⟨name, [], true⟩
def optional (name : String) : FieldName := ⟨name, [], false⟩

end FieldName

/-- How a record is read: what its fields are called and what each of them adds. -/
structure Schema (Source Draft Result : Type) where
  title : String
  fields : List FieldName
  skipsUnknown : Bool
  start : Draft
  assign : Draft → String → Source → Except ReadError Draft
  build : Draft → Except ShapeError Result

namespace Schema

variable {Source Draft Result : Type}

def names (schema : Schema Source Draft Result) : List String :=
  schema.fields.flatMap fun field => field.name :: field.aliases

def field? (schema : Schema Source Draft Result) (name : String) : Option FieldName :=
  schema.fields.find? fun field => field.name = name || field.aliases.contains name

def lengthText (schema : Schema Source Draft Result) : String :=
  let count := schema.fields.length
  if count = 1 then schema.title ++ " with 1 element"
  else s!"{schema.title} with {count} elements"

/-- Reads items by position; the end of the items is looked at only when one is missing. -/
def readPositions (schema : Schema Source Draft Result) (finish : Nat → Except ReadError Unit)
    (draft : Draft) (index : Nat) : List FieldName → List Source → Except ReadError Draft
  | [], _ => .ok draft
  | field :: fields, source :: rest => do
      let draft ← schema.assign draft field.name source
      readPositions schema finish draft (index + 1) fields rest
  | field :: fields, [] => do
      finish index
      if field.needed then .error (.of (.wrongLength index schema.lengthText))
      else readPositions schema finish draft (index + 1) fields []

def positionText (schema : Schema Source Draft Result) : String :=
  s!"field index 0 <= i < {schema.fields.length}"

def nameOf (schema : Schema Source Draft Result) (key : FieldKey) : Except ReadError String :=
  match key.position with
  | none => key.text "field identifier"
  | some position =>
      match schema.fields[position]? with
      | some field => .ok field.name
      | none => .error (.of (.wrongValue (.integer position) schema.positionText))

variable [Readable Source]

def readNames (schema : Schema Source Draft Result) (draft : Draft) (seen : List String) :
    List (FieldKey × Source) → Except ReadError Draft
  | [] => .ok draft
  | (key, source) :: rest => do
      let name ← schema.nameOf key
      match schema.field? name with
      | some field =>
          if seen.contains field.name then .error (.of (.duplicateField field.name))
          else
            let draft ← schema.assign draft field.name source
            readNames schema draft (field.name :: seen) rest
      | none =>
          if schema.skipsUnknown then
            Readable.skip source
            readNames schema draft seen rest
          else .error (.of (.unknownField name schema.names))

def built (schema : Schema Source Draft Result) (draft : Draft) : Except ReadError Result :=
  match schema.build draft with
  | .ok result => .ok result
  | .error error => .error (.of error)

def ofLayout (schema : Schema Source Draft Result) :
    Layout Source → Except ReadError Result
  | .positions items => do
      let draft ← schema.readPositions items.finish schema.start 0 schema.fields items.items
      let result ← schema.built draft
      items.finish (min items.items.length schema.fields.length)
      .ok result
  | .names fields => do
      let draft ← schema.readNames schema.start [] fields.fields
      fields.finish
      schema.built draft

def read (schema : Schema Source Draft Result) (source : Source) : Except ReadError Result :=
  Readable.within source do
    schema.ofLayout (← Readable.layout source schema.title)

/-- Reads the record in a place that takes any content. -/
def readAny (schema : Schema Source Draft Result) (source : Source) : Except ReadError Result :=
  Readable.within source do
    schema.ofLayout (← Readable.anyLayout source schema.title)

end Schema

/-- The value of a field that must be given. -/
def ShapeError.required {Value : Type} (name : String) :
    Option Value → Except ShapeError Value
  | some value => .ok value
  | none => .error (.missingField name)

end PipelineWaves
