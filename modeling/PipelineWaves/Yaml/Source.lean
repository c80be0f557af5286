import PipelineWaves.Shape.Content
import PipelineWaves.Yaml.Document
import PipelineWaves.Yaml.Layout
import PipelineWaves.Yaml.Repetition
import PipelineWaves.Yaml.Scalar

/-!
# Reading from YAML documents

A YAML document is a readable source with places: the keys and positions that
lead to a node. Any scalar can be read as a text. An empty plain scalar is also
an empty list or an empty record, and records are given by name only, except
where any content may stand. Aliases are followed; nodes nested more than 128
deep cannot be read, so that an alias inside its own node is an error.
-/

set_option autoImplicit false

namespace PipelineWaves

structure YamlSource where
  document : YamlDocument
  /-- The node, which a document may lack. -/
  node : Option YamlNode
  /-- How many collections may be entered, one inside the other. -/
  depth : Nat
  place : String

namespace YamlSource

def depthLimit : Nat := 128

/-- The place of the document itself. -/
def rootPlace : String := "."

def wording : FoundWording := ⟨"unit value", Binary64.positional⟩

def keyPlace (place key : String) : String :=
  if place = rootPlace then key else place ++ "." ++ key

def itemPlace (place : String) (index : Nat) : String := s!"{place}[{index}]"

/-- The place of a field; a key that is no scalar has no text. -/
def fieldPlace (place : String) : YamlNode → String
  | .scalar _ _ text => keyPlace place text
  | _ => keyPlace place "?"

def tooDeep : ReadError := .shape (some rootPlace) (.stated "recursion limit exceeded")

def tooRepetitive : ReadError := .shape (some rootPlace) (.stated "repetition limit exceeded")

/-- The node that an alias stands for. -/
def followed (document : YamlDocument) : YamlNode → YamlNode
  | .reference number => (document.target? number).getD .omitted
  | node => node

def target? (source : YamlSource) : Option YamlNode :=
  source.node.map (followed source.document)

def located (source : YamlSource) (error : ReadError) : ReadError :=
  error.placedAt source.place

def placed {Result : Type} (place : String) (result : Except ReadError Result) :
    Except ReadError Result :=
  result.mapError (ReadError.placedAt place)

def ofShape {Result : Type} (result : Except ShapeError Result) : Except ReadError Result :=
  result.mapError ReadError.of

/-- What a node is; a scalar with an unsuitable tag is an error of its own. -/
def foundNode (document : YamlDocument) (node : YamlNode) : Except ReadError Found :=
  match followed document node with
  | .scalar properties plain text =>
      (ofShape (YamlValue.ofScalar properties.tag plain text)).map YamlValue.found
  | .sequence _ _ => .ok .list
  | .mapping _ _ => .ok .object
  | .reference _ => .ok .absent

def mismatchNode {Result : Type} (document : YamlDocument) (node : YamlNode)
    (expected : String) : Except ReadError Result := do
  .error (.of (.wrongType (← foundNode document node) expected))

def mismatch {Result : Type} (source : YamlSource) (expected : String) :
    Except ReadError Result :=
  match source.node with
  | some node => placed source.place (mismatchNode source.document node expected)
  | none => .error (.of (.stated "EOF while parsing a value"))

def nodeText (document : YamlDocument) (place : String) (node : YamlNode) (expected : String) :
    Except ReadError String :=
  match followed document node with
  | .scalar _ _ text => .ok text
  | other => placed place (mismatchNode document other expected)

/-- Whether a node has a tag that only its own text gives a meaning. -/
def isTagged (node : YamlNode) : Bool :=
  match node.properties.tag with
  | some tag => YamlValue.isLocalTag tag
  | none => false

def readItems {Result : Type} (read : String → YamlNode → Except ReadError Result)
    (place : String) (index : Nat) : List YamlNode → Except ReadError (List Result)
  | [] => .ok []
  | item :: rest => do
      let value ← read (itemPlace place index) item
      let values ← readItems read place (index + 1) rest
      .ok (value :: values)

/-- Reads keys and values in turn; the key is told whether it is the first one. -/
def readFields {Key Result : Type} (key : Bool → YamlNode → Except ReadError Key)
    (value : String → YamlNode → Except ReadError Result) (place : String) (first : Bool) :
    List (YamlNode × YamlNode) → Except ReadError (List (Key × Result))
  | [] => .ok []
  | (name, node) :: rest => do
      let name' ← key first name
      let content ← value (fieldPlace place name) node
      let others ← readFields key value place false rest
      .ok ((name', content) :: others)

def scalarContent : YamlValue → Except ReadError Content
  | .absent => .ok .absent
  | .boolean value => .ok (.boolean value)
  | .integer value => .ok (.integer value)
  | .wide value => .error (.of (.wrongType (YamlValue.wide value).found "any value"))
  | .real value => .ok (.real value)
  | .text value => .ok (.text value)

def taggedContentText : String :=
  "untagged and internally tagged enums do not support enum input"

def contentFrom (document : YamlDocument) :
    Nat → String → YamlNode → Except ReadError Content
  | 0, place, node =>
      match followed document node with
      | .scalar properties plain text =>
          if isTagged (.scalar properties plain text) then
            placed place (.error (.of (.stated taggedContentText)))
          else
            placed place do
              scalarContent (← ofShape (YamlValue.ofScalar properties.tag plain text))
      | _ => .error tooDeep
  | depth + 1, place, node =>
      let node := followed document node
      if isTagged node then placed place (.error (.of (.stated taggedContentText)))
      else
        placed place
          (match node with
            | .scalar properties plain text => do
                scalarContent (← ofShape (YamlValue.ofScalar properties.tag plain text))
            | .sequence _ items => do
                .ok (.list (← readItems (contentFrom document depth) place 0 items))
            | .mapping _ fields => do
                let key (_ : Bool) (name : YamlNode) : Except ReadError Content :=
                  contentFrom document depth place name
                .ok (.object (← readFields key (contentFrom document depth) place true fields))
            | .reference _ => .ok .absent)

def scalarJson : YamlValue → Except ReadError Json
  | .absent => .ok .null
  | .boolean value => .ok (.boolean value)
  | .integer value => .ok (.number (.integer value))
  | .wide _ => .error (.of (.stated "JSON number out of range"))
  | .real (.finite negative significand exponent) =>
      .ok (.number (.real (.finite negative significand exponent)))
  | .real _ => .ok .null
  | .text value => .ok (.text value)

def anyJsonText : String := "any valid JSON value"

def jsonKeyText (first : Bool) : String := if first then "a string key" else "a string"

def jsonFrom (document : YamlDocument) : Nat → String → YamlNode → Except ReadError Json
  | 0, place, node =>
      match followed document node with
      | .scalar properties plain text =>
          if isTagged (.scalar properties plain text) then
            placed place (.error (.of (.wrongType .tagged anyJsonText)))
          else
            placed place do
              scalarJson (← ofShape (YamlValue.ofScalar properties.tag plain text))
      | _ => .error tooDeep
  | depth + 1, place, node =>
      let node := followed document node
      if isTagged node then placed place (.error (.of (.wrongType .tagged anyJsonText)))
      else
        placed place
          (match node with
            | .scalar properties plain text => do
                scalarJson (← ofShape (YamlValue.ofScalar properties.tag plain text))
            | .sequence _ items => do
                .ok (.list (← readItems (jsonFrom document depth) place 0 items))
            | .mapping _ fields => do
                let key (first : Bool) (name : YamlNode) : Except ReadError String :=
                  nodeText document place name (jsonKeyText first)
                .ok (.object (← readFields key (jsonFrom document depth) place true fields))
            | .reference _ => .ok .null)

/-- A node inside this one. -/
def inner (source : YamlSource) (place : String) (node : YamlNode) : YamlSource :=
  { source with node := some node, depth := source.depth - 1, place }

def childItems (source : YamlSource) (items : List YamlNode) :
    Except ReadError (Items YamlSource) :=
  if source.depth = 0 then .error tooDeep
  else
    .ok
      { items := items.zipIdx.map fun entry =>
          source.inner (itemPlace source.place entry.2) entry.1
        finish := fun _ => .ok () }

def childFields (source : YamlSource) (fields : List (YamlNode × YamlNode)) :
    Except ReadError (Fields YamlSource) :=
  if source.depth = 0 then .error tooDeep
  else
    .ok
      { fields := fields.map fun field =>
          (⟨nodeText source.document source.place field.1,
            contentFrom source.document (source.depth - 1) source.place field.1, none⟩,
            source.inner (fieldPlace source.place field.1) field.2)
        finish := .ok () }

/-- Whether a node has been left out, so that any empty collection fits. -/
def isLeftOut : Option YamlNode → Bool
  | none => true
  | some (.scalar _ plain text) => plain && text = ""
  | _ => false

def itemsOf (source : YamlSource) (expected : String) : Except ReadError (Items YamlSource) :=
  match source.target? with
  | some (.sequence _ items) => source.childItems items
  | target =>
      if isLeftOut target then .ok ⟨[], fun _ => .ok ()⟩ else source.mismatch expected

def fieldsOf (source : YamlSource) (expected : String) :
    Except ReadError (Fields YamlSource) :=
  match source.target? with
  | some (.mapping _ fields) => source.childFields fields
  | target => if isLeftOut target then .ok ⟨[], .ok ()⟩ else source.mismatch expected

def anyLayoutOf (source : YamlSource) (expected : String) :
    Except ReadError (Layout YamlSource) :=
  match source.target? with
  | some node =>
      if isTagged node then
        placed source.place (.error (.of (.wrongType .tagged expected)))
      else
        match node with
        | .sequence _ items => (source.childItems items).map .positions
        | .mapping _ fields => (source.childFields fields).map .names
        | _ => source.mismatch expected
  | none => source.mismatch expected

/-- Whether a node stands for something. -/
def isPresent : YamlNode → Except ReadError Bool
  | .scalar properties plain text =>
      if !plain then .ok true
      else
        match properties.tag with
        | none => .ok (text ≠ "" && !YamlValue.isAbsentWord text)
        | some tag =>
            if tag = YamlValue.coreTag "null" then
              if YamlValue.isAbsentWord text then .ok false
              else .error (.of (.wrongValue (.text text) "null"))
            else .ok true
  | _ => .ok true

def present (source : YamlSource) : Except ReadError (Option YamlSource) :=
  match source.target? with
  | none => .ok none
  | some node => (isPresent node).map fun found => if found then some source else none

def readText (source : YamlSource) (expected : String) : Except ReadError String :=
  match source.node with
  | some node => nodeText source.document source.place node expected
  | none => source.mismatch expected

def readVariant (source : YamlSource) (known : List String) : Except ReadError String := do
  let name ← source.readText "a string"
  if known.contains name then .ok name else .error (.of (.unknownVariant name known))

def content (source : YamlSource) : Except ReadError Content :=
  match source.node with
  | some node => contentFrom source.document source.depth source.place node
  | none => .ok .absent

def json (source : YamlSource) : Except ReadError Json :=
  match source.node with
  | some node => jsonFrom source.document source.depth source.place node
  | none => .ok .null

instance : Readable YamlSource where
  located := located
  text := readText
  present
  items := itemsOf
  fields := fieldsOf
  layout source expected := (source.fieldsOf expected).map .names
  anyLayout := anyLayoutOf
  content
  json
  variant := readVariant
  skip _ := .ok ()

/-- Reads a text that holds one document. -/
def readAll {Result : Type} (read : YamlSource → Except ReadError Result) (text : String) :
    Except ReadError Result :=
  match (YamlToken.ofText text).bind YamlDocument.ofTokens with
  | .ok document =>
      if document.repeatsTooOften depthLimit then .error tooRepetitive
      else read ⟨document, document.root, depthLimit, rootPlace⟩
  | .error fault => .error (.fault fault)

end YamlSource

end PipelineWaves
