import PipelineWaves.Json.Token
import PipelineWaves.Yaml.Node
import PipelineWaves.Yaml.Token

/-!
# YAML documents

The tree of a text that holds one document. Tokens are taken one by one into the
innermost open collection; nodes that are left out become empty scalars. A
second document is a fault, and so is an alias without an anchor before it. A
text without any token holds no node at all.
-/

set_option autoImplicit false

namespace PipelineWaves

inductive DocumentPlace where
  /-- Directives, the start mark, or the content of a document without a start mark. -/
  | prolog
  | content
  | done
deriving DecidableEq, Repr

/-- What may come next in a sequence: the mark of an item or an end, or an item. -/
inductive SequencePlace where
  | mark
  | item
deriving DecidableEq, Repr

/-- What may come next in a mapping: a mark or an end, a key, a colon, or a value. -/
inductive MappingPlace where
  | mark
  /-- In brackets: a key mark or a bare key. -/
  | item
  | key
  | colon
  | value
deriving DecidableEq, Repr

/-- A collection whose end has not been reached; the latest entry stands first. -/
inductive YamlFrame where
  | document (place : DocumentPlace) (root : Option YamlNode)
  | blockSequence (properties : NodeProperties) (items : List YamlNode) (place : SequencePlace)
  /-- A sequence at the column of the mapping around it; it has no end mark. -/
  | flushSequence (properties : NodeProperties) (items : List YamlNode) (place : SequencePlace)
  | flowSequence (properties : NodeProperties) (items : List YamlNode) (place : SequencePlace)
  | blockMapping (properties : NodeProperties) (fields : List (YamlNode × YamlNode))
      (pending : YamlNode) (place : MappingPlace)
  | flowMapping (properties : NodeProperties) (fields : List (YamlNode × YamlNode))
      (pending : YamlNode) (place : MappingPlace)
  /-- A mapping of one entry inside the brackets of a sequence. -/
  | flowPair (pending value : YamlNode) (place : MappingPlace)
deriving Repr

/-- The node that stands for one that was left out. -/
def YamlNode.omitted : YamlNode := .empty .none

namespace YamlFrame

def allowsBlocks : YamlFrame → Bool
  | document _ _ => true
  | blockSequence _ _ _ => true
  | flushSequence _ _ _ => true
  | blockMapping _ _ _ _ => true
  | _ => false

/-- Whether a sequence may start at the column of the frame itself. -/
def allowsFlush : YamlFrame → Bool
  | blockMapping _ _ _ _ => true
  | _ => false

def add (node : YamlNode) : YamlFrame → YamlFrame
  | document _ _ => .document .done (some node)
  | blockSequence properties items _ => .blockSequence properties (node :: items) .mark
  | flushSequence properties items _ => .flushSequence properties (node :: items) .mark
  | flowSequence properties items _ => .flowSequence properties (node :: items) .mark
  | blockMapping properties fields _ .key => .blockMapping properties fields node .colon
  | blockMapping properties fields pending _ =>
      .blockMapping properties ((pending, node) :: fields) .omitted .mark
  | flowMapping properties fields _ .key => .flowMapping properties fields node .colon
  | flowMapping properties fields _ .item =>
      .flowMapping properties ((node, .omitted) :: fields) .omitted .mark
  | flowMapping properties fields pending _ =>
      .flowMapping properties ((pending, node) :: fields) .omitted .mark
  | flowPair _ value .key => .flowPair node value .colon
  | flowPair pending _ _ => .flowPair pending node .mark

def omits (token : YamlToken) : YamlFrame → Bool
  | document .content _ =>
      match token with
      | .version _ _ | .tagDirective _ _ | .documentStart | .documentEnd | .streamEnd => true
      | _ => false
  | blockSequence _ _ .item => token = .dash || token = .blockEnd
  | flushSequence _ _ .item =>
      token = .dash || token = .key || token = .value || token = .blockEnd
  | blockMapping _ _ _ .key => token = .key || token = .value || token = .blockEnd
  | blockMapping _ _ _ .colon => token ≠ .value
  | blockMapping _ _ _ .value => token = .key || token = .value || token = .blockEnd
  | flowMapping _ _ _ .key => token = .value || token = .comma || token = .closeMapping
  | flowMapping _ _ _ .colon => token ≠ .value
  | flowMapping _ _ _ .value => token = .comma || token = .closeMapping
  | flowPair _ _ .colon => token ≠ .value
  | flowPair _ _ .value => token = .comma || token = .closeSequence
  | _ => false

/-- Adds an empty node if one has been left out before a token. -/
def fill (token : YamlToken) (frame : YamlFrame) : YamlFrame :=
  if frame.omits token then frame.add .omitted else frame

end YamlFrame

inductive YamlStep where
  | failed
  /-- The frame takes the token. -/
  | taken (frame : YamlFrame)
  /-- A node may start with the token. -/
  | node
  /-- The frame is complete; the token may still belong to the frame around it. -/
  | closed (node : YamlNode) (takesToken : Bool)

namespace YamlFrame

def documentStep (token : YamlToken) (root : Option YamlNode) : DocumentPlace → YamlStep
  | .prolog =>
      match token with
      | .documentStart => .taken (.document .content root)
      | .streamEnd => .taken (.document .done root)
      | _ => .node
  | .content => .node
  | .done =>
      if token = .documentEnd || token = .streamEnd then .taken (.document .done root)
      else .failed

def blockSequenceStep (token : YamlToken) (properties : NodeProperties) (items : List YamlNode) :
    SequencePlace → YamlStep
  | .mark =>
      if token = .dash then .taken (.blockSequence properties items .item)
      else if token = .blockEnd then .closed (.sequence properties items.reverse) true
      else .failed
  | .item => .node

def flushSequenceStep (token : YamlToken) (properties : NodeProperties) (items : List YamlNode) :
    SequencePlace → YamlStep
  | .mark =>
      if token = .dash then .taken (.flushSequence properties items .item)
      else .closed (.sequence properties items.reverse) false
  | .item => .node

def flowSequenceStep (token : YamlToken) (properties : NodeProperties) (items : List YamlNode) :
    SequencePlace → YamlStep
  | .mark =>
      if token = .comma then .taken (.flowSequence properties items .item)
      else if token = .closeSequence then .closed (.sequence properties items.reverse) true
      else .failed
  | .item =>
      if token = .closeSequence then .closed (.sequence properties items.reverse) true else .node

def blockMappingStep (token : YamlToken) (properties : NodeProperties)
    (fields : List (YamlNode × YamlNode)) (pending : YamlNode) : MappingPlace → YamlStep
  | .colon =>
      if token = .value then .taken (.blockMapping properties fields pending .value) else .failed
  | .key => .node
  | .value => .node
  | _ =>
      if token = .key then .taken (.blockMapping properties fields pending .key)
      else if token = .blockEnd then .closed (.mapping properties fields.reverse) true
      else .failed

def flowMappingStep (token : YamlToken) (properties : NodeProperties)
    (fields : List (YamlNode × YamlNode)) (pending : YamlNode) : MappingPlace → YamlStep
  | .mark =>
      if token = .comma then .taken (.flowMapping properties fields pending .item)
      else if token = .closeMapping then .closed (.mapping properties fields.reverse) true
      else .failed
  | .item =>
      if token = .key then .taken (.flowMapping properties fields pending .key)
      else if token = .closeMapping then .closed (.mapping properties fields.reverse) true
      else .node
  | .colon =>
      if token = .value then .taken (.flowMapping properties fields pending .value) else .failed
  | _ => .node

/-- A key mark without a key takes the next token with it. -/
def flowPairStep (token : YamlToken) (pending value : YamlNode) : MappingPlace → YamlStep
  | .key =>
      if token = .value || token = .comma || token = .closeSequence then
        .taken (.flowPair .omitted value .colon)
      else .node
  | .colon =>
      if token = .value then .taken (.flowPair pending value .value) else .failed
  | .value => .node
  | _ => .closed (.mapping .none [(pending, value)]) false

def step (token : YamlToken) : YamlFrame → YamlStep
  | document place root => documentStep token root place
  | blockSequence properties items place => blockSequenceStep token properties items place
  | flushSequence properties items place => flushSequenceStep token properties items place
  | flowSequence properties items place => flowSequenceStep token properties items place
  | blockMapping properties fields pending place =>
      blockMappingStep token properties fields pending place
  | flowMapping properties fields pending place =>
      flowMappingStep token properties fields pending place
  | flowPair pending value place => flowPairStep token pending value place

def opened? (token : YamlToken) (properties : NodeProperties) (frame : YamlFrame) :
    Option YamlFrame :=
  match token with
  | .openSequence => some (.flowSequence properties [] .item)
  | .openMapping => some (.flowMapping properties [] .omitted .item)
  | .blockSequence => if frame.allowsBlocks then some (.blockSequence properties [] .mark) else none
  | .blockMapping =>
      if frame.allowsBlocks then some (.blockMapping properties [] .omitted .mark) else none
  | .dash => if frame.allowsFlush then some (.flushSequence properties [] .item) else none
  | .key =>
      match frame with
      | .flowSequence _ _ _ => if properties = .none then some (.flowPair .omitted .omitted .key)
          else none
      | _ => none
  | _ => none

end YamlFrame

structure YamlReading where
  top : YamlFrame
  outer : List YamlFrame
  /-- Properties whose node comes next. -/
  properties : Option NodeProperties
  /-- The anchors by name, with their numbers. -/
  anchors : List (String × Nat)
  /-- What the handles of tags stand for; given by directives. -/
  handles : List (String × String)
  version : Bool

namespace YamlReading

def start : YamlReading :=
  { top := .document .prolog none
    outer := []
    properties := none
    anchors := []
    handles := []
    version := false }

def hasDirectives (reading : YamlReading) : Bool :=
  reading.version || !reading.handles.isEmpty

def standardHandles : List (String × String) := [("!", "!"), ("!!", "tag:yaml.org,2002:")]

def resolveTag (reading : YamlReading) (handle suffix : String) : Option String :=
  if handle = "" then some suffix
  else
    match (reading.handles ++ standardHandles).lookup handle with
    | some start => some (start ++ suffix)
    | none => none

def direct (reading : YamlReading) : YamlToken → Option YamlReading
  | .version major minor =>
      if !reading.version && major = 1 && (minor = 1 || minor = 2) then
        some { reading with version := true }
      else none
  | .tagDirective handle uri =>
      if (reading.handles.lookup handle).isSome then none
      else some { reading with handles := reading.handles ++ [(handle, uri)] }
  | _ => none

/-- A new anchor gets the number of names so far; its name then means this number. -/
def addAnchor (reading : YamlReading) (name : String) : YamlReading × Nat :=
  let number := reading.anchors.length
  let others := reading.anchors.filter fun anchor => anchor.1 ≠ name
  ({ reading with anchors := (name, number) :: others }, number)

def withProperty (reading : YamlReading) (token : YamlToken) : Option YamlReading :=
  let properties := reading.properties.getD .none
  match token with
  | .anchor name =>
      if properties.anchor.isSome then none
      else
        let (reading, number) := reading.addAnchor name
        some { reading with properties := some { properties with anchor := some number } }
  | .tag handle suffix =>
      if properties.tag.isSome then none
      else
        match reading.resolveTag handle suffix with
        | some tag => some { reading with properties := some { properties with tag := some tag } }
        | none => none
  | _ => none

/-- A lone exclamation mark before a scalar leaves it without a tag. -/
def scalarProperties (properties : NodeProperties) : NodeProperties :=
  if properties.tag = some "!" then { properties with tag := none } else properties

def place (node : YamlNode) (reading : YamlReading) : YamlReading :=
  { reading with top := reading.top.add node, properties := none }

def begin? (token : YamlToken) (reading : YamlReading) : Option YamlReading :=
  let properties := reading.properties.getD .none
  match token with
  | .reference name =>
      if reading.properties.isSome then none
      else (reading.anchors.lookup name).map fun number => reading.place (.reference number)
  | .scalar plain text =>
      some (reading.place (.scalar (scalarProperties properties) plain text))
  | token =>
      match reading.top.opened? token properties with
      | some frame =>
          some
            { reading with
              top := frame
              outer := reading.top :: reading.outer
              properties := none }
      | none => reading.withProperty token

/-- Takes a token into the innermost frame, whose missing nodes are filled in first. -/
def takeFilled (token : YamlToken) (reading : YamlReading) (top : YamlFrame) :
    List YamlFrame → Option YamlReading
  | [] =>
      match top.step token with
      | .taken frame => some { reading with top := frame, outer := [] }
      | .node => { reading with top, outer := [] }.begin? token
      | _ => none
  | parent :: outer =>
      match top.step token with
      | .failed => none
      | .taken frame => some { reading with top := frame, outer := parent :: outer }
      | .node => { reading with top, outer := parent :: outer }.begin? token
      | .closed node true => some { reading with top := parent.add node, outer }
      | .closed node false =>
          takeFilled token reading (((parent.add node).fill token).fill token) outer

def takePlain (token : YamlToken) (reading : YamlReading) : Option YamlReading :=
  takeFilled token reading ((reading.top.fill token).fill token) reading.outer

def isProlog (reading : YamlReading) : Bool :=
  match reading.top with
  | .document .prolog _ => true
  | _ => false

def isDirective : YamlToken → Bool
  | .version _ _ => true
  | .tagDirective _ _ => true
  | _ => false

def take (token : YamlToken) (reading : YamlReading) : Option YamlReading :=
  match reading.properties with
  | some properties =>
      match reading.begin? token with
      | some next => some next
      | none => (reading.place (.empty properties)).takePlain token
  | none =>
      if reading.isProlog && isDirective token then reading.direct token
      else if reading.isProlog && reading.hasDirectives && token ≠ .documentStart then none
      else reading.takePlain token

def takeAll (reading : YamlReading) : List YamlToken → Option YamlReading
  | [] => some reading
  | token :: rest =>
      match reading.take token with
      | some reading => reading.takeAll rest
      | none => none

end YamlReading

/-- A whole document: its tree, if it has one, and the nodes that aliases stand for. -/
structure YamlDocument where
  root : Option YamlNode
  targets : List (Nat × YamlNode)
deriving Repr

namespace YamlDocument

def ofRoot (root : Option YamlNode) : YamlDocument :=
  ⟨root, match root with
    | some node => node.anchored.reverse
    | none => []⟩

def target? (document : YamlDocument) (number : Nat) : Option YamlNode :=
  document.targets.lookup number

def ofTokens (tokens : List YamlToken) : Except TextFault YamlDocument :=
  match YamlReading.start.takeAll tokens with
  | some reading =>
      match reading.top with
      | .document .done root => .ok (ofRoot root)
      | _ => .error .malformed
  | none => .error .malformed

end YamlDocument

end PipelineWaves
