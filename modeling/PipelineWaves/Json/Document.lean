import PipelineWaves.Json.Token

/-!
# JSON documents

A document is the part of a JSON text that can be read: a tree in which the
place where reading stops is marked by a fault. Whoever walks a document from
left to right therefore meets a misfit of its content and a fault of its text in
the order in which they stand, and the first of the two decides.

`value` takes the whole content of a document, `skip` only makes sure that it is
well formed. Lists and objects nested more than 127 deep can be skipped but not
taken. What stands where the name of a field has to stand is kept as `misplaced`,
for whoever reads that name as something else.
-/

set_option autoImplicit false

namespace PipelineWaves

inductive JsonDocument where
  | broken (fault : TextFault)
  | null
  | boolean (value : Bool)
  | number (value : Except TextFault JsonNumber)
  | text (value : Except TextFault String)
  | list (items : List JsonDocument) (ending : Option TextFault)
  | object (fields : List (Except TextFault String × JsonDocument)) (ending : Option TextFault)
  | tooDeep (inner : JsonDocument)
  | misplaced (inner : JsonDocument)

namespace JsonDocument

/-- A list or object whose end has not been reached; the latest entry stands first. -/
inductive Frame where
  | list (items : List JsonDocument)
  | object (fields : List (Except TextFault String × JsonDocument))
      (key : Option (Except TextFault String))

inductive Expected where
  | value
  | firstItem
  | nextItem
  | firstKey
  | nextKey
  | colon
  | separator

def depthLimit : Nat := 128

namespace Frame

/-- Adds an element; an object takes it as the value of its pending key. -/
def add (element : JsonDocument) : Frame → Frame
  | list items => .list (element :: items)
  | object fields none => .object fields none
  | object fields (some key) => .object ((key, element) :: fields) none

def withKey (key : Except TextFault String) : Frame → Frame
  | list items => .list items
  | object fields _ => .object fields (some key)

def finish (ending : Option TextFault) : Frame → JsonDocument
  | list items => .list items.reverse ending
  | object fields _ => .object fields.reverse ending

def closes (token : JsonToken) : Frame → Bool
  | list _ => (token matches .closeList)
  | object _ _ => (token matches .closeObject)

end Frame

/-- The finished innermost frame of `frames`, marked when it lies too deep. -/
def finishFrame (frame : Frame) (outer : List Frame) (ending : Option TextFault) : JsonDocument :=
  let document := frame.finish ending
  if depthLimit ≤ outer.length + 1 then .tooDeep document else document

/-- Closes all frames at a fault, with the last element read if there is one. -/
def cut (fault : TextFault) : List Frame → Option JsonDocument → JsonDocument
  | [], some element => element
  | [], none => .broken fault
  | frame :: outer, element =>
      let frame :=
        match element with
        | some element => frame.add element
        | none => frame
      cut fault outer (some (finishFrame frame outer (some fault)))

/-- A document and the fault of what follows it, if anything follows. -/
structure Reading where
  document : JsonDocument
  trailing : Option TextFault

def scalar? : JsonToken → Option JsonDocument
  | .null => some .null
  | .boolean value => some (.boolean value)
  | .number value => some (.number value)
  | .text value => some (.text value)
  | _ => none

inductive Progress where
  | more (frames : List Frame) (expected : Expected)
  | whole (document : JsonDocument)
  | stopped (document : JsonDocument)

namespace Progress

def stop (fault : TextFault) (frames : List Frame) (element : Option JsonDocument) : Progress :=
  .stopped (cut fault frames element)

def complete (document : JsonDocument) : List Frame → Progress
  | [] => .whole document
  | frame :: outer => .more (frame.add document :: outer) .separator

def close : List Frame → Progress
  | [] => stop .malformed [] none
  | frame :: outer => complete (finishFrame frame outer none) outer

/-- A token where a value has to start. -/
def value (frames : List Frame) : JsonToken → Progress
  | .openList => .more (.list [] :: frames) .firstItem
  | .openObject => .more (.object [] none :: frames) .firstKey
  | .broken _ fault => stop fault frames (some (.broken fault))
  | token =>
      match scalar? token with
      | some document => complete document frames
      | none => stop .malformed frames (some (.broken .malformed))

def opening : JsonToken → JsonDocument
  | .openList => .list [] (some .malformed)
  | .openObject => .object [] (some .malformed)
  | .broken _ fault => .broken fault
  | token => (scalar? token).getD (.broken .malformed)

/-- A token where the name of a field has to start. -/
def key (frames : List Frame) (token : JsonToken) : Progress :=
  match token, frames with
  | .text name, frame :: outer => .more (frame.withKey name :: outer) .colon
  | .broken true fault, frame :: outer =>
      stop fault (frame.withKey (.error fault) :: outer) (some (.broken fault))
  | token, frame :: outer =>
      stop .malformed (frame.withKey (.error .malformed) :: outer)
        (some (.misplaced (opening token)))
  | _, [] => stop .malformed [] none

/-- A token after an element of the innermost frame. -/
def separator (frames : List Frame) (token : JsonToken) : Progress :=
  match frames with
  | [] => stop .malformed frames none
  | frame :: _ =>
      if frame.closes token then close frames
      else
        match token, frame with
        | .comma, .list _ => .more frames .nextItem
        | .comma, .object _ _ => .more frames .nextKey
        | _, _ => stop .malformed frames none

def colon (frames : List Frame) : JsonToken → Progress
  | .colon => .more frames .value
  | _ => stop .malformed frames (some (.broken .malformed))

def firstItem (frames : List Frame) : JsonToken → Progress
  | .closeList => close frames
  | token => value frames token

def nextItem (frames : List Frame) : JsonToken → Progress
  | .closeList => stop .malformed frames none
  | token => value frames token

def firstKey (frames : List Frame) : JsonToken → Progress
  | .closeObject => close frames
  | token => key frames token

def step (frames : List Frame) (expected : Expected) (token : JsonToken) : Progress :=
  match expected with
  | .value => value frames token
  | .firstItem => firstItem frames token
  | .nextItem => nextItem frames token
  | .firstKey => firstKey frames token
  | .nextKey => key frames token
  | .colon => colon frames token
  | .separator => separator frames token

/-- The text ends while something is expected. After a comma an entry was begun. -/
def atEnd (frames : List Frame) : Expected → JsonDocument
  | .value | .colon | .nextItem => cut .unfinished frames (some (.broken .unfinished))
  | .nextKey =>
      match frames with
      | frame :: outer =>
          cut .unfinished (frame.withKey (.error .unfinished) :: outer)
            (some (.broken .unfinished))
      | [] => .broken .unfinished
  | _ => cut .unfinished frames none

end Progress

/-- Reads on with `frames` open. -/
def build (frames : List Frame) (expected : Expected) : List JsonToken → Reading
  | [] => ⟨Progress.atEnd frames expected, none⟩
  | token :: rest =>
      match Progress.step frames expected token with
      | .more frames expected => build frames expected rest
      | .whole document => ⟨document, if rest.isEmpty then none else some .malformed⟩
      | .stopped document => ⟨document, none⟩

def read (source : String) : Reading :=
  build [] .value (JsonToken.scanAll source)

def ended (ending : Option TextFault) : Except TextFault Unit :=
  match ending with
  | some fault => .error fault
  | none => .ok ()

mutual

def value : JsonDocument → Except TextFault Json
  | .broken fault => .error fault
  | .null => .ok .null
  | .boolean value => .ok (.boolean value)
  | .number value => value.map .number
  | .text value => value.map .text
  | .list items ending => do
      let items ← itemValues items
      ended ending
      .ok (.list items)
  | .object fields ending => do
      let fields ← fieldValues fields
      ended ending
      .ok (.object fields)
  | .tooDeep _ => .error .malformed
  | .misplaced _ => .error .malformed

def itemValues : List JsonDocument → Except TextFault (List Json)
  | [] => .ok []
  | item :: rest => do
      let item ← value item
      let rest ← itemValues rest
      .ok (item :: rest)

def fieldValues :
    List (Except TextFault String × JsonDocument) → Except TextFault (List (String × Json))
  | [] => .ok []
  | (name, document) :: rest => do
      let name ← name
      let content ← value document
      let rest ← fieldValues rest
      .ok ((name, content) :: rest)

end

mutual

def skip : JsonDocument → Except TextFault Unit
  | .broken fault => .error fault
  | .list items ending => do
      skipItems items
      ended ending
  | .object fields ending => do
      skipFields fields
      ended ending
  | .tooDeep inner => skip inner
  | .misplaced _ => .error .malformed
  | _ => .ok ()

def skipItems : List JsonDocument → Except TextFault Unit
  | [] => .ok ()
  | item :: rest => do
      skip item
      skipItems rest

def skipFields : List (Except TextFault String × JsonDocument) → Except TextFault Unit
  | [] => .ok ()
  | (_, document) :: rest => do
      skip document
      skipFields rest

end

mutual

/-- The document of a value: nothing in it is broken. -/
def ofValue : Json → JsonDocument
  | .null => .null
  | .boolean value => .boolean value
  | .number value => .number (.ok value)
  | .text value => .text (.ok value)
  | .list items => .list (ofItems items) none
  | .object fields => .object (ofFields fields) none

def ofItems : List Json → List JsonDocument
  | [] => []
  | item :: rest => ofValue item :: ofItems rest

def ofFields : List (String × Json) → List (Except TextFault String × JsonDocument)
  | [] => []
  | (name, value) :: rest => (.ok name, ofValue value) :: ofFields rest

end

end JsonDocument

namespace Json

def parse (source : String) : Except TextFault Json := do
  let reading := JsonDocument.read source
  let value ← reading.document.value
  JsonDocument.ended reading.trailing
  .ok value

end Json

end PipelineWaves
