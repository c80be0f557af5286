import PipelineWaves.Json.Document
import PipelineWaves.Proofs.Json.Scanning

/-!
# Documents of written JSON

Reading the text of a value gives the document of that value, with nothing broken in it and
nothing after it, as long as its lists and objects are not nested too deep to be taken. The
whole content of that document is the value again.
-/

set_option autoImplicit false

namespace PipelineWaves.JsonDocument

def Progress.go (rest : List JsonToken) : Progress → Reading
  | .more frames expected => build frames expected rest
  | .whole document => ⟨document, if rest.isEmpty then none else some .malformed⟩
  | .stopped document => ⟨document, none⟩

theorem build_cons (frames : List Frame) (expected : Expected) (token : JsonToken)
    (rest : List JsonToken) :
    build frames expected (token :: rest) = (Progress.step frames expected token).go rest := by
  rw [build]
  cases Progress.step frames expected token <;> rfl

inductive Expected.TakesValue : Expected → Prop where
  | value : TakesValue .value
  | firstItem : TakesValue .firstItem
  | nextItem : TakesValue .nextItem

inductive Expected.TakesKey : Expected → Prop where
  | firstKey : TakesKey .firstKey
  | nextKey : TakesKey .nextKey

/-- Wherever the value may stand, its tokens complete its document. -/
def Builds (depth : Nat) (value : Json) : Prop :=
  ∀ {frames : List Frame} {expected : Expected} (rest : List JsonToken), expected.TakesValue →
    frames.length + depth < depthLimit →
    build frames expected (JsonToken.ofValue value ++ rest) =
      (Progress.complete (ofValue value) frames).go rest

theorem build_scalar {frames : List Frame} {expected : Expected} (takes : expected.TakesValue)
    {token : JsonToken} {document : JsonDocument} (scalar : scalar? token = some document)
    (rest : List JsonToken) :
    build frames expected (token :: rest) = (Progress.complete document frames).go rest := by
  rw [build_cons]
  cases token <;> cases scalar <;> cases takes <;> rfl

/-- A frame that is not too deep closes as it is. -/
theorem close_frame {frame : Frame} {outer : List Frame} (shallow : outer.length + 1 < depthLimit) :
    Progress.close (frame :: outer) = Progress.complete (frame.finish none) outer := by
  rw [Progress.close, finishFrame, if_neg (Nat.not_le.2 shallow)]

theorem build_closed {frame : Frame} {outer : List Frame} {token : JsonToken}
    (shallow : outer.length + 1 < depthLimit) (closes : frame.closes token = true)
    (rest : List JsonToken) :
    build (frame :: outer) .separator (token :: rest) =
      (Progress.complete (frame.finish none) outer).go rest := by
  have ends : Progress.step (frame :: outer) .separator token = Progress.close (frame :: outer) :=
    if_pos closes
  rw [build_cons, ends, close_frame shallow]

section Nested

variable {depth : Nat} {outer : List Frame} {expected : Expected} {rest : List JsonToken}

theorem build_items (shallow : outer.length + 1 + depth < depthLimit) {items : List Json}
    (each : ∀ item ∈ items, Builds depth item) (notEmpty : items ≠ [])
    (takes : expected.TakesValue) (done : List JsonDocument) :
    build (.list done :: outer) expected (JsonToken.ofItems items ++ .closeList :: rest) =
      (Progress.complete (.list (done.reverse ++ ofItems items) none) outer).go rest := by
  induction items generalizing expected done with
  | nil => exact absurd rfl notEmpty
  | cons item items induction =>
      obtain ⟨first, others⟩ := List.forall_mem_cons.1 each
      have bounded : (Frame.list done :: outer).length + depth < depthLimit := shallow
      cases items with
      | nil =>
          have closed : build (.list (ofValue item :: done) :: outer) .separator
              (.closeList :: rest) = _ := build_closed (by omega) rfl rest
          rw [JsonToken.ofItems, first _ takes bounded, ofItems, ofItems]
          rw [Frame.finish, List.reverse_cons] at closed
          exact closed
      | cons next more =>
          have continued := induction others (List.cons_ne_nil _ _) .nextItem (ofValue item :: done)
          rw [JsonToken.ofItems, List.append_assoc, first _ takes bounded, ofItems]
          · rw [List.reverse_cons, List.append_assoc] at continued
            exact continued
          · exact List.cons_ne_nil _ _

theorem build_fields (shallow : outer.length + 1 + depth < depthLimit)
    {fields : List (String × Json)} (each : ∀ field ∈ fields, Builds depth field.2)
    (notEmpty : fields ≠ []) (takes : expected.TakesKey)
    (done : List (Except TextFault String × JsonDocument)) :
    build (.object done none :: outer) expected (JsonToken.ofFields fields ++ .closeObject :: rest) =
      (Progress.complete (.object (done.reverse ++ ofFields fields) none) outer).go rest := by
  induction fields generalizing expected done with
  | nil => exact absurd rfl notEmpty
  | cons field fields induction =>
      obtain ⟨name, value⟩ := field
      obtain ⟨first, others⟩ := List.forall_mem_cons.1 each
      have bounded : (Frame.object done (some (.ok name)) :: outer).length + depth < depthLimit :=
        shallow
      have named : ∀ tokens, build (.object done none :: outer) expected
          (.text (.ok name) :: .colon :: tokens) =
            build (.object done (some (.ok name)) :: outer) .value tokens := by
        intro tokens
        cases takes <;> rfl
      cases fields with
      | nil =>
          have closed : build (.object ((.ok name, ofValue value) :: done) none :: outer) .separator
              (.closeObject :: rest) = _ := build_closed (by omega) rfl rest
          rw [JsonToken.ofFields, List.cons_append, List.cons_append, named,
            first _ .value bounded, ofFields, ofFields]
          rw [Frame.finish, List.reverse_cons] at closed
          exact closed
      | cons next more =>
          have continued := induction others (List.cons_ne_nil _ _) .nextKey
            ((.ok name, ofValue value) :: done)
          rw [JsonToken.ofFields, List.cons_append, List.cons_append, named, List.append_assoc,
            first _ .value bounded, ofFields]
          · rw [List.reverse_cons, List.append_assoc] at continued
            exact continued
          · exact List.cons_ne_nil _ _

end Nested

/-- The tokens of a value that is not nested too deep complete its document. -/
theorem builds_of_plain {depth : Nat} {value : Json} (plain : value.Plain depth) :
    Builds depth value := by
  induction plain with
  | null => exact fun rest takes _ => build_scalar takes rfl rest
  | boolean value => exact fun rest takes _ => build_scalar takes rfl rest
  | text value => exact fun rest takes _ => build_scalar takes rfl rest
  | @list depth items _ induction =>
      -- The items lie in one frame more, and are nested one level less.
      intro frames expected rest takes bounded
      have opened : ∀ tokens, build frames expected (.openList :: tokens) =
          build (.list [] :: frames) .firstItem tokens := by
        intro tokens
        cases takes <;> rfl
      rw [JsonToken.ofValue, List.cons_append, opened, List.append_assoc]
      cases items with
      | nil =>
          rw [JsonToken.ofItems, List.nil_append, List.singleton_append, build_cons,
            Progress.step, Progress.firstItem, close_frame (by omega)]
          rfl
      | cons item items =>
          exact build_items (by omega) induction (List.cons_ne_nil _ _) .firstItem []
  | @object depth fields _ induction =>
      intro frames expected rest takes bounded
      have opened : ∀ tokens, build frames expected (.openObject :: tokens) =
          build (.object [] none :: frames) .firstKey tokens := by
        intro tokens
        cases takes <;> rfl
      rw [JsonToken.ofValue, List.cons_append, opened, List.append_assoc]
      cases fields with
      | nil =>
          rw [JsonToken.ofFields, List.nil_append, List.singleton_append, build_cons,
            Progress.step, Progress.firstKey, close_frame (by omega)]
          rfl
      | cons field fields =>
          exact build_fields (by omega) induction (List.cons_ne_nil _ _) .firstKey []

/-- The text of a value, written in either way, is read as the document of that value. -/
theorem read_written {depth : Nat} {value : Json} (plain : value.Plain depth)
    (shallow : depth < depthLimit) {text : String}
    (written : text = value.compact ∨ text = value.pretty) :
    read text = ⟨ofValue value, none⟩ := by
  have bounded : ([] : List Frame).length + depth < depthLimit := by
    rwa [List.length_nil, Nat.zero_add]
  have built := builds_of_plain plain [] .value bounded
  rw [List.append_nil] at built
  rw [read, JsonToken.scan_all_written plain written, built]
  rfl

mutual

theorem value_of_value : ∀ content : Json, value (ofValue content) = .ok content
  | .null => rfl
  | .boolean _ => rfl
  | .number _ => rfl
  | .text _ => rfl
  | .list items => by rw [ofValue, value, item_values_of_items items]; rfl
  | .object fields => by rw [ofValue, value, field_values_of_fields fields]; rfl

theorem item_values_of_items : ∀ items : List Json, itemValues (ofItems items) = .ok items
  | [] => rfl
  | item :: rest => by
      rw [ofItems, itemValues, value_of_value item, item_values_of_items rest]
      rfl

theorem field_values_of_fields :
    ∀ fields : List (String × Json), fieldValues (ofFields fields) = .ok fields
  | [] => rfl
  | (name, content) :: rest => by
      rw [ofFields, fieldValues, value_of_value content, field_values_of_fields rest]
      rfl

end

end PipelineWaves.JsonDocument
