import PipelineWaves.Json.Source
import PipelineWaves.Pipeline.Written
import PipelineWaves.Proofs.Attempt
import PipelineWaves.Proofs.Json.Document
import PipelineWaves.Proofs.Layering

/-!
# Reading records

A JSON document and the content taken from it answer what readers ask of a source in the same
way: each is read as the JSON value that it was made of. Texts, optional texts, lists and
dictionaries are therefore read back from either as they were written, and a record is read by
taking in its fields one after the other.
-/

set_option autoImplicit false

namespace PipelineWaves

namespace FieldKey

/-- The key of a field that is given by its name. -/
def named (name : String) : FieldKey := ⟨fun _ => .ok name, .ok (.text name), none⟩

end FieldKey

namespace Readable

variable {Source : Type}

/-- The fields of a JSON object as a source gives them. -/
def shownFields (source : Json → Source) (fields : List (String × Json)) :
    List (FieldKey × Source) :=
  fields.map fun field => (.named field.1, source field.2)

@[simp]
theorem shown_fields_nil (source : Json → Source) : shownFields source [] = [] := rfl

@[simp]
theorem shown_fields_cons (source : Json → Source) (name : String) (value : Json)
    (fields : List (String × Json)) :
    shownFields source ((name, value) :: fields) =
      (.named name, source value) :: shownFields source fields := rfl

variable [Readable Source]

/-- Sources made of JSON values are read as the values that they were made of. -/
structure Shows (source : Json → Source) : Prop where
  text : ∀ value expected, Readable.text (source (.text value)) expected = .ok value
  present_null : present (source .null) = .ok none
  present_text : ∀ value, present (source (.text value)) = .ok (some (source (.text value)))
  items : ∀ items expected, ∃ finish, finish items.length = .ok () ∧
    Readable.items (source (.list items)) expected = .ok ⟨items.map source, finish⟩
  fields : ∀ fields expected,
    Readable.fields (source (.object fields)) expected = .ok ⟨shownFields source fields, .ok ()⟩
  layout : ∀ fields expected, Readable.layout (source (.object fields)) expected =
    .ok (.names ⟨shownFields source fields, .ok ()⟩)
  any_layout : ∀ fields expected, Readable.anyLayout (source (.object fields)) expected =
    .ok (.names ⟨shownFields source fields, .ok ()⟩)
  content : ∀ value, Readable.content (source value) = .ok (Content.ofJson value)

end Readable

namespace JsonDocument

theorem of_items_eq_map (items : List Json) : ofItems items = items.map ofValue := by
  induction items with
  | nil => rfl
  | cons item rest induction => rw [ofItems, induction, List.map_cons]

theorem of_fields_eq_map (fields : List (String × Json)) :
    ofFields fields = fields.map fun field => (.ok field.1, ofValue field.2) := by
  induction fields with
  | nil => rfl
  | cons field rest induction => rw [ofFields, induction, List.map_cons]

theorem fields_of_written (fields : List (String × Json)) :
    fieldsOf (ofFields fields) none = ⟨Readable.shownFields ofValue fields, .ok ()⟩ := by
  rw [fieldsOf, of_fields_eq_map, List.map_map]
  rfl

/-- Documents of values are read as these values. -/
theorem shows : Readable.Shows ofValue where
  text _ _ := rfl
  present_null := rfl
  present_text _ := rfl
  items items expected := by
    refine ⟨(itemsOf (ofItems items) none).finish, ?_, ?_⟩
    · rw [of_items_eq_map]
      exact if_neg (by simp)
    · rw [← of_items_eq_map]
      rfl
  fields fields _ := congrArg Except.ok (fields_of_written fields)
  layout fields _ := congrArg (Except.ok ∘ Layout.names) (fields_of_written fields)
  any_layout fields _ := congrArg (Except.ok ∘ Layout.names) (fields_of_written fields)
  content value := by
    change ofFault ((ofValue value).value.map Content.ofJson) = _
    rw [value_of_value]
    rfl

/-- What is read from the document of a value is read from its text. -/
theorem read_all_written {depth : Nat} {value : Json} (plain : value.Plain depth)
    (shallow : depth < depthLimit) {text : String}
    (written : text = value.compact ∨ text = value.pretty) {Result : Type}
    {read : JsonDocument → Except ReadError Result} {result : Result}
    (reads : read (ofValue value) = .ok result) : readAll read text = .ok result := by
  rw [readAll, read_written plain shallow written]
  simp only [bind, Except.bind, reads]
  rfl

theorem json_of_value (value : Json) : Readable.json (ofValue value) = .ok value := by
  change ofFault (ofValue value).value = _
  rw [value_of_value]
  rfl

end JsonDocument

namespace Content

theorem items_of_json_eq_map (items : List Json) : itemsOfJson items = items.map ofJson := by
  induction items with
  | nil => rfl
  | cons item rest induction => rw [itemsOfJson, induction, List.map_cons]

theorem fields_of_json_eq_map (fields : List (String × Json)) :
    fieldsOfJson fields = fields.map fun field => (.text field.1, ofJson field.2) := by
  induction fields with
  | nil => rfl
  | cons field rest induction => rw [fieldsOfJson, induction, List.map_cons]

theorem fields_of_written (fields : List (String × Json)) :
    fieldsOf (fieldsOfJson fields) = ⟨Readable.shownFields ofJson fields, .ok ()⟩ := by
  rw [fieldsOf, fields_of_json_eq_map, List.map_map]
  rfl

/-- Content made of JSON values is read as these values. -/
theorem shows : Readable.Shows ofJson where
  text _ _ := rfl
  present_null := rfl
  present_text _ := rfl
  items items expected := by
    refine ⟨(itemsOf (itemsOfJson items)).finish, ?_, ?_⟩
    · rw [items_of_json_eq_map]
      exact if_neg (by simp)
    · rw [← items_of_json_eq_map]
      rfl
  fields fields _ := congrArg Except.ok (fields_of_written fields)
  layout fields _ := congrArg (Except.ok ∘ Layout.names) (fields_of_written fields)
  any_layout fields _ := congrArg (Except.ok ∘ Layout.names) (fields_of_written fields)
  content _ := rfl

end Content

namespace Readable.Shows

variable {Source : Type} [Readable Source] {source : Json → Source} (shows : Shows source)
include shows

theorem string (value : String) : Readable.string (source (.text value)) = .ok value :=
  shows.text value _

theorem option (value : Option String) :
    Readable.option Readable.string (source (.ofOption value)) = .ok value := by
  cases value with
  | none => rw [Json.ofOption, Readable.option, shows.present_null]; rfl
  | some value =>
      rw [Json.ofOption, Readable.option, shows.present_text]
      change (Readable.string _).map some = _
      rw [shows.string]
      rfl

theorem list_of {Item Value : Type} {read : Source → Except ReadError Value} {write : Item → Json}
    {value : Item → Value} {items : List Item}
    (reads : ∀ item ∈ items, read (source (write item)) = .ok (value item)) :
    listOf read (source (.list (items.map write))) = .ok (items.map value) := by
  have each : readEach read ((items.map write).map source) = .ok (items.map value) := by
    induction items with
    | nil => rfl
    | cons item rest induction =>
        obtain ⟨first, others⟩ := List.forall_mem_cons.1 reads
        rw [List.map_cons, List.map_cons, readEach, first, induction others]
        rfl
  obtain ⟨finish, finished, found⟩ := shows.items (items.map write) "a sequence"
  rw [List.length_map] at finished
  rw [listOf, found]
  simp only [bind, Except.bind, each, List.length_map, finished]
  rfl

theorem texts (values : List String) :
    listOf Readable.string (source (.list (values.map .text))) = .ok values := by
  have read := shows.list_of fun value (_ : value ∈ values) => shows.string value
  rwa [List.map_id'] at read

theorem fields_of {Item Value : Type} {read : Source → Except ReadError Value}
    {write : Item → Json} {value : Item → Value}
    (reads : ∀ item, read (source (write item)) = .ok (value item))
    (entries : List (String × Item)) :
    fieldsOf read (source (.object (entries.map fun entry => (entry.1, write entry.2)))) =
      .ok (entries.map (Prod.map id value)) := by
  have each : readEachField read
      (shownFields source (entries.map fun entry => (entry.1, write entry.2))) =
        .ok (entries.map (Prod.map id value)) := by
    induction entries with
    | nil => rfl
    | cons entry rest induction =>
        rw [shownFields] at induction
        rw [List.map_cons, shownFields, List.map_cons, readEachField, reads, induction]
        rfl
  rw [fieldsOf, shows.fields]
  simp only [bind, Except.bind, each]
  rfl

theorem dictionary (dictionary : Dictionary String) :
    Readable.dictionary (source dictionary.toJson) = .ok dictionary := by
  have read : fieldsOf Readable.string (source dictionary.toJson) =
      .ok (dictionary.entries.map id) :=
    shows.fields_of shows.string dictionary.entries
  rw [List.map_id] at read
  rw [Readable.dictionary, read]
  exact congrArg Except.ok dictionary.ofList_entries

end Readable.Shows

section Records

variable {Source Draft Result : Type} [Readable Source] {source : Json → Source}
  {schema : Schema Source Draft Result} {fields : List (String × Json)} {result : Result}

/-- A field that is given by its name is taken in when the name is known and new. -/
@[simp]
theorem Schema.read_names_named (name : String) (draft : Draft) (seen : List String)
    (value : Source) (rest : List (FieldKey × Source)) :
    schema.readNames draft seen ((.named name, value) :: rest) =
      match schema.field? name with
      | some field =>
          if seen.contains field.name then .error (.of (.duplicateField field.name))
          else do
            let draft ← schema.assign draft field.name value
            schema.readNames draft (field.name :: seen) rest
      | none =>
          if schema.skipsUnknown then do
            Readable.skip value
            schema.readNames draft seen rest
          else .error (.of (.unknownField name schema.names)) := rfl

@[simp]
theorem Schema.read_names_nil (draft : Draft) (seen : List String) :
    schema.readNames draft seen [] = .ok draft := rfl

/-- The fields are all taken in, and their draft makes the result. -/
def Schema.Takes (schema : Schema Source Draft Result) (fields : List (FieldKey × Source))
    (result : Result) : Prop :=
  ∃ draft, schema.readNames schema.start [] fields = .ok draft ∧ schema.build draft = .ok result

theorem Schema.of_layout_names {given : List (FieldKey × Source)} (takes : schema.Takes given result) :
    schema.ofLayout (.names ⟨given, .ok ()⟩) = .ok result := by
  obtain ⟨draft, taken, built⟩ := takes
  rw [ofLayout, taken]
  change schema.built draft = _
  rw [Schema.built, built]

namespace Readable.Shows

variable (shows : Shows source)
include shows

theorem read_record (takes : schema.Takes (shownFields source fields) result) :
    schema.read (source (.object fields)) = .ok result := by
  rw [Schema.read, shows.layout]
  exact congrArg (within (source (.object fields))) (Schema.of_layout_names takes)

theorem read_any_record (takes : schema.Takes (shownFields source fields) result) :
    schema.readAny (source (.object fields)) = .ok result := by
  rw [Schema.readAny, shows.any_layout]
  exact congrArg (within (source (.object fields))) (Schema.of_layout_names takes)

end Readable.Shows

end Records

end PipelineWaves
