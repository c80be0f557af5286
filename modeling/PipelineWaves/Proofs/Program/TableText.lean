import PipelineWaves.Program.Written
import PipelineWaves.Proofs.Program.Expression
import PipelineWaves.Proofs.Program.TableReader

/-!
# Written tables

The rows of the tables of a program and what is read from them. A written value
leads the reader from where a value may start to that value, inside any brackets.
Lists, pairs and structures are made of such values and fixed symbols, so what they
contain never matters for where they end.
-/

set_option autoImplicit false

namespace PipelineWaves

open TableReading ProgramText

namespace TableTerm

/-- The text is read as this value wherever a value may start. -/
def Shows (text : String) (term : TableTerm) : Prop :=
  ∀ frames, Leads text.toList ⟨.start, frames⟩ ⟨.term term, frames⟩

/-- The text is read as one more item of the list it stands in. -/
def IsRow (text : String) (term : TableTerm) : Prop :=
  ∀ earlier frames, Passes text.toList ⟨.start, .items earlier :: frames⟩
    ⟨.start, .items (earlier ++ [term]) :: frames⟩

def ofOption : Option String → TableTerm
  | none => .path ["None"]
  | some value => .call ["Some"] [.text value]

def ofPair (entry : String × String) : TableTerm := .tuple [.text entry.1, .text entry.2]

theorem passes_quoted {context value literal : String} {first second : TableReading}
    (quoted : quote context value = .ok literal)
    (steps : first.step (.lexeme (.literal value)) = some second) :
    Passes literal.toList first second := by
  rw [quote_ok quoted]
  apply passes_literal
  rwa [String.ofList_toList]

theorem shows_quoted {context value literal : String}
    (quoted : quote context value = .ok literal) : Shows literal (.text value) :=
  fun _ => (passes_quoted quoted rfl).leads

theorem shows_number (value : Nat) : Shows (toString value) (.number value) :=
  fun _ => leads_number rfl

theorem shows_option {context written : String} {value : Option String}
    (quoted : quoteOption context value = .ok written) : Shows written (ofOption value) := by
  intro frames
  cases value with
  | none =>
      cases quoted
      have word : isWord "None" = true := by decide
      exact leads_word word rfl
  | some value =>
      cases literalQuoted : quote context value with
      | error failure =>
          rw [quoteOption, literalQuoted] at quoted
          cases quoted
      | ok literal =>
          rw [quoteOption, literalQuoted] at quoted
          cases quoted
          have opens : Passes "Some(".toList ⟨.start, frames⟩
              ⟨.start, .arguments ["Some"] [] :: frames⟩ := fun _ => rfl
          have inside : Passes literal.toList ⟨.start, .arguments ["Some"] [] :: frames⟩
              ⟨.term (.text value), .arguments ["Some"] [] :: frames⟩ :=
            passes_quoted literalQuoted rfl
          have closes : Passes ")".toList
              ⟨.term (.text value), .arguments ["Some"] [] :: frames⟩
              ⟨.term (ofOption (some value)), frames⟩ := fun _ => rfl
          rw [String.toList_append, String.toList_append]
          exact ((opens.trans inside).trans closes).leads

theorem passes_items {texts : List String} {terms : List TableTerm}
    (each : List.Forall₂ Shows texts terms) (earlier : List TableTerm)
    (frames : List TableFrame) :
    Passes (", ".intercalate texts ++ "]").toList ⟨.start, .items earlier :: frames⟩
      ⟨.term (.list (earlier ++ terms)), frames⟩ := by
  induction each generalizing earlier with
  | nil =>
      rw [List.append_nil]
      exact fun _ => rfl
  | @cons text term texts terms shows later induction =>
      have item := shows (.items earlier :: frames)
      cases later with
      | nil =>
          have closes : Passes [']'] ⟨.term term, .items earlier :: frames⟩
              ⟨.term (.list (earlier ++ [term])), frames⟩ := fun _ => rfl
          have whole := item.trans (by decide) closes
          simpa using whole
      | @cons next nextTerm texts terms nextShows later =>
          have separates : Passes [',', ' '] ⟨.term term, .items earlier :: frames⟩
              ⟨.start, .items (earlier ++ [term]) :: frames⟩ := fun _ => rfl
          have whole := (item.trans (by decide) separates).trans (induction (earlier ++ [term]))
          rw [String.intercalate_cons_of_ne_nil (List.cons_ne_nil _ _)]
          simpa using whole

theorem shows_listed {texts : List String} {terms : List TableTerm}
    (each : List.Forall₂ Shows texts terms) : Shows (listed texts) (.list terms) := by
  intro frames
  have opens : Passes "&[".toList ⟨.start, frames⟩ ⟨.start, .items [] :: frames⟩ := fun _ => rfl
  have whole := opens.trans (passes_items each [] frames)
  rw [listed, String.append_assoc, String.toList_append]
  exact whole.leads

theorem shows_each {context : String} {values literals : List String}
    (quoted : quoteEach context values = .ok literals) :
    List.Forall₂ Shows literals (values.map .text) := by
  induction values generalizing literals with
  | nil =>
      cases quoted
      exact .nil
  | cons value rest induction =>
      obtain ⟨literal, own, quoted⟩ := except_bind_ok quoted
      obtain ⟨others, later, quoted⟩ := except_bind_ok quoted
      cases quoted
      exact .cons (shows_quoted own) (induction later)

theorem shows_pair {keyContext valueContext key value keyLiteral valueLiteral : String}
    (keyQuoted : quote keyContext key = .ok keyLiteral)
    (valueQuoted : quote valueContext value = .ok valueLiteral) :
    Shows s!"({keyLiteral}, {valueLiteral})" (ofPair (key, value)) := by
  intro frames
  have opens : Passes ['('] ⟨.start, frames⟩ ⟨.start, .group [] :: frames⟩ := fun _ => rfl
  have first : Passes keyLiteral.toList ⟨.start, .group [] :: frames⟩
      ⟨.term (.text key), .group [] :: frames⟩ := passes_quoted keyQuoted rfl
  have separates : Passes [',', ' '] ⟨.term (.text key), .group [] :: frames⟩
      ⟨.start, .group [.text key] :: frames⟩ := fun _ => rfl
  have second : Passes valueLiteral.toList ⟨.start, .group [.text key] :: frames⟩
      ⟨.term (.text value), .group [.text key] :: frames⟩ := passes_quoted valueQuoted rfl
  have closes : Passes [')'] ⟨.term (.text value), .group [.text key] :: frames⟩
      ⟨.term (ofPair (key, value)), frames⟩ := fun _ => rfl
  have whole := (((opens.trans first).trans separates).trans second).trans closes
  simpa [toString] using whole.leads

theorem shows_pairs {keyContext : String} {valueContext : String → String}
    {entries : List (String × String)} {pairs : List String}
    (quoted : quotePairs keyContext valueContext entries = .ok pairs) :
    List.Forall₂ Shows pairs (entries.map ofPair) := by
  induction entries generalizing pairs with
  | nil =>
      cases quoted
      exact .nil
  | cons entry rest induction =>
      obtain ⟨keyLiteral, keyQuoted, quoted⟩ := except_bind_ok quoted
      obtain ⟨valueLiteral, valueQuoted, quoted⟩ := except_bind_ok quoted
      obtain ⟨others, later, quoted⟩ := except_bind_ok quoted
      cases quoted
      exact .cons (shows_pair keyQuoted valueQuoted) (induction later)

/-- A field of a structure with the text that shows its value. -/
structure ShownField where
  name : String
  value : String
  term : TableTerm
  word : isWord name = true
  shows : Shows value term

namespace ShownField

def text (field : ShownField) : String := field.name ++ ": " ++ field.value

def entry (field : ShownField) : String × TableTerm := (field.name, field.term)

theorem leads (field : ShownField) (names : List String) (earlier : List (String × TableTerm))
    (frames : List TableFrame) :
    Leads field.text.toList ⟨.fields names earlier, frames⟩
      ⟨.term field.term, .field names earlier field.name :: frames⟩ := by
  have label : Leads field.name.toList ⟨.fields names earlier, frames⟩
      ⟨.named names earlier field.name, frames⟩ := leads_word field.word rfl
  have colon : Passes [':', ' '] ⟨.named names earlier field.name, frames⟩
      ⟨.start, .field names earlier field.name :: frames⟩ := fun _ => rfl
  have whole := (label.trans (by decide) colon).trans_leads (field.shows _)
  simpa [text] using whole

end ShownField

/-- How the fields of a structure are set apart: what stands between two of them and
what closes the structure. -/
structure FieldLayout where
  separator : String
  closing : String
  separates : ∀ names earlier name term frames, ∃ symbol more,
    separator.toList = symbol :: more ∧ ExpressionToken.continuesWord symbol = false ∧
      Passes (symbol :: more) ⟨.term term, .field names earlier name :: frames⟩
        ⟨.fields names (earlier ++ [(name, term)]), frames⟩
  closes : ∀ names earlier name term frames, ∃ symbol more,
    closing.toList = symbol :: more ∧ ExpressionToken.continuesWord symbol = false ∧
      Passes (symbol :: more) ⟨.term term, .field names earlier name :: frames⟩
        ⟨.term (.record names (earlier ++ [(name, term)])), frames⟩

namespace FieldLayout

def oneLine : FieldLayout where
  separator := ", "
  closing := " \x7d"
  separates _ _ _ _ _ := ⟨',', [' '], rfl, by decide, fun _ => rfl⟩
  closes _ _ _ _ _ := ⟨' ', ['\x7d'], rfl, by decide, fun _ => rfl⟩

def stacked : FieldLayout where
  separator := ",\n        "
  closing := ",\n    \x7d"
  separates _ _ _ _ _ := ⟨',', "\n        ".toList, rfl, by decide, fun _ => rfl⟩
  closes _ _ _ _ _ := ⟨',', "\n    \x7d".toList, rfl, by decide, fun _ => rfl⟩

def body (layout : FieldLayout) (first : ShownField) (rest : List ShownField) : String :=
  layout.separator.intercalate (first.text :: rest.map ShownField.text) ++ layout.closing

theorem passes_body (layout : FieldLayout) (names : List String) (first : ShownField)
    (rest : List ShownField) (earlier : List (String × TableTerm)) (frames : List TableFrame) :
    Passes (layout.body first rest).toList ⟨.fields names earlier, frames⟩
      ⟨.term (.record names (earlier ++ first.entry :: rest.map ShownField.entry)), frames⟩ := by
  have own := first.leads names earlier frames
  induction rest generalizing first earlier with
  | nil =>
      obtain ⟨symbol, more, split, stops, closes⟩ :=
        layout.closes names earlier first.name first.term frames
      have whole := own.trans stops closes
      rw [← split] at whole
      simpa [body, ShownField.entry] using whole
  | cons next rest induction =>
      obtain ⟨symbol, more, split, stops, separates⟩ :=
        layout.separates names earlier first.name first.term frames
      have later := induction next (earlier ++ [first.entry]) (next.leads names _ frames)
      have whole := (own.trans stops separates).trans later
      rw [← split] at whole
      rw [body, List.map_cons, String.intercalate_cons_of_ne_nil (List.cons_ne_nil _ _)]
      simpa [body] using whole

end FieldLayout

theorem shows_braced {name fieldsText : String} {names : List String}
    (opens : ∀ frames, Passes (name ++ " \x7b ").toList ⟨.start, frames⟩ ⟨.fields names [], frames⟩)
    (first : ShownField) (rest : List ShownField)
    (joined : fieldsText = ", ".intercalate (first.text :: rest.map ShownField.text)) :
    Shows (braced name fieldsText) (.record names (first.entry :: rest.map ShownField.entry)) := by
  intro frames
  have whole := (opens frames).trans (FieldLayout.oneLine.passes_body names first rest [] frames)
  have text : braced name fieldsText = name ++ " \x7b " ++ FieldLayout.oneLine.body first rest := by
    rw [braced, joined, String.append_assoc]
    rfl
  rw [text, String.toList_append]
  exact whole.leads

theorem passes_rows {texts : List String} {terms : List TableTerm}
    (each : List.Forall₂ IsRow texts terms) (earlier : List TableTerm)
    (frames : List TableFrame) :
    Passes ("\n".intercalate texts).toList ⟨.start, .items earlier :: frames⟩
      ⟨.start, .items (earlier ++ terms) :: frames⟩ := by
  induction each generalizing earlier with
  | nil =>
      rw [List.append_nil]
      exact Passes.refl _
  | @cons text term texts terms row later induction =>
      have own := row earlier frames
      cases later with
      | nil => simpa using own
      | @cons next nextTerm texts terms nextRow later =>
          have lineEnd : Passes ['\n'] ⟨.start, .items (earlier ++ [term]) :: frames⟩
              ⟨.start, .items (earlier ++ [term]) :: frames⟩ := fun _ => rfl
          have whole := (own.trans lineEnd).trans (induction (earlier ++ [term]))
          rw [String.intercalate_cons_of_ne_nil (List.cons_ne_nil _ _)]
          simpa using whole

/-- A table of rows is one list, and reading it stops behind its semicolon. -/
theorem read_rows {texts : List String} {terms : List TableTerm}
    (each : List.Forall₂ IsRow texts terms) (rest : List Char) :
    TableTerm.read (("&[\n" ++ "\n".intercalate texts ++ "\n];").toList ++ rest) =
      some (.list terms, rest) := by
  have opens : Passes "&[\n".toList ⟨.start, []⟩ ⟨.start, [.items []]⟩ := fun _ => rfl
  have inside := opens.trans (passes_rows each [] [])
  have closes : Passes "\n]".toList ⟨.start, [.items terms]⟩ ⟨.term (.list terms), []⟩ :=
    fun _ => rfl
  have whole := (inside.trans closes) (';' :: rest)
  have ending : readFrom 0 ⟨.term (.list terms), []⟩ (';' :: rest) = some (.list terms, rest) := rfl
  rw [ending] at whole
  simpa [TableTerm.read] using whole

end TableTerm

end PipelineWaves
