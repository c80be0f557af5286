import Mathlib
import PipelineWaves.Json.Token

/-!
# Scanning written JSON

Cutting the text of a JSON value into tokens gives back the tokens that the value is made of,
whatever its texts hold and whether it is written on one line or with one item per line. The
facts about scanning say what is read off the front of a text, however the text goes on. A
number is left out: what follows one may still belong to it.
-/

set_option autoImplicit false

namespace PipelineWaves

namespace JsonToken

/-- A piece of a text that stands for one character, which is no half of a surrogate pair. -/
inductive Piece.IsOf (character : Char) : Piece → Prop where
  | itself : IsOf character (.character character)
  | control (below : character.toNat < 0x20) : IsOf character (.unit character.toNat)

theorem join_pieces_cons {character : Char} {piece : Piece} (isOf : piece.IsOf character)
    (pieces : List Piece) :
    joinPieces none (piece :: pieces) = (joinPieces none pieces).map (character :: ·) := by
  cases isOf with
  | itself => rw [joinPieces]
  | control below =>
      have notHigh : isHighUnit character.toNat = false := by
        rw [isHighUnit, Bool.and_eq_false_iff]
        exact Or.inl (decide_eq_false (by omega))
      have notLow : isLowUnit character.toNat = false := by
        rw [isLowUnit, Bool.and_eq_false_iff]
        exact Or.inl (decide_eq_false (by omega))
      -- The next piece decides which rule applies, but none joins it to a control character.
      cases pieces with
      | nil => simp [joinPieces, notHigh, notLow, Except.map]
      | cons next rest =>
          cases next with
          | character value =>
              simp only [joinPieces, notHigh, notLow, Bool.or_self, Bool.false_eq_true, if_false,
                Char.ofNat_toNat]
              cases joinPieces none rest <;> rfl
          | unit value => simp [joinPieces, notHigh, notLow]

theorem join_pieces_of {characters : List Char} {pieces : List Piece}
    (are : List.Forall₂ Piece.IsOf characters pieces) :
    joinPieces none pieces = .ok characters := by
  induction are with
  | nil => rfl
  | cons isOf _ induction => rw [join_pieces_cons isOf, induction, Except.map]

theorem hex_unit_append {digits : List Char} (four : digits.length = 4) (rest : List Char) :
    hexUnit (digits ++ rest) = hexUnit digits := by
  match digits, four with
  | [_, _, _, _], _ => rfl

theorem hex_unit_control : ∀ value < 0x20,
    (Json.hexDigits value 4).length = 4 ∧
      hexUnit (Json.hexDigits value 4) = .ok value := by
  decide

theorem scan_text_escape {escape value : Char} (notUnit : escape ≠ 'u')
    (names : escapeValue escape = some value) (rest : List Char) :
    scanText ('\\' :: escape :: rest) = (scanText rest).withPiece (.character value) := by
  rw [scanText]
  · simp only [names]
  · exact notUnit

/-- A character is written as a named escape, as a unit in hexadecimal digits, or as it is. -/
theorem escape_character_cases (character : Char) :
    (∃ escape, escape ≠ 'u' ∧ escapeValue escape = some character ∧
      Json.escapeCharacter character = ['\\', escape]) ∨
    (character.toNat < 0x20 ∧ Json.escapeCharacter character =
      '\\' :: 'u' :: Json.hexDigits character.toNat 4) ∨
    (character ≠ '"' ∧ character ≠ '\\' ∧ ¬ character.toNat < 0x20 ∧
      Json.escapeCharacter character = [character]) := by
  unfold Json.escapeCharacter
  split
  case isTrue quote => exact Or.inl ⟨'"', by decide, by rw [quote]; rfl, rfl⟩
  case isFalse notQuote =>
  split
  case isTrue backslash => exact Or.inl ⟨'\\', by decide, by rw [backslash]; rfl, rfl⟩
  case isFalse notBackslash =>
  split
  case isTrue lineEnd => exact Or.inl ⟨'n', by decide, by rw [lineEnd]; rfl, rfl⟩
  split
  case isTrue carriage => exact Or.inl ⟨'r', by decide, by rw [carriage]; rfl, rfl⟩
  split
  case isTrue tab => exact Or.inl ⟨'t', by decide, by rw [tab]; rfl, rfl⟩
  split
  case isTrue backspace => exact Or.inl ⟨'b', by decide, by rw [backspace]; rfl, rfl⟩
  split
  case isTrue feed => exact Or.inl ⟨'f', by decide, by rw [feed]; rfl, rfl⟩
  split
  case isTrue control => exact Or.inr (Or.inl ⟨control, rfl⟩)
  case isFalse visible => exact Or.inr (Or.inr ⟨notQuote, notBackslash, visible, rfl⟩)

/-- What is read off the writing of one character, however the text goes on. -/
theorem scan_text_character (character : Char) : ∃ piece : Piece, piece.IsOf character ∧
    ∀ rest, scanText (Json.escapeCharacter character ++ rest) =
      (scanText rest).withPiece piece := by
  obtain ⟨escape, notUnit, names, written⟩ | ⟨below, written⟩ |
    ⟨notQuote, notBackslash, notControl, written⟩ := escape_character_cases character
  · exact ⟨_, .itself, fun rest => by rw [written]; exact scan_text_escape notUnit names rest⟩
  · refine ⟨_, .control below, fun rest => ?_⟩
    obtain ⟨four, value⟩ := hex_unit_control character.toNat below
    rw [written, List.cons_append, List.cons_append, scanText]
    simp only [hex_unit_append four, value]
    rw [List.drop_left' four]
  · -- All other rules for the front of a text ask for a quote, a backslash or a control character.
    refine ⟨_, .itself, fun rest => ?_⟩
    rw [written, List.singleton_append, scanText.eq_def]
    split <;> simp_all

theorem scan_text_written (characters rest : List Char) : ∃ pieces : List Piece,
    List.Forall₂ Piece.IsOf characters pieces ∧
      scanText (characters.flatMap Json.escapeCharacter ++ '"' :: rest) = ⟨pieces, .ok rest⟩ := by
  induction characters with
  | nil => exact ⟨[], .nil, by rw [List.flatMap_nil, List.nil_append, scanText]⟩
  | cons character characters induction =>
      obtain ⟨pieces, are, scanned⟩ := induction
      obtain ⟨piece, isOf, reads⟩ := scan_text_character character
      refine ⟨piece :: pieces, .cons isOf are, ?_⟩
      rw [List.flatMap_cons, List.append_assoc, reads, scanned, ScannedText.withPiece]

theorem scan_one_quoted (text : String) (rest : List Char) :
    scanOne '"' (text.toList.flatMap Json.escapeCharacter ++ '"' :: rest) =
      (.text (.ok text), some rest) := by
  obtain ⟨pieces, are, scanned⟩ := scan_text_written text.toList rest
  have value : (⟨pieces, .ok rest⟩ : ScannedText).value = .ok text := by
    rw [ScannedText.value, ScannedText.ending?, join_pieces_of are, Except.map,
      String.ofList_toList]
  simp [scanOne, scanned, value]

/-- However a text goes on after these characters, these tokens are cut off its front. -/
def Scans (characters : List Char) (tokens : List JsonToken) : Prop :=
  ∀ fuel rest, (characters ++ rest).length ≤ fuel →
    ∃ left, rest.length ≤ left ∧ scan fuel (characters ++ rest) = tokens ++ scan left rest

namespace Scans

theorem nil : Scans [] [] := fun fuel _ enough => ⟨fuel, enough, rfl⟩

theorem append {front back : List Char} {first second : List JsonToken}
    (scansFront : Scans front first) (scansBack : Scans back second) :
    Scans (front ++ back) (first ++ second) := by
  intro fuel rest enough
  rw [List.append_assoc] at enough ⊢
  obtain ⟨middle, enoughBack, scannedFront⟩ := scansFront fuel (back ++ rest) enough
  obtain ⟨left, enoughRest, scannedBack⟩ := scansBack middle rest enoughBack
  exact ⟨left, enoughRest, by rw [scannedFront, scannedBack, List.append_assoc]⟩

theorem blanks {characters : List Char} (blank : ∀ character ∈ characters, isBlank character) :
    Scans characters [] := by
  induction characters with
  | nil => exact nil
  | cons character characters induction =>
      intro fuel rest enough
      obtain ⟨fuel, rfl⟩ : ∃ less, fuel = less + 1 := ⟨fuel - 1, by simp at enough; omega⟩
      rw [List.cons_append, scan, if_pos (blank _ List.mem_cons_self)]
      exact induction (fun other member => blank other (List.mem_cons_of_mem _ member)) fuel rest
        (by simpa using enough)

theorem token {first : Char} {more : List Char} {token : JsonToken} (notBlank : ¬ isBlank first)
    (scans : ∀ rest, scanOne first (more ++ rest) = (token, some rest)) :
    Scans (first :: more) [token] := by
  intro fuel rest enough
  obtain ⟨fuel, rfl⟩ : ∃ less, fuel = less + 1 := ⟨fuel - 1, by simp at enough; omega⟩
  refine ⟨fuel, by simp at enough; omega, ?_⟩
  rw [List.cons_append, scan, if_neg notBlank, scans]
  rfl

theorem scanAll {text : String} {tokens : List JsonToken} (scans : Scans text.toList tokens) :
    scanAll text = tokens := by
  obtain ⟨left, _, scanned⟩ := scans text.toList.length [] (by simp)
  rw [List.append_nil] at scanned
  rw [JsonToken.scanAll, scanned]
  cases left <;> simp [scan]

theorem quoted (text : String) : Scans (Json.quoted text).toList [.text (.ok text)] := by
  have written : (Json.quoted text).toList =
      '"' :: (text.toList.flatMap Json.escapeCharacter ++ ['"']) := by
    simp [Json.quoted]
  rw [written]
  refine token (by decide) fun rest => ?_
  rw [List.append_assoc]
  exact scan_one_quoted text rest

end Scans

mutual

def ofValue : Json → List JsonToken
  | .null => [.null]
  | .boolean value => [.boolean value]
  | .number value => [.number (.ok value)]
  | .text value => [.text (.ok value)]
  | .list items => .openList :: (ofItems items ++ [.closeList])
  | .object fields => .openObject :: (ofFields fields ++ [.closeObject])

def ofItems : List Json → List JsonToken
  | [] => []
  | [item] => ofValue item
  | item :: rest => ofValue item ++ .comma :: ofItems rest

def ofFields : List (String × Json) → List JsonToken
  | [] => []
  | [(name, value)] => .text (.ok name) :: .colon :: ofValue value
  | (name, value) :: rest =>
      .text (.ok name) :: .colon :: (ofValue value ++ .comma :: ofFields rest)

end

/-- The name of a field, a colon and its value. -/
def ofField (field : String × Json) : List JsonToken :=
  .text (.ok field.1) :: .colon :: ofValue field.2

/-- Entries are written, and made into tokens, one after the other with a comma between two. -/
structure ByComma {Entry : Type} (write : Entry → String) (writeAll : List Entry → String)
    (tokens : Entry → List JsonToken) (allTokens : List Entry → List JsonToken) : Prop where
  written_nil : writeAll [] = ""
  written_one : ∀ entry, writeAll [entry] = write entry
  written_more : ∀ entry next rest,
    writeAll (entry :: next :: rest) = write entry ++ "," ++ writeAll (next :: rest)
  tokens_nil : allTokens [] = []
  tokens_one : ∀ entry, allTokens [entry] = tokens entry
  tokens_more : ∀ entry next rest,
    allTokens (entry :: next :: rest) = tokens entry ++ .comma :: allTokens (next :: rest)

namespace ByComma

theorem compactItems : ByComma Json.compact Json.compactItems ofValue ofItems where
  written_nil := rfl
  written_one _ := rfl
  written_more _ _ _ := rfl
  tokens_nil := rfl
  tokens_one _ := rfl
  tokens_more _ _ _ := rfl

theorem compactFields : ByComma (fun field => Json.quoted field.1 ++ ":" ++ field.2.compact)
    Json.compactFields ofField ofFields where
  written_nil := rfl
  written_one _ := rfl
  written_more _ _ _ := rfl
  tokens_nil := rfl
  tokens_one _ := rfl
  tokens_more _ _ _ := rfl

theorem prettyItems (depth : Nat) : ByComma (Json.indentation depth ++ Json.prettyAt depth ·)
    (Json.prettyItems depth) ofValue ofItems where
  written_nil := rfl
  written_one _ := rfl
  written_more _ _ _ := rfl
  tokens_nil := rfl
  tokens_one _ := rfl
  tokens_more _ _ _ := rfl

theorem prettyFields (depth : Nat) :
    ByComma (fun field =>
        Json.indentation depth ++ Json.quoted field.1 ++ ": " ++ Json.prettyAt depth field.2)
      (Json.prettyFields depth) ofField ofFields where
  written_nil := rfl
  written_one _ := rfl
  written_more _ _ _ := rfl
  tokens_nil := rfl
  tokens_one _ := rfl
  tokens_more _ _ _ := rfl

end ByComma

end JsonToken

/-- A value without numbers, with lists and objects nested no deeper than `depth`. -/
inductive Json.Plain : Nat → Json → Prop where
  | null {depth : Nat} : Plain depth .null
  | boolean {depth : Nat} (value : Bool) : Plain depth (.boolean value)
  | text {depth : Nat} (value : String) : Plain depth (.text value)
  | list {depth : Nat} {items : List Json} (each : ∀ item ∈ items, Plain depth item) :
      Plain (depth + 1) (.list items)
  | object {depth : Nat} {fields : List (String × Json)}
      (each : ∀ field ∈ fields, Plain depth field.2) : Plain (depth + 1) (.object fields)

namespace JsonToken.Scans

theorem null : Scans "null".toList [.null] := token (by decide) fun _ => rfl

theorem boolean (value : Bool) :
    Scans (if value then "true" else "false").toList [.boolean value] := by
  cases value with
  | true => exact token (by decide) fun _ => rfl
  | false => exact token (by decide) fun _ => rfl

theorem comma : Scans ",".toList [.comma] := token (by decide) fun _ => rfl

theorem colon : Scans ":".toList [.colon] := token (by decide) fun _ => rfl

theorem colon_blank : Scans ": ".toList [.colon] :=
  colon.append (blanks (by simp [isBlank]) : Scans [' '] [])

theorem indentation (depth : Nat) : Scans (Json.indentation depth).toList [] := by
  refine blanks fun character member => ?_
  rw [Json.indentation, String.toList_append, List.mem_append] at member
  rcases member with lineEnd | space
  · have isLineEnd : character = '\n' := List.mem_singleton.1 lineEnd
    rw [isLineEnd]
    decide
  · rw [String.toList_ofList] at space
    rw [List.eq_of_mem_replicate space]
    decide

theorem before_indentation {body : String} {tokens : List JsonToken}
    (scans : Scans body.toList tokens) (depth : Nat) :
    Scans (body ++ Json.indentation depth).toList tokens := by
  rw [String.toList_append]
  simpa using scans.append (indentation depth)

theorem after_indentation {body : String} {tokens : List JsonToken}
    (scans : Scans body.toList tokens) (depth : Nat) :
    Scans (Json.indentation depth ++ body).toList tokens := by
  rw [String.toList_append]
  exact (indentation depth).append scans

theorem list {body : List Char} {tokens : List JsonToken} (scans : Scans body tokens) :
    Scans ("[".toList ++ body ++ "]".toList) (.openList :: (tokens ++ [.closeList])) := by
  have opens : Scans "[".toList [.openList] := token (by decide) fun _ => rfl
  have closes : Scans "]".toList [.closeList] := token (by decide) fun _ => rfl
  exact (opens.append scans).append closes

theorem object {body : List Char} {tokens : List JsonToken} (scans : Scans body tokens) :
    Scans ("\x7b".toList ++ body ++ "\x7d".toList) (.openObject :: (tokens ++ [.closeObject])) := by
  have opens : Scans "\x7b".toList [.openObject] := token (by decide) fun _ => rfl
  have closes : Scans "\x7d".toList [.closeObject] := token (by decide) fun _ => rfl
  exact (opens.append scans).append closes

theorem entries {Entry : Type} {write : Entry → String} {writeAll : List Entry → String}
    {tokens : Entry → List JsonToken} {allTokens : List Entry → List JsonToken}
    (byComma : ByComma write writeAll tokens allTokens) {entries : List Entry}
    (each : ∀ entry ∈ entries, Scans (write entry).toList (tokens entry)) :
    Scans (writeAll entries).toList (allTokens entries) := by
  induction entries with
  | nil =>
      rw [byComma.written_nil, byComma.tokens_nil]
      exact nil
  | cons entry rest induction =>
      obtain ⟨first, others⟩ := List.forall_mem_cons.1 each
      cases rest with
      | nil =>
          rw [byComma.written_one, byComma.tokens_one]
          exact first
      | cons next more =>
          rw [byComma.written_more, byComma.tokens_more, String.toList_append,
            String.toList_append, List.append_assoc]
          exact first.append (comma.append (induction others))

/-- A value on one line is scanned into its tokens. -/
theorem compact {depth : Nat} {value : Json} (plain : value.Plain depth) :
    Scans value.compact.toList (ofValue value) := by
  induction plain with
  | null => exact null
  | boolean value => exact boolean value
  | text value => exact quoted value
  | list _ induction =>
      rw [Json.compact, String.toList_append, String.toList_append]
      exact list (entries .compactItems induction)
  | object _ induction =>
      rw [Json.compact, String.toList_append, String.toList_append]
      refine object (entries .compactFields fun field member => ?_)
      rw [String.toList_append, String.toList_append, List.append_assoc]
      exact (quoted field.1).append (colon.append (induction field member))

/-- A value with one item per line is scanned into the same tokens. -/
theorem prettyAt {depth : Nat} {value : Json} (plain : value.Plain depth) (indent : Nat) :
    Scans (Json.prettyAt indent value).toList (ofValue value) := by
  induction plain generalizing indent with
  | null => exact null
  | boolean value => exact boolean value
  | text value => exact quoted value
  | @list _ items each induction =>
      -- Nothing is indented in an empty list, so it is written as on one line.
      cases items with
      | nil =>
          have oneLine : Json.prettyAt indent (.list []) = Json.compact (.list []) := by cbv
          rw [oneLine]
          exact compact (.list each)
      | cons item rest =>
          rw [Json.prettyAt, String.toList_append, String.toList_append, String.toList_append,
            List.append_assoc "[".toList, ← String.toList_append]
          · refine list (before_indentation ?_ indent)
            exact entries (.prettyItems (indent + 1)) fun item member =>
              after_indentation (induction item member (indent + 1)) (indent + 1)
          · exact List.cons_ne_nil _ _
  | @object _ fields each induction =>
      cases fields with
      | nil =>
          have oneLine : Json.prettyAt indent (.object []) = Json.compact (.object []) := by cbv
          rw [oneLine]
          exact compact (.object each)
      | cons field rest =>
          rw [Json.prettyAt, String.toList_append, String.toList_append, String.toList_append,
            List.append_assoc "\x7b".toList, ← String.toList_append]
          · refine object (before_indentation ?_ indent)
            refine entries (.prettyFields (indent + 1)) fun field member => ?_
            rw [String.append_assoc, String.append_assoc]
            refine after_indentation ?_ (indent + 1)
            rw [String.toList_append, String.toList_append]
            exact (quoted field.1).append (colon_blank.append (induction field member (indent + 1)))
          · exact List.cons_ne_nil _ _

end JsonToken.Scans

theorem JsonToken.scan_all_written {depth : Nat} {value : Json} (plain : value.Plain depth)
    {text : String} (written : text = value.compact ∨ text = value.pretty) :
    JsonToken.scanAll text = JsonToken.ofValue value := by
  rcases written with rfl | rfl
  · exact Scans.scanAll (Scans.compact plain)
  · exact Scans.scanAll (Scans.prettyAt plain 0)

end PipelineWaves
