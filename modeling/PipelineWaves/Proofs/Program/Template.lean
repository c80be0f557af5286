import Mathlib.Computability.Language
import PipelineWaves.Program.Template
import PipelineWaves.Proofs.Program.Literal

/-!
# Placeholders

What a template is made of. A placeholder is found at a place exactly when its
braces, blanks and name stand there, and then it does not matter what follows. A
text that cannot start a placeholder it does not end, such as a line of a
fragment, therefore has the same segments wherever it stands.
-/

set_option autoImplicit false

namespace PipelineWaves.Template

open scoped Computability

/-- The characters of a placeholder. -/
structure Placeholder where
  before : List Char
  first : Char
  more : List Char
  behind : List Char
  blankBefore : before.all Text.isBlank = true
  starts : startsName first = true
  continues : more.all continuesName = true
  blankBehind : behind.all Text.isBlank = true

namespace Placeholder

def characters (placeholder : Placeholder) : List Char :=
  '\x7b' :: '\x7b' :: (placeholder.before ++ placeholder.first ::
    (placeholder.more ++ (placeholder.behind ++ ['\x7d', '\x7d'])))

def key (placeholder : Placeholder) : String :=
  String.ofList (placeholder.first :: placeholder.more)

end Placeholder

def oneOf (test : Char → Bool) : Language Char :=
  {word | ∃ character, test character = true ∧ word = [character]}

/-- The pattern `\{\{\s*([A-Za-z_][A-Za-z0-9_]*)\s*\}\}`, of which the group is the key. -/
def placeholderPattern : Language Char :=
  {['\x7b', '\x7b']} * (oneOf Text.isBlank)∗ * (oneOf startsName * (oneOf continuesName)∗) *
    (oneOf Text.isBlank)∗ * {['\x7d', '\x7d']}

theorem mem_star_one_of {test : Char → Bool} {word : List Char} :
    word ∈ (oneOf test)∗ ↔ word.all test = true := by
  constructor
  · rintro ⟨words, rfl, each⟩
    rw [List.all_eq_true]
    intro character member
    obtain ⟨word, isWord, inWord⟩ := List.mem_flatten.1 member
    obtain ⟨only, passes, rfl⟩ := each word isWord
    exact List.mem_singleton.1 inWord ▸ passes
  · intro passes
    refine ⟨word.map ([·]), by simp [← List.flatMap_def], ?_⟩
    rintro _ member
    obtain ⟨character, inWord, rfl⟩ := List.mem_map.1 member
    exact ⟨character, List.all_eq_true.1 passes character inWord, rfl⟩

theorem mem_placeholder_pattern {word : List Char} :
    word ∈ placeholderPattern ↔ ∃ placeholder : Placeholder, word = placeholder.characters := by
  constructor
  · rintro ⟨_, ⟨_, ⟨_, ⟨_, rfl, before, blankBefore, rfl⟩, _, ⟨_, ⟨first, starts, rfl⟩, more,
      continues, rfl⟩, rfl⟩, behind, blankBehind, rfl⟩, _, rfl, rfl⟩
    exact ⟨⟨before, first, more, behind, mem_star_one_of.1 blankBefore, starts,
      mem_star_one_of.1 continues, mem_star_one_of.1 blankBehind⟩, by simp [Placeholder.characters]⟩
  · rintro ⟨⟨before, first, more, behind, blankBefore, starts, continues, blankBehind⟩, rfl⟩
    refine ⟨_, ⟨_, ⟨_, ⟨_, rfl, before, mem_star_one_of.2 blankBefore, rfl⟩, _,
      ⟨_, ⟨first, starts, rfl⟩, more, mem_star_one_of.2 continues, rfl⟩, rfl⟩, behind,
      mem_star_one_of.2 blankBehind, rfl⟩, _, rfl, ?_⟩
    simp [Placeholder.characters]

theorem code_point_in_name {character : Char} (continues : continuesName character = true) :
    (48 ≤ character.toNat ∧ character.toNat ≤ 57) ∨ (65 ≤ character.toNat ∧ character.toNat ≤ 90) ∨
      character.toNat = 95 ∨ (97 ≤ character.toNat ∧ character.toNat ≤ 122) := by
  simp only [continuesName, Char.isAlphanum, Char.isAlpha, Char.isUpper, Char.isLower,
    Char.isDigit, Bool.or_eq_true, Bool.and_eq_true, decide_eq_true_eq, UInt32.le_iff_toNat_le,
    ge_iff_le] at continues
  change (((65 ≤ character.toNat ∧ character.toNat ≤ 90) ∨
    (97 ≤ character.toNat ∧ character.toNat ≤ 122)) ∨
    (48 ≤ character.toNat ∧ character.toNat ≤ 57)) ∨ character = '_' at continues
  rcases continues with ((upper | lower) | digit) | underscore
  · omega
  · omega
  · omega
  · subst underscore
    decide

theorem name_not_blank {character : Char} (continues : continuesName character = true) :
    Text.isBlank character = false := by
  have codePoint := code_point_in_name continues
  rw [Bool.eq_false_iff]
  intro blank
  simp only [Text.isBlank, Text.blankRanges, List.any_cons, List.any_nil, Bool.or_eq_true,
    Bool.and_eq_true, decide_eq_true_eq, Bool.or_false] at blank
  omega

theorem blank_ends_name {character : Char} (blank : Text.isBlank character = true) :
    continuesName character = false := by
  rw [Bool.eq_false_iff]
  intro continues
  rw [name_not_blank continues] at blank
  cases blank

theorem starts_continues {character : Char} (starts : startsName character = true) :
    continuesName character = true := by
  simp only [startsName, continuesName, Char.isAlphanum, Bool.or_eq_true] at starts ⊢
  rcases starts with letter | underscore
  · exact Or.inl (Or.inl letter)
  · exact Or.inr underscore

theorem is_opening_braces (rest : List Char) : isOpening ('\x7b' :: '\x7b' :: rest) = true := by
  simp [isOpening]

theorem is_closing_braces (rest : List Char) : isClosing ('\x7d' :: '\x7d' :: rest) = true := by
  simp [isClosing]

theorem placeholder_at (placeholder : Placeholder) (rest : List Char) :
    placeholder? (placeholder.characters ++ rest) =
      some (placeholder.key, placeholder.characters.length - 1) := by
  obtain ⟨before, first, more, behind, blankBefore, starts, continues, blankBehind⟩ := placeholder
  have blanks : (before ++ first :: (more ++ (behind ++ '\x7d' :: '\x7d' :: rest))).takeWhile
      Text.isBlank = before := by
    apply ProgramText.take_while_append (List.all_eq_true.1 blankBefore)
    intro character head
    cases head
    exact name_not_blank (starts_continues starts)
  have blanksBehind : (behind ++ '\x7d' :: '\x7d' :: rest).takeWhile Text.isBlank = behind := by
    apply ProgramText.take_while_append (List.all_eq_true.1 blankBehind)
    intro character head
    cases head
    decide
  have name : (first :: (more ++ (behind ++ '\x7d' :: '\x7d' :: rest))).takeWhile continuesName =
      first :: more := by
    have inName : ∀ character ∈ first :: more, continuesName character = true := by
      intro character member
      rcases List.mem_cons.1 member with same | later
      · exact same ▸ starts_continues starts
      · exact List.all_eq_true.1 continues character later
    apply ProgramText.take_while_append inName
    intro character head
    cases behind with
    | nil =>
        cases head
        decide
    | cons blank behind =>
        cases head
        exact blank_ends_name (List.all_eq_true.1 blankBehind _ List.mem_cons_self)
  have shape : Placeholder.characters
        ⟨before, first, more, behind, blankBefore, starts, continues, blankBehind⟩ ++ rest =
      '\x7b' :: '\x7b' :: (before ++ first :: (more ++ (behind ++ '\x7d' :: '\x7d' :: rest))) := by
    simp [Placeholder.characters]
  have afterName : (first :: (more ++ (behind ++ '\x7d' :: '\x7d' :: rest))).drop
      (first :: more).length = behind ++ '\x7d' :: '\x7d' :: rest :=
    @List.drop_left _ (first :: more) _
  rw [shape, placeholder?, if_pos (is_opening_braces _)]
  simp only [List.drop_succ_cons, List.drop_zero, blanks, List.drop_left, List.head?_cons, starts,
    if_true, name, afterName, blanksBehind]
  rw [if_pos (is_closing_braces rest)]
  simp [Placeholder.key, Placeholder.characters]
  omega

theorem take_while_append_drop {Item : Type} (test : Item → Bool) (items : List Item) :
    items.takeWhile test ++ items.drop (items.takeWhile test).length = items :=
  List.prefix_iff_eq_append.1 (List.takeWhile_prefix test)

theorem opening_eq {characters : List Char} (opens : isOpening characters = true) :
    characters = '\x7b' :: '\x7b' :: characters.drop 2 := by
  have front : characters.take 2 = ['\x7b', '\x7b'] := by simpa [isOpening] using opens
  calc
    characters = characters.take 2 ++ characters.drop 2 := (List.take_append_drop 2 _).symm
    _ = '\x7b' :: '\x7b' :: characters.drop 2 := by rw [front]; rfl

theorem closing_eq {characters : List Char} (closes : isClosing characters = true) :
    characters = '\x7d' :: '\x7d' :: characters.drop 2 := by
  have front : characters.take 2 = ['\x7d', '\x7d'] := by simpa [isClosing] using closes
  calc
    characters = characters.take 2 ++ characters.drop 2 := (List.take_append_drop 2 _).symm
    _ = '\x7d' :: '\x7d' :: characters.drop 2 := by rw [front]; rfl

/-- What is found at a place is a placeholder that stands there. -/
theorem placeholder_of_found {characters : List Char} {key : String} {length : Nat}
    (found : placeholder? characters = some (key, length)) :
    ∃ (placeholder : Placeholder) (rest : List Char),
      characters = placeholder.characters ++ rest ∧ key = placeholder.key ∧
        length = placeholder.characters.length - 1 := by
  rw [placeholder?] at found
  by_cases opens : isOpening characters = true
  · rw [if_pos opens] at found
    have braces := opening_eq opens
    generalize characters.drop 2 = inner at braces found
    have splitInner := take_while_append_drop Text.isBlank inner
    cases afterBlank : inner.drop (inner.takeWhile Text.isBlank).length with
    | nil => simp [afterBlank] at found
    | cons first tail =>
        rw [afterBlank] at splitInner
        simp only [afterBlank, List.head?_cons] at found
        by_cases starts : startsName first = true
        · have name : (first :: tail).takeWhile continuesName =
              first :: tail.takeWhile continuesName :=
            List.takeWhile_cons_of_pos (starts_continues starts)
          have splitTail := take_while_append_drop continuesName tail
          rw [if_pos starts, name, List.length_cons, List.drop_succ_cons] at found
          generalize tail.drop (tail.takeWhile continuesName).length = afterName at splitTail found
          have splitAfter := take_while_append_drop Text.isBlank afterName
          generalize afterName.drop (afterName.takeWhile Text.isBlank).length = ending
            at splitAfter found
          by_cases closes : isClosing ending = true
          · have closing := closing_eq closes
            rw [if_pos closes] at found
            cases found
            refine ⟨⟨inner.takeWhile Text.isBlank, first, tail.takeWhile continuesName,
              afterName.takeWhile Text.isBlank, List.all_takeWhile, starts, List.all_takeWhile,
              List.all_takeWhile⟩,
              ending.drop 2, ?_, rfl, ?_⟩
            · simp only [Placeholder.characters, List.cons_append, List.append_assoc,
                List.nil_append]
              rw [← closing, splitAfter, splitTail, splitInner, braces]
            · simp [Placeholder.characters]
              omega
          · rw [if_neg closes] at found
            cases found
        · rw [if_neg starts] at found
          cases found
  · rw [if_neg opens] at found
    cases found

/-- A placeholder is still found when more text follows. -/
theorem placeholder_append {characters : List Char} {key : String} {length : Nat}
    (found : placeholder? characters = some (key, length)) (rest : List Char) :
    placeholder? (characters ++ rest) = some (key, length) ∧ length < characters.length := by
  obtain ⟨placeholder, tail, same, sameKey, sameLength⟩ := placeholder_of_found found
  constructor
  · rw [same, List.append_assoc, placeholder_at, sameKey, sameLength]
  · rw [same, sameLength, List.length_append]
    simp only [Placeholder.characters, List.length_cons]
    omega

/-- The first of two characters does not open a placeholder. -/
def opensNot (first : Char) (rest : List Char) : Bool :=
  first ≠ '\x7b' || rest.head?.any fun second => second ≠ '\x7b'

/-- No placeholder starts in this text and ends behind it. -/
def isSealed : List Char → Bool
  | [] => true
  | first :: rest =>
      (opensNot first rest || (placeholder? (first :: rest)).isSome) && isSealed rest

theorem no_placeholder {first : Char} {rest : List Char} (differs : opensNot first rest = true) :
    placeholder? (first :: rest) = none := by
  have notOpening : isOpening (first :: rest) = false := by
    rw [opensNot, Bool.or_eq_true] at differs
    rcases differs with different | goesOn
    · have notBrace : first ≠ '\x7b' := by simpa using different
      simp [isOpening, notBrace]
    · cases rest with
      | nil => cases goesOn
      | cons second rest =>
          have notBrace : second ≠ '\x7b' := by simpa using goesOn
          simp [isOpening, notBrace]
  rw [placeholder?, notOpening]
  rfl

theorem opens_not_append {first : Char} {rest : List Char} (differs : opensNot first rest = true)
    (more : List Char) : opensNot first (rest ++ more) = true := by
  cases rest with
  | nil =>
      have notBrace : first ≠ '\x7b' := by simpa [opensNot] using differs
      simp [opensNot, notBrace]
  | cons second rest => exact differs

theorem sealed_drop {characters : List Char} (isClosed : isSealed characters = true)
    (count : Nat) : isSealed (characters.drop count) = true := by
  induction characters generalizing count with
  | nil => simp [isSealed]
  | cons first rest induction =>
      cases count with
      | zero => exact isClosed
      | succ count =>
          rw [isSealed, Bool.and_eq_true] at isClosed
          exact induction isClosed.2 count

/-- Where a sealed text has no placeholder, no text behind it makes one. -/
theorem no_placeholder_append {first : Char} {rest : List Char}
    (isClosed : isSealed (first :: rest) = true) (absent : placeholder? (first :: rest) = none)
    (more : List Char) : placeholder? (first :: (rest ++ more)) = none := by
  simp only [isSealed, absent, Option.isSome_none, Bool.or_false, Bool.and_eq_true] at isClosed
  exact no_placeholder (opens_not_append isClosed.1 more)

theorem segments_of_append {characters : List Char} (isClosed : isSealed characters = true)
    (rest : List Char) :
    segmentsOf (characters ++ rest) = segmentsOf characters ++ segmentsOf rest := by
  fun_induction segmentsOf characters with
  | case1 => rfl
  | case2 first more key length found induction =>
      obtain ⟨foundAll, short⟩ := placeholder_append found rest
      have inside : length ≤ more.length := by
        rw [List.length_cons] at short
        omega
      have later : isSealed (more.drop length) = true := sealed_drop isClosed (length + 1)
      rw [List.cons_append] at foundAll ⊢
      rw [segmentsOf, foundAll]
      simp only [List.drop_append_of_le_length inside, induction later, List.cons_append]
  | case3 first more absent induction =>
      have later : isSealed more = true := sealed_drop isClosed 1
      rw [List.cons_append, segmentsOf, no_placeholder_append isClosed absent rest]
      exact congrArg _ (induction later)

theorem sealed_append {front back : List Char} (frontClosed : isSealed front = true)
    (backClosed : isSealed back = true) : isSealed (front ++ back) = true := by
  induction front with
  | nil => exact backClosed
  | cons first rest induction =>
      rw [isSealed, Bool.and_eq_true] at frontClosed
      rw [List.cons_append, isSealed, induction frontClosed.2, Bool.and_true, Bool.or_eq_true]
      rcases Bool.or_eq_true_iff.1 frontClosed.1 with differs | found
      · exact .inl (opens_not_append differs back)
      · right
        obtain ⟨⟨key, length⟩, isFound⟩ := Option.isSome_iff_exists.1 found
        have foundAll := (placeholder_append isFound back).1
        rw [List.cons_append] at foundAll
        rw [foundAll, Option.isSome_some]

theorem segments_of_placeholder (placeholder : Placeholder) (rest : List Char) :
    segmentsOf (placeholder.characters ++ rest) =
      .placeholder placeholder.key :: segmentsOf rest := by
  have found := placeholder_at placeholder rest
  have opens : placeholder.characters ++ rest =
      '\x7b' :: (placeholder.characters.drop 1 ++ rest) := by
    simp [Placeholder.characters]
  rw [opens] at found ⊢
  rw [segmentsOf, found]
  simp [Placeholder.characters]

def keysOf (segments : List TemplateSegment) : List String :=
  segments.filterMap fun
    | .plain _ => none
    | .placeholder key => some key

/-- The keys of a text, after skipping characters that belong to a placeholder. -/
def keysFrom : Nat → List Char → List String
  | _, [] => []
  | skipped + 1, _ :: rest => keysFrom skipped rest
  | 0, first :: rest =>
      match placeholder? (first :: rest) with
      | some (key, length) => key :: keysFrom length rest
      | none => keysFrom 0 rest

theorem keys_from_drop (skipped : Nat) (characters : List Char) :
    keysFrom skipped characters = keysFrom 0 (characters.drop skipped) := by
  induction characters generalizing skipped with
  | nil => cases skipped <;> rfl
  | cons first rest induction =>
      cases skipped with
      | zero => rfl
      | succ skipped => exact induction skipped

theorem keys_of_segments (characters : List Char) :
    keysOf (segmentsOf characters) = keysFrom 0 characters := by
  fun_induction segmentsOf characters with
  | case1 => rfl
  | case2 first rest key length found induction =>
      rw [keysFrom, found]
      simp only [keys_from_drop length, ← induction]
      rfl
  | case3 first rest absent induction =>
      rw [keysFrom, absent, ← induction]
      rfl

/-- A text without placeholders is its own list of segments. -/
theorem segments_of_plain {characters : List Char} (noKeys : keysFrom 0 characters = []) :
    segmentsOf characters = characters.map .plain := by
  fun_induction segmentsOf characters with
  | case1 => rfl
  | case2 first rest key length found induction =>
      rw [keysFrom, found] at noKeys
      cases noKeys
  | case3 first rest absent induction =>
      rw [keysFrom, absent] at noKeys
      rw [induction noKeys, List.map_cons]

/-- Lines that all end with a line feed. -/
def terminated (lines : List String) : String := String.join (lines.map (· ++ "\n"))

theorem terminated_cons (line : String) (lines : List String) :
    terminated (line :: lines) = line ++ "\n" ++ terminated lines := by
  rw [terminated, List.map_cons, String.join_cons, ← terminated]

theorem terminated_append (front back : List String) :
    terminated (front ++ back) = terminated front ++ terminated back := by
  rw [terminated, List.map_append, String.join_append, ← terminated, ← terminated]

/-- Joined lines of which the last is empty all end with a line feed. -/
theorem intercalate_eq_terminated (lines : List String) :
    "\n".intercalate (lines ++ [""]) = terminated lines := by
  induction lines with
  | nil => rfl
  | cons line lines induction =>
      rw [List.cons_append, String.intercalate_cons_of_ne_nil (by simp), induction,
        terminated_cons]

/-- No two opening braces stand side by side in a line. -/
def opensNowhere : List Char → Bool
  | [] => true
  | first :: rest => opensNot first (rest ++ ['\n']) && opensNowhere rest

theorem plain_line {characters : List Char} (plain : opensNowhere characters = true) :
    isSealed (characters ++ ['\n']) = true ∧ keysFrom 0 (characters ++ ['\n']) = [] := by
  induction characters with
  | nil => exact ⟨by decide, by decide⟩
  | cons first rest induction =>
      rw [opensNowhere, Bool.and_eq_true] at plain
      obtain ⟨laterClosed, laterKeys⟩ := induction plain.2
      constructor
      · rw [List.cons_append, isSealed, plain.1, laterClosed]
        rfl
      · rw [List.cons_append, keysFrom, no_placeholder plain.1]
        exact laterKeys

/-- The keys of lines that each have at most one placeholder. -/
inductive LineKeys : List String → List String → Prop
  | nil : LineKeys [] []
  | plain (characters : List Char) {lines keys : List String}
      (own : opensNowhere characters = true) (later : LineKeys lines keys) :
      LineKeys (String.ofList characters :: lines) keys
  | hole (characters : List Char) {lines keys : List String} {key : String}
      (isClosed : isSealed (characters ++ ['\n']) = true)
      (own : keysFrom 0 (characters ++ ['\n']) = [key]) (later : LineKeys lines keys) :
      LineKeys (String.ofList characters :: lines) (key :: keys)

namespace LineKeys

theorem append {first second firstKeys secondKeys : List String}
    (front : LineKeys first firstKeys) (back : LineKeys second secondKeys) :
    LineKeys (first ++ second) (firstKeys ++ secondKeys) := by
  induction front with
  | nil => exact back
  | plain characters own later induction => exact .plain characters own induction
  | hole characters isClosed own later induction => exact .hole characters isClosed own induction

theorem line_chars (characters : List Char) (lines : List String) :
    (terminated (String.ofList characters :: lines)).toList =
      (characters ++ ['\n']) ++ (terminated lines).toList := by
  simp [terminated_cons]

theorem closed {lines keys : List String} (lineKeys : LineKeys lines keys) :
    isSealed (terminated lines).toList = true := by
  induction lineKeys with
  | nil => rfl
  | plain characters own later induction =>
      rw [line_chars]
      exact sealed_append (plain_line own).1 induction
  | hole characters isClosed own later induction =>
      rw [line_chars]
      exact sealed_append isClosed induction

theorem keys_eq {lines keys : List String} (lineKeys : LineKeys lines keys) :
    keysOf (segments (terminated lines)) = keys := by
  induction lineKeys with
  | nil => simp [terminated, segments, segmentsOf, keysOf]
  | plain characters own later induction =>
      obtain ⟨isClosed, noKeys⟩ := plain_line own
      rw [segments, line_chars, segments_of_append isClosed, keysOf, List.filterMap_append,
        ← keysOf, keys_of_segments, noKeys]
      exact induction
  | hole characters isClosed own later induction =>
      rw [segments, line_chars, segments_of_append isClosed, keysOf, List.filterMap_append,
        ← keysOf, keys_of_segments, own]
      exact congrArg _ induction

end LineKeys

theorem missing_keys_eq (values : List (String × String)) (segments : List TemplateSegment) :
    missingKeys values segments =
      (keysOf segments).filter fun key => (values.lookup key).isNone := by
  induction segments with
  | nil => rfl
  | cons segment rest induction =>
      cases segment with
      | plain character => exact induction
      | placeholder key =>
          rw [missingKeys] at induction
          cases found : (values.lookup key).isNone <;>
            simp [missingKeys, keysOf, found, induction]

/-- A template with every value in its place. -/
def filled (values : List (String × String)) (template : String) : String :=
  String.join ((segments template).map (fill values))

theorem render_ok (name template : String) {values : List (String × String)}
    (complete : ∀ key ∈ keysOf (segments template), values.lookup key ≠ none) :
    render name template values = .ok (filled values template) := by
  have nothingMissing : missingKeys values (segments template) = [] := by
    rw [missing_keys_eq, List.filter_eq_nil_iff]
    intro key member isMissing
    exact complete key member (Option.isNone_iff_eq_none.1 isMissing)
  rw [render, nothingMissing]
  rfl

theorem filled_append (values : List (String × String)) {front : String}
    (isClosed : isSealed front.toList = true) (back : String) :
    filled values (front ++ back) = filled values front ++ filled values back := by
  rw [filled, segments, String.toList_append, segments_of_append isClosed, List.map_append,
    String.join_append]
  rfl

theorem filled_plain (values : List (String × String)) {template : String}
    (noKeys : keysOf (segments template) = []) : filled values template = template := by
  rw [segments, keys_of_segments] at noKeys
  rw [filled, segments, segments_of_plain noKeys, List.map_map, ← String.toList_inj]
  simp [String.toList_join, Function.comp_def, fill, List.flatMap_map]

/-- Lines are filled one after the other. -/
theorem filled_lines (values : List (String × String)) {front keys : List String}
    (lineKeys : LineKeys front keys) (back : List String) :
    filled values (terminated (front ++ back)) =
      filled values (terminated front) ++ filled values (terminated back) := by
  rw [terminated_append, filled_append values lineKeys.closed]

/-- A text around its first placeholder: what stands before it, its key and what follows. -/
def holeOf : List Char → Option (List Char × String × List Char)
  | [] => none
  | first :: rest =>
      match placeholder? (first :: rest) with
      | some (key, length) => some ([], key, rest.drop length)
      | none => (holeOf rest).map fun found => (first :: found.1, found.2)

theorem segments_around_hole {characters front back : List Char} {key : String}
    (split : holeOf characters = some (front, key, back)) (noMore : keysFrom 0 back = []) :
    segmentsOf characters = front.map .plain ++ .placeholder key :: back.map .plain := by
  induction characters generalizing front with
  | nil => cases split
  | cons first rest induction =>
      rw [holeOf] at split
      rw [segmentsOf]
      cases found : placeholder? (first :: rest) with
      | some hole =>
          obtain ⟨ownKey, length⟩ := hole
          simp only [found, Option.some.injEq, Prod.mk.injEq] at split
          obtain ⟨rfl, rfl, rfl⟩ := split
          simp only [segments_of_plain noMore, List.map_nil, List.nil_append]
      | none =>
          simp only [found, Option.map_eq_some_iff] at split
          obtain ⟨⟨earlier, hole⟩, later, same⟩ := split
          cases same
          simp only [induction later, List.map_cons, List.cons_append]

theorem filled_hole {values : List (String × String)} {line front back : List Char}
    {key value : String} (split : holeOf line = some (front, key, back))
    (noMore : keysFrom 0 back = []) (found : values.lookup key = some value) :
    filled values (String.ofList line) =
      String.ofList front ++ value ++ String.ofList back := by
  rw [filled, segments, String.toList_ofList, segments_around_hole split noMore,
    ← String.toList_inj]
  simp [String.toList_join, fill, found, Function.comp_def, List.flatMap_map]

theorem filled_plain_lines (values : List (String × String)) {front : List String}
    (plain : LineKeys front []) (back : List String) :
    filled values (terminated (front ++ back)) =
      terminated front ++ filled values (terminated back) := by
  rw [filled_lines values plain, filled_plain values plain.keys_eq]

theorem filled_hole_line {values : List (String × String)} {characters front back : List Char}
    {key value : String} (split : holeOf (characters ++ ['\n']) = some (front, key, back))
    (isClosed : isSealed (characters ++ ['\n']) = true) (noMore : keysFrom 0 back = [])
    (found : values.lookup key = some value) (lines : List String) :
    filled values (terminated (String.ofList characters :: lines)) =
      String.ofList front ++ value ++ String.ofList back ++ filled values (terminated lines) := by
  have line : terminated (String.ofList characters :: lines) =
      String.ofList (characters ++ ['\n']) ++ terminated lines := by
    rw [terminated_cons, String.ofList_append]
  have closedLine : isSealed (String.ofList (characters ++ ['\n'])).toList = true := by
    rw [String.toList_ofList]
    exact isClosed
  rw [line, filled_append values closedLine, filled_hole split noMore found]

theorem filled_hole_alone {values : List (String × String)} {characters : List Char}
    {key value : String} (split : holeOf (characters ++ ['\n']) = some ([], key, ['\n']))
    (isClosed : isSealed (characters ++ ['\n']) = true) (found : values.lookup key = some value)
    (lines : List String) :
    filled values (terminated (String.ofList characters :: lines)) =
      value ++ "\n" ++ filled values (terminated lines) := by
  rw [filled_hole_line split isClosed rfl found]
  simp

end PipelineWaves.Template
