import Mathlib
import PipelineWaves.Program.Quoted

/-!
# Reading literals

A reader for the string literals of programs. It knows the usual escapes and code
points of one to six hexadecimal digits in braces, and it stops at the first
quote that is not escaped. From a literal and any text behind it, it reads the
text that was quoted and stops exactly where the literal ends.
-/

set_option autoImplicit false

namespace PipelineWaves.ProgramText

def hexDigit? (character : Char) : Option Nat :=
  if '0' ≤ character && character ≤ '9' then some (character.toNat - 48)
  else if 'a' ≤ character && character ≤ 'f' then some (character.toNat - 87)
  else if 'A' ≤ character && character ≤ 'F' then some (character.toNat - 55)
  else none

def isHexDigit (character : Char) : Bool := (hexDigit? character).isSome

def hexNumber (digits : List Char) : Nat :=
  digits.foldl (fun number digit => 16 * number + (hexDigit? digit).getD 0) 0

theorem hex_digit_digit_char : ∀ value < 16, hexDigit? (Nat.digitChar value) = some value := by
  decide

theorem is_hex_digit_of_mem_to_digits {number : Nat} :
    ∀ digit ∈ Nat.toDigits 16 number, isHexDigit digit = true := by
  induction number using Nat.base_induction 16 (by decide) with
  | single value below =>
      intro digit member
      rw [Nat.toDigits_of_lt_base below, List.mem_singleton] at member
      rw [member, isHexDigit, hex_digit_digit_char value below, Option.isSome_some]
  | digit value last below positive induction =>
      intro digit member
      rw [← Nat.toDigits_append_toDigits (by decide) positive below,
        Nat.toDigits_of_lt_base below] at member
      rcases List.mem_append.1 member with earlier | final
      · exact induction digit earlier
      · rw [List.mem_singleton.1 final, isHexDigit, hex_digit_digit_char last below,
          Option.isSome_some]

theorem hex_number_to_digits (number : Nat) : hexNumber (Nat.toDigits 16 number) = number := by
  induction number using Nat.base_induction 16 (by decide) with
  | single value below =>
      rw [Nat.toDigits_of_lt_base below]
      simp [hexNumber, hex_digit_digit_char value below]
  | digit value last below positive induction =>
      rw [← Nat.toDigits_append_toDigits (by decide) positive below,
        Nat.toDigits_of_lt_base below, hexNumber, List.foldl_append, ← hexNumber, induction]
      simp [hex_digit_digit_char last below]

/-- The character of an escape, and how many characters after the backslash name it. -/
def escaped? : List Char → Option (Char × Nat)
  | [] => none
  | 'n' :: _ => some ('\n', 1)
  | 'r' :: _ => some ('\r', 1)
  | 't' :: _ => some ('\t', 1)
  | '0' :: _ => some ('\x00', 1)
  | '\\' :: _ => some ('\\', 1)
  | '\'' :: _ => some ('\'', 1)
  | '"' :: _ => some ('"', 1)
  | 'u' :: '\x7b' :: rest =>
      let digits := rest.takeWhile isHexDigit
      let number := hexNumber digits
      if digits ≠ [] ∧ digits.length ≤ 6 ∧ number.isValidChar ∧
          (rest.drop digits.length).head? = some '\x7d' then
        some (Char.ofNat number, digits.length + 3)
      else none
  | _ :: _ => none

/-- The text up to the closing quote and the number of characters read, after skipping
characters that belong to an escape. -/
def literalFrom : Nat → List Char → Option (List Char × Nat)
  | _, [] => none
  | skipped + 1, _ :: rest => (literalFrom skipped rest).map fun found => (found.1, found.2 + 1)
  | 0, first :: rest =>
      if first = '"' then some ([], 1)
      else if first = '\\' then
        match escaped? rest with
        | none => none
        | some (character, taken) =>
            (literalFrom taken rest).map fun found => (character :: found.1, found.2 + 1)
      else if first = '\r' then none
      else (literalFrom 0 rest).map fun found => (first :: found.1, found.2 + 1)

/-- The text of the literal at the front, and what follows the literal. -/
def readLiteral (characters : List Char) : Option (List Char × List Char) :=
  match characters with
  | '"' :: rest => (literalFrom 0 rest).map fun found => (found.1, rest.drop found.2)
  | _ => none

theorem literal_from_skipping (skipped rest : List Char) :
    literalFrom skipped.length (skipped ++ rest) =
      (literalFrom 0 rest).map fun found => (found.1, found.2 + skipped.length) := by
  induction skipped with
  | nil => simp
  | cons first skipped induction =>
      rw [List.length_cons, List.cons_append, literalFrom, induction, Option.map_map]
      rfl

theorem take_while_append {Item : Type} {test : Item → Bool} {front rest : List Item}
    (passes : ∀ item ∈ front, test item = true)
    (stops : ∀ item, rest.head? = some item → test item = false) :
    (front ++ rest).takeWhile test = front := by
  rw [List.takeWhile_append_of_pos passes]
  cases rest with
  | nil => simp
  | cons item rest => simp [stops item rfl]

theorem escaped_code_point (character : Char) (rest : List Char) :
    escaped? ('u' :: '\x7b' :: (Nat.toDigits 16 character.toNat ++ '\x7d' :: rest)) =
      some (character, (Nat.toDigits 16 character.toNat).length + 3) := by
  have digits : (Nat.toDigits 16 character.toNat ++ '\x7d' :: rest).takeWhile isHexDigit =
      Nat.toDigits 16 character.toNat := by
    apply take_while_append is_hex_digit_of_mem_to_digits
    intro item first
    cases first
    decide
  have valid : character.toNat.isValidChar := character.valid
  have short : (Nat.toDigits 16 character.toNat).length ≤ 6 := by
    rw [Nat.length_toDigits_le_iff (by decide) (by decide)]
    rcases valid with low | high
    · omega
    · omega
  simp only [escaped?, digits, hex_number_to_digits, List.drop_left]
  simp [Nat.toDigits_ne_nil, short, valid]

/-- Reading on after a backslash, when the characters behind it are those of an escape. -/
theorem literal_from_backslash {character : Char} (body : List Char)
    (reads : ∀ rest, escaped? (body ++ rest) = some (character, body.length)) (rest : List Char) :
    literalFrom 0 ('\\' :: (body ++ rest)) =
      (literalFrom 0 rest).map
        fun found => (character :: found.1, found.2 + (body.length + 1)) := by
  rw [literalFrom, if_neg (by decide), if_pos rfl, reads]
  simp only [literal_from_skipping, Option.map_map]
  rfl

/-- One quoted character is read back, whatever follows it. -/
theorem literal_from_escape (character : Char) (rest : List Char) :
    literalFrom 0 (escape character ++ rest) =
      (literalFrom 0 rest).map
        fun found => (character :: found.1, found.2 + (escape character).length) := by
  rw [escape]
  split_ifs with quote backslash lineFeed carriageReturn tab special
  · subst quote
    exact literal_from_backslash ['"'] (fun _ => rfl) rest
  · subst backslash
    exact literal_from_backslash ['\\'] (fun _ => rfl) rest
  · subst lineFeed
    exact literal_from_backslash ['n'] (fun _ => rfl) rest
  · subst carriageReturn
    exact literal_from_backslash ['r'] (fun _ => rfl) rest
  · subst tab
    exact literal_from_backslash ['t'] (fun _ => rfl) rest
  · have reads : ∀ more,
        escaped? (['u', '\x7b'] ++ Nat.toDigits 16 character.toNat ++ ['\x7d'] ++ more) =
          some (character,
            (['u', '\x7b'] ++ Nat.toDigits 16 character.toNat ++ ['\x7d']).length) := by
      intro more
      simpa [Nat.add_assoc] using escaped_code_point character more
    simpa using literal_from_backslash _ reads rest
  · rw [List.singleton_append, literalFrom, if_neg quote, if_neg backslash, if_neg carriageReturn]
    rfl

theorem literal_from_escapes (characters rest : List Char) :
    literalFrom 0 (characters.flatMap escape ++ '"' :: rest) =
      some (characters, (characters.flatMap escape).length + 1) := by
  induction characters with
  | nil => rfl
  | cons first characters induction =>
      rw [List.flatMap_cons, List.append_assoc, literal_from_escape, induction]
      simp only [Option.map_some, List.length_append]
      congr 2
      omega

/-- Reading from a literal gives back its text and stops exactly behind it. -/
theorem read_literal_chars (characters rest : List Char) :
    readLiteral (literalChars characters ++ rest) = some (characters, rest) := by
  have read := literal_from_escapes characters rest
  simp [literalChars, readLiteral, read, List.drop_append]

theorem quote_ok {context text literal : String} (quoted : quote context text = .ok literal) :
    literal.toList = literalChars text.toList := by
  rw [quote] at quoted
  split at quoted
  · cases quoted
  · cases quoted
    rw [String.toList_ofList]

/-- The character is no control character and changes no direction of text. -/
def IsPrinted (character : Char) : Prop :=
  isControl character = false ∧ changesDirection character = false

instance (character : Char) : Decidable (IsPrinted character) :=
  inferInstanceAs
    (Decidable (isControl character = false ∧ changesDirection character = false))

theorem printed_of_ascii {character : Char} (above : 0x20 ≤ character.toNat)
    (below : character.toNat < 0x7F) : IsPrinted character := by
  simp only [IsPrinted, isControl, changesDirection, Bool.or_eq_false_iff, Bool.and_eq_false_iff,
    decide_eq_false_iff_not]
  omega

theorem hex_digit_printed {digit : Char} (isHex : isHexDigit digit = true) : IsPrinted digit := by
  rw [isHexDigit, hexDigit?] at isHex
  have zero : '0'.toNat = 48 := rfl
  have nine : '9'.toNat = 57 := rfl
  have upper : 'A'.toNat = 65 ∧ 'F'.toNat = 70 := ⟨rfl, rfl⟩
  have lower : 'a'.toNat = 97 ∧ 'f'.toNat = 102 := ⟨rfl, rfl⟩
  have between : ∀ {first last : Char},
      (decide (first ≤ digit) && decide (digit ≤ last)) = true →
        first.toNat ≤ digit.toNat ∧ digit.toNat ≤ last.toNat := by
    intro first last both
    rw [Bool.and_eq_true, decide_eq_true_eq, decide_eq_true_eq] at both
    exact both
  split_ifs at isHex with decimal small large
  · have bounds := between decimal
    apply printed_of_ascii <;> omega
  · have bounds := between small
    apply printed_of_ascii <;> omega
  · have bounds := between large
    apply printed_of_ascii <;> omega
  · cases isHex

theorem escape_printed (character : Char) : ∀ written ∈ escape character, IsPrinted written := by
  have quotation : IsPrinted '"' := by decide
  have backslash : IsPrinted '\\' := by decide
  have letters : IsPrinted 'n' ∧ IsPrinted 'r' ∧ IsPrinted 't' := by decide
  rw [escape]
  split_ifs with quote isBackslash lineFeed carriageReturn tab special
  · simpa [backslash] using quotation
  · simpa using backslash
  · simpa [backslash] using letters.1
  · simpa [backslash] using letters.2.1
  · simpa [backslash] using letters.2.2
  · intro written member
    simp only [List.mem_append, List.mem_cons, List.not_mem_nil, or_false] at member
    rcases member with ((rfl | rfl | rfl) | digit) | rfl
    · exact backslash
    · exact printed_of_ascii (by decide) (by decide)
    · exact printed_of_ascii (by decide) (by decide)
    · exact hex_digit_printed (is_hex_digit_of_mem_to_digits written digit)
    · exact printed_of_ascii (by decide) (by decide)
  · rw [Bool.not_eq_true, Bool.or_eq_false_iff] at special
    have own : IsPrinted character := special
    simpa using own

theorem literal_printed (characters : List Char) :
    ∀ written ∈ literalChars characters, IsPrinted written := by
  have quotation : IsPrinted '"' := by decide
  intro written member
  simp only [literalChars, List.mem_append, List.mem_cons, List.mem_flatMap, List.not_mem_nil,
    or_false] at member
  rcases member with (rfl | ⟨character, _, inEscape⟩) | rfl
  · exact quotation
  · exact escape_printed character written inEscape
  · exact quotation

theorem comment_char_printed (character : Char) : IsPrinted (commentChar character) := by
  rw [commentChar]
  split_ifs with special
  · decide
  · rwa [Bool.not_eq_true, Bool.or_eq_false_iff] at special

theorem comment_char_of_printed {character : Char} (printed : IsPrinted character) :
    commentChar character = character := by
  rw [commentChar, printed.1, printed.2, Bool.or_self, if_neg Bool.false_ne_true]

theorem comment_chars (text : String) : (comment text).toList = text.toList.map commentChar := by
  rw [comment, String.toList_ofList]

theorem comment_printed (text : String) : ∀ written ∈ (comment text).toList, IsPrinted written := by
  intro written member
  rw [comment_chars] at member
  obtain ⟨character, _, rfl⟩ := List.mem_map.1 member
  exact comment_char_printed character

/-- The character neither ends a line nor changes the direction of text. -/
def IsInLine (character : Char) : Prop :=
  character ≠ '\n' ∧ changesDirection character = false

theorem IsPrinted.in_line {character : Char} (printed : IsPrinted character) :
    IsInLine character := by
  refine ⟨?_, printed.2⟩
  rintro rfl
  exact absurd printed.1 (by decide)

theorem in_line_of_code_point {character : Char} (above : 0x20 ≤ character.toNat)
    (below : character.toNat < 0x202A) : IsInLine character := by
  constructor
  · rintro rfl
    exact absurd above (by decide)
  · simp only [changesDirection, Bool.or_eq_false_iff, Bool.and_eq_false_iff,
      decide_eq_false_iff_not]
    omega

theorem escape_in_line (character : Char) : ∀ written ∈ escape character, IsInLine written :=
  fun written member => (escape_printed character written member).in_line

theorem literal_in_line (characters : List Char) :
    ∀ written ∈ literalChars characters, IsInLine written :=
  fun written member => (literal_printed characters written member).in_line

theorem comment_in_line (text : String) : ∀ written ∈ (comment text).toList, IsInLine written :=
  fun written member => (comment_printed text written member).in_line

theorem quote_of_nul (context : String) {text : String} (nul : '\x00' ∈ text.toList) :
    quote context text = .error (.notQuotable context) := by
  rw [quote, if_pos (List.contains_iff_mem.2 nul)]

theorem quote_of_no_nul (context : String) {text : String} (noNul : '\x00' ∉ text.toList) :
    quote context text = .ok (String.ofList (literalChars text.toList)) := by
  rw [quote, if_neg (fun nul => noNul (List.contains_iff_mem.1 nul))]

/-- Only a text with a NUL character has no literal. A literal is shown as it is and ends where
the text ended, whatever comes behind it. A comment differs from its text in characters that are
not shown as they are, and is as long. -/
theorem quoting_loses_nothing (context text : String) :
    (if '\x00' ∈ text.toList then quote context text = .error (.notQuotable context)
    else
      ∃ literal, quote context text = .ok literal ∧
        (∀ character ∈ literal.toList, IsPrinted character) ∧
        ∀ rest, readLiteral (literal.toList ++ rest) = some (text.toList, rest)) ∧
    (comment text).length = text.length ∧
    (∀ character ∈ (comment text).toList, IsPrinted character) ∧
    ∀ (position : Nat) (character : Char), text.toList[position]? = some character →
      IsPrinted character → (comment text).toList[position]? = some character := by
  refine ⟨?_, ?_, comment_printed text, fun position character found printed => ?_⟩
  · split
    · rename_i nul
      exact quote_of_nul context nul
    · rename_i noNul
      refine ⟨_, quote_of_no_nul context noNul, ?_⟩
      rw [String.toList_ofList]
      exact ⟨literal_printed text.toList, read_literal_chars text.toList⟩
  · rw [← String.length_toList, comment_chars, List.length_map, String.length_toList]
  · rw [comment_chars, List.getElem?_map, found, Option.map_some, comment_char_of_printed printed]

/-- Quotes beside backslashes, text that looks like an escape, and a code point before digits. -/
theorem awkward_text_quoted :
    let text := "a\"\\\"\\n\x07f\n\u202e\x7d"
    let behind := "41\x7d\"\\".toList
    '\x00' ∉ text.toList ∧
      (∃ literal, quote "name" text = .ok literal ∧
        literal = "\"a\\\"\\\\\\\"\\\\n\\u\x7b7\x7df\\n\\u\x7b202e\x7d\x7d\"" ∧
        readLiteral (literal.toList ++ behind) = some (text.toList, behind)) ∧
      (comment text).length = text.length ∧ IsPrinted '\\' ∧
      (comment text).toList[2]? = some '\\' := by
  intro text behind
  have whole := quoting_loses_nothing "name" text
  have noNul : '\x00' ∉ text.toList := by decide
  rw [if_neg noNul] at whole
  obtain ⟨⟨literal, quoted, _, read⟩, sameLength, _, kept⟩ := whole
  have spelled : literal = _ := (Except.ok.inj (quoted.symm.trans (quote_of_no_nul "name" noNul)))
  refine ⟨noNul, ⟨literal, quoted, ?_, read behind⟩, sameLength, by decide,
    kept 2 '\\' (by decide) (by decide)⟩
  rw [spelled]
  decide +kernel

end PipelineWaves.ProgramText
