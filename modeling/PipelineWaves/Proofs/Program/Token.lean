import PipelineWaves.Proofs.Program.Literal

/-!
# Tokens of expressions

A scanner for the expressions in a program. Words and numbers are as long as
possible and blanks only separate. A scan goes on from the end of every token, so
that the tokens of a text in front of another are known from the text alone, up
to a word that the other text would continue.
-/

set_option autoImplicit false

namespace PipelineWaves

inductive ExpressionToken where
  | word (text : String)
  | number (value : Nat)
  | literal (text : String)
  | opening
  | closing
  | openingIndex
  | closingIndex
  | comma
  | path
  | equal
  | different
  | and
  | or
  | not
deriving DecidableEq, Repr

namespace ExpressionToken

def startsWord (character : Char) : Bool := character.isAlpha || character = '_'

def continuesWord (character : Char) : Bool := character.isAlphanum || character = '_'

/-- The number that a run of word characters stands for, if they are all digits. -/
def number? (digits : List Char) : Option Nat :=
  if digits.all Char.isDigit then some (Nat.ofDigitChars 10 digits 0) else none

/-- The token that starts with `first`, and how many characters of `rest` belong to it. -/
def lexeme? (first : Char) (rest : List Char) : Option (ExpressionToken × Nat) :=
  if first = '(' then some (opening, 0)
  else if first = ')' then some (closing, 0)
  else if first = '[' then some (openingIndex, 0)
  else if first = ']' then some (closingIndex, 0)
  else if first = ',' then some (comma, 0)
  else if first = ':' then
    if rest.head? = some ':' then some (path, 1) else none
  else if first = '=' then
    if rest.head? = some '=' then some (equal, 1) else none
  else if first = '!' then
    if rest.head? = some '=' then some (different, 1) else some (not, 0)
  else if first = '&' then
    if rest.head? = some '&' then some (and, 1) else none
  else if first = '|' then
    if rest.head? = some '|' then some (or, 1) else none
  else if first = '"' then
    (ProgramText.literalFrom 0 rest).map fun found => (literal (String.ofList found.1), found.2)
  else
    let more := rest.takeWhile continuesWord
    if startsWord first then some (word (String.ofList (first :: more)), more.length)
    else (number? (first :: more)).map fun value => (number value, more.length)

/-- The tokens of a text, after skipping characters that belong to the token before. -/
def scanFrom : Nat → List Char → Option (List ExpressionToken)
  | _, [] => some []
  | skipped + 1, _ :: rest => scanFrom skipped rest
  | 0, first :: rest =>
      if first.isWhitespace then scanFrom 0 rest
      else
        match lexeme? first rest with
        | none => none
        | some (token, taken) => (scanFrom taken rest).map (token :: ·)

def scan (characters : List Char) : Option (List ExpressionToken) := scanFrom 0 characters

def EndsWord (rest : List Char) : Prop :=
  ∀ character, rest.head? = some character → continuesWord character = false

def prepend (tokens : List ExpressionToken) (scanned : Option (List ExpressionToken)) :
    Option (List ExpressionToken) :=
  scanned.map (tokens ++ ·)

@[simp]
theorem prepend_prepend (first second : List ExpressionToken)
    (scanned : Option (List ExpressionToken)) :
    prepend first (prepend second scanned) = prepend (first ++ second) scanned := by
  simp [prepend, Function.comp_def]

/-- In front of any text that ends a word, `characters` has these tokens. -/
def Scans (characters : List Char) (tokens : List ExpressionToken) : Prop :=
  ∀ rest, EndsWord rest → scan (characters ++ rest) = prepend tokens (scan rest)

theorem scan_from_skipping (skipped rest : List Char) :
    scanFrom skipped.length (skipped ++ rest) = scan rest := by
  induction skipped with
  | nil => rfl
  | cons first skipped induction => exact induction

theorem scan_lexeme {first : Char} {front rest : List Char} {token : ExpressionToken}
    (visible : first.isWhitespace = false)
    (found : lexeme? first (front ++ rest) = some (token, front.length)) :
    scan (first :: (front ++ rest)) = prepend [token] (scan rest) := by
  rw [scan, scanFrom, visible, found]
  simp only [Bool.false_eq_true, if_false, scan_from_skipping]
  rfl

theorem scans_literal (characters : List Char) :
    Scans (ProgramText.literalChars characters) [literal (String.ofList characters)] := by
  intro rest _
  have read := ProgramText.literal_from_escapes characters rest
  have lexed : lexeme? '"' ((characters.flatMap ProgramText.escape ++ ['"']) ++ rest) =
      some (literal (String.ofList characters),
        (characters.flatMap ProgramText.escape ++ ['"']).length) := by
    simp [lexeme?, read]
  exact scan_lexeme (by decide) lexed

/-- The token of a run of word characters that starts with `first`. -/
def wordLexeme? (first : Char) (more : List Char) : Option (ExpressionToken × Nat) :=
  if startsWord first then some (word (String.ofList (first :: more)), more.length)
  else (number? (first :: more)).map fun value => (number value, more.length)

theorem lexeme_in_word {first : Char} (inWord : continuesWord first = true) (rest : List Char) :
    lexeme? first rest = wordLexeme? first (rest.takeWhile continuesWord) := by
  have different : ∀ symbol, continuesWord symbol = false → first ≠ symbol := by
    intro symbol notInWord same
    rw [same, notInWord] at inWord
    cases inWord
  simp only [lexeme?, wordLexeme?, different '(' (by decide), different ')' (by decide),
    different '[' (by decide), different ']' (by decide), different ',' (by decide),
    different ':' (by decide), different '=' (by decide), different '!' (by decide),
    different '&' (by decide), different '|' (by decide), different '"' (by decide), if_false]

theorem visible_in_word {first : Char} (inWord : continuesWord first = true) :
    first.isWhitespace = false := by
  rw [Bool.eq_false_iff]
  intro white
  simp only [Char.isWhitespace, Bool.or_eq_true, decide_eq_true_eq] at white
  rcases white with ((same | same) | same) | same <;> subst same <;> cases inWord

/-- A run of word characters is one token in front of any text that ends the word. -/
theorem scans_run {first : Char} {more : List Char} {token : ExpressionToken}
    (inWord : (first :: more).all continuesWord = true)
    (found : wordLexeme? first more = some (token, more.length)) :
    Scans (first :: more) [token] := by
  intro rest ends
  rw [List.all_eq_true] at inWord
  have firstInWord := inWord first List.mem_cons_self
  have run : (more ++ rest).takeWhile continuesWord = more :=
    ProgramText.take_while_append
      (fun character member => inWord character (List.mem_cons_of_mem first member)) ends
  apply scan_lexeme (visible_in_word firstInWord)
  rw [lexeme_in_word firstInWord, run, found]

theorem digit_starts_no_word {first : Char} (isDigit : first.isDigit = true) :
    startsWord first = false := by
  rw [Bool.eq_false_iff]
  intro starts
  simp only [startsWord, Char.isAlpha, Char.isUpper, Char.isLower, Char.isDigit, Bool.or_eq_true,
    Bool.and_eq_true, decide_eq_true_eq, UInt32.le_iff_toNat_le, ge_iff_le] at starts isDigit
  have nine : '9'.val.toNat = 57 := rfl
  have upper : 'A'.val.toNat = 65 := rfl
  have lower : 'a'.val.toNat = 97 := rfl
  rcases starts with (inUpper | inLower) | same
  · omega
  · omega
  · subst same
    exact absurd isDigit.2 (by decide)

theorem to_digits_are_digits {value : Nat} :
    ∀ digit ∈ Nat.toDigits 10 value, digit.isDigit = true :=
  fun _ member => Nat.isDigit_of_mem_toDigits (by decide) (by decide) member

theorem number_to_digits (value : Nat) : number? (Nat.toDigits 10 value) = some value := by
  rw [number?, if_pos (List.all_eq_true.2 to_digits_are_digits), Nat.ofDigitChars_ten_toDigits]

theorem number_run (value : Nat) :
    ∃ first more, Nat.toDigits 10 value = first :: more ∧
      (first :: more).all continuesWord = true ∧
      wordLexeme? first more = some (number value, more.length) := by
  have digits := @to_digits_are_digits value
  have read := number_to_digits value
  cases written : Nat.toDigits 10 value with
  | nil => exact absurd written Nat.toDigits_ne_nil
  | cons first more =>
      rw [written] at digits read
      have notLetter := digit_starts_no_word (digits first List.mem_cons_self)
      refine ⟨first, more, rfl, ?_, ?_⟩
      · rw [List.all_eq_true]
        intro digit member
        simp [continuesWord, Char.isAlphanum, digits digit member]
      · rw [wordLexeme?, notLetter, read]
        rfl

theorem scans_number (value : Nat) : Scans (Nat.toDigits 10 value) [number value] := by
  obtain ⟨first, more, written, inWord, found⟩ := number_run value
  rw [written]
  exact scans_run inWord found

end ExpressionToken

end PipelineWaves
