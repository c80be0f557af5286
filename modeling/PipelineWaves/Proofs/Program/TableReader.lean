import PipelineWaves.Proofs.Program.Template
import PipelineWaves.Proofs.Program.Token

/-!
# Reading tables

A reader for the constants of a program: texts, numbers, names, calls, lists and
structures with named fields. Blanks and line comments may stand between any two
tokens. The reader takes one value from the front of a text and stops behind the
semicolon that ends it. It keeps one frame for every bracket that is still open. Like
a compiler it refuses documentation comments inside a value, and characters that
change the direction of text wherever they stand.

What the reader makes of a text is stated as a move from one reading to another, for
any text behind. Moves are joined end to end, so that the tables of a program can be
read piece by piece.
-/

set_option autoImplicit false

namespace PipelineWaves

open ExpressionToken (EndsWord continuesWord startsWord)

inductive TableToken where
  | openingFields
  | closingFields
  | borrow
  | colon
  | lexeme (token : ExpressionToken)
deriving DecidableEq, Repr

namespace TableToken

/-- The token that starts with `first`, and how many characters of `rest` belong to it. -/
def lexeme? (first : Char) (rest : List Char) : Option (TableToken × Nat) :=
  if first = '\x7b' then some (openingFields, 0)
  else if first = '\x7d' then some (closingFields, 0)
  else if first = '&' ∧ rest.head? ≠ some '&' then some (borrow, 0)
  else if first = ':' ∧ rest.head? ≠ some ':' then some (colon, 0)
  else (ExpressionToken.lexeme? first rest).map fun found => (lexeme found.1, found.2)

end TableToken

inductive TableTerm where
  | text (value : String)
  | number (value : Nat)
  | path (names : List String)
  | call (function : List String) (arguments : List TableTerm)
  | tuple (items : List TableTerm)
  | list (items : List TableTerm)
  | record (names : List String) (fields : List (String × TableTerm))
deriving Repr

/-- A bracket that is still open, with what has been read inside it. -/
inductive TableFrame where
  | items (earlier : List TableTerm)
  | group (earlier : List TableTerm)
  | arguments (function : List String) (earlier : List TableTerm)
  | field (names : List String) (earlier : List (String × TableTerm)) (name : String)
deriving Repr

inductive TableFocus where
  | start
  | borrow
  | path (names : List String)
  | term (term : TableTerm)
  | fields (names : List String) (earlier : List (String × TableTerm))
  | named (names : List String) (earlier : List (String × TableTerm)) (name : String)
deriving Repr

structure TableReading where
  focus : TableFocus
  frames : List TableFrame
deriving Repr

namespace TableReading

/-- A token where a value may start. A bracket may close here if it is empty or if a
comma stands before it. -/
def atStart (frames : List TableFrame) : TableToken → Option TableReading
  | .lexeme (.literal value) => some ⟨.term (.text value), frames⟩
  | .lexeme (.number value) => some ⟨.term (.number value), frames⟩
  | .lexeme (.word name) => some ⟨.term (.path [name]), frames⟩
  | .lexeme .opening => some ⟨.start, .group [] :: frames⟩
  | .borrow => some ⟨.borrow, frames⟩
  | .lexeme .closingIndex =>
      match frames with
      | .items earlier :: below => some ⟨.term (.list earlier), below⟩
      | _ => none
  | .lexeme .closing =>
      match frames with
      | .group earlier :: below => some ⟨.term (.tuple earlier), below⟩
      | .arguments function earlier :: below => some ⟨.term (.call function earlier), below⟩
      | _ => none
  | _ => none

def afterTerm (term : TableTerm) (frames : List TableFrame) : TableToken → Option TableReading
  | .lexeme .path =>
      match term with
      | .path names => some ⟨.path names, frames⟩
      | _ => none
  | .lexeme .opening =>
      match term with
      | .path names => some ⟨.start, .arguments names [] :: frames⟩
      | _ => none
  | .openingFields =>
      match term with
      | .path names => some ⟨.fields names [], frames⟩
      | _ => none
  | .lexeme .comma =>
      match frames with
      | .items earlier :: below => some ⟨.start, .items (earlier ++ [term]) :: below⟩
      | .group earlier :: below => some ⟨.start, .group (earlier ++ [term]) :: below⟩
      | .arguments function earlier :: below =>
          some ⟨.start, .arguments function (earlier ++ [term]) :: below⟩
      | .field names earlier name :: below =>
          some ⟨.fields names (earlier ++ [(name, term)]), below⟩
      | [] => none
  | .lexeme .closingIndex =>
      match frames with
      | .items earlier :: below => some ⟨.term (.list (earlier ++ [term])), below⟩
      | _ => none
  | .lexeme .closing =>
      match frames with
      | .group [] :: below => some ⟨.term term, below⟩
      | .group earlier :: below => some ⟨.term (.tuple (earlier ++ [term])), below⟩
      | .arguments function earlier :: below =>
          some ⟨.term (.call function (earlier ++ [term])), below⟩
      | _ => none
  | .closingFields =>
      match frames with
      | .field names earlier name :: below =>
          some ⟨.term (.record names (earlier ++ [(name, term)])), below⟩
      | _ => none
  | _ => none

def step (reading : TableReading) (token : TableToken) : Option TableReading :=
  match reading.focus, token with
  | .start, token => atStart reading.frames token
  | .borrow, .lexeme .openingIndex => some ⟨.start, .items [] :: reading.frames⟩
  | .path names, .lexeme (.word name) =>
      some ⟨.term (.path (names ++ [name])), reading.frames⟩
  | .term term, token => afterTerm term reading.frames token
  | .fields names earlier, .lexeme (.word name) =>
      some ⟨.named names earlier name, reading.frames⟩
  | .fields names earlier, .closingFields => some ⟨.term (.record names earlier), reading.frames⟩
  | .named names earlier name, .colon => some ⟨.start, .field names earlier name :: reading.frames⟩
  | _, _ => none

def result? (reading : TableReading) : Option TableTerm :=
  match reading with
  | ⟨.term term, []⟩ => some term
  | _ => none

/-- How many characters after a slash belong to a line comment. -/
def commentLength? : List Char → Option Nat
  | '/' :: '/' :: _ => none
  | '/' :: '!' :: _ => none
  | '/' :: more => some (more.takeWhile (fun character => character ≠ '\n')).length.succ
  | _ => none

/-- The value at the front and what follows its semicolon, after skipping characters that
belong to a token or a comment. -/
def readFrom : Nat → TableReading → List Char → Option (TableTerm × List Char)
  | _, _, [] => none
  | skipped + 1, reading, first :: rest =>
      if ProgramText.changesDirection first then none else readFrom skipped reading rest
  | 0, reading, first :: rest =>
      if first.isWhitespace then readFrom 0 reading rest
      else if first = ';' then reading.result?.map (·, rest)
      else if first = '/' then
        match commentLength? rest with
        | none => none
        | some length => readFrom length reading rest
      else
        match TableToken.lexeme? first rest with
        | none => none
        | some (token, taken) =>
            match reading.step token with
            | none => none
            | some next => readFrom taken next rest

end TableReading

def TableTerm.read (characters : List Char) : Option (TableTerm × List Char) :=
  TableReading.readFrom 0 ⟨.start, []⟩ characters

namespace TableReading

/-- Over these characters the reader goes from one reading to the other. -/
def Passes (characters : List Char) (first second : TableReading) : Prop :=
  ∀ rest, readFrom 0 first (characters ++ rest) = readFrom 0 second rest

/-- Over these characters the reader goes from one reading to the other, unless a word at
their end goes on behind them. -/
def Leads (characters : List Char) (first second : TableReading) : Prop :=
  ∀ rest, EndsWord rest → readFrom 0 first (characters ++ rest) = readFrom 0 second rest

variable {front back : List Char} {first second third : TableReading}

theorem Passes.leads (passes : Passes front first second) : Leads front first second :=
  fun rest _ => passes rest

theorem Passes.refl (reading : TableReading) : Passes [] reading reading :=
  fun _ => rfl

theorem Passes.trans (before : Passes front first second) (after : Passes back second third) :
    Passes (front ++ back) first third := by
  intro rest
  rw [List.append_assoc, before, after]

theorem Passes.trans_leads (before : Passes front first second)
    (after : Leads back second third) : Leads (front ++ back) first third := by
  intro rest ends
  rw [List.append_assoc, before, after rest ends]

theorem ends_word_append {symbol : Char} {more : List Char} (stops : continuesWord symbol = false)
    (rest : List Char) : EndsWord ((symbol :: more) ++ rest) := by
  intro character same
  cases same
  exact stops

/-- What starts with a symbol may follow a word. -/
theorem Leads.trans {symbol : Char} {more : List Char} (before : Leads front first second)
    (stops : continuesWord symbol = false) (after : Passes (symbol :: more) second third) :
    Passes (front ++ symbol :: more) first third := by
  intro rest
  rw [List.append_assoc, before _ (ends_word_append stops rest), after]

theorem read_skipping {skipped : List Char}
    (keeps : ∀ character ∈ skipped, ProgramText.changesDirection character = false)
    (reading : TableReading) (rest : List Char) :
    readFrom skipped.length reading (skipped ++ rest) = readFrom 0 reading rest := by
  induction skipped with
  | nil => rfl
  | cons character skipped induction =>
      obtain ⟨keepsFirst, keepsLater⟩ := List.forall_mem_cons.1 keeps
      rw [List.length_cons, List.cons_append, readFrom, keepsFirst]
      exact induction keepsLater

theorem read_lexeme {symbol : Char} {token : TableToken} {rest : List Char}
    (visible : symbol.isWhitespace = false) (notEnd : symbol ≠ ';') (noComment : symbol ≠ '/')
    (keeps : ∀ character ∈ front, ProgramText.changesDirection character = false)
    (found : TableToken.lexeme? symbol (front ++ rest) = some (token, front.length))
    (steps : first.step token = some second) :
    readFrom 0 first (symbol :: (front ++ rest)) = readFrom 0 second rest := by
  rw [readFrom, visible, if_neg Bool.false_ne_true, if_neg notEnd, if_neg noComment, found]
  simp only [steps]
  exact read_skipping keeps second rest

theorem passes_literal (characters : List Char)
    (steps : first.step (.lexeme (.literal (String.ofList characters))) = some second) :
    Passes (ProgramText.literalChars characters) first second := by
  intro rest
  have read := ProgramText.literal_from_escapes characters rest
  have found : TableToken.lexeme? '"'
      ((characters.flatMap ProgramText.escape ++ ['"']) ++ rest) =
        some (.lexeme (.literal (String.ofList characters)),
          (characters.flatMap ProgramText.escape ++ ['"']).length) := by
    simp [TableToken.lexeme?, ExpressionToken.lexeme?, read]
  refine read_lexeme (by decide) (by decide) (by decide) ?_ found steps
  intro character member
  rcases List.mem_append.1 member with inside | isQuote
  · obtain ⟨quoted, _, written⟩ := List.mem_flatMap.1 inside
    exact (ProgramText.escape_in_line quoted character written).2
  · cases List.mem_singleton.1 isQuote
    decide

theorem word_in_line {character : Char} (inWord : continuesWord character = true) :
    ProgramText.IsInLine character := by
  have codePoint := Template.code_point_in_name inWord
  apply ProgramText.in_line_of_code_point <;> omega

theorem leads_run {symbol : Char} {more : List Char} {token : ExpressionToken}
    (inWord : (symbol :: more).all continuesWord = true)
    (found : ExpressionToken.wordLexeme? symbol more = some (token, more.length))
    (steps : first.step (.lexeme token) = some second) : Leads (symbol :: more) first second := by
  intro rest ends
  obtain ⟨symbolInWord, moreInWord⟩ := List.forall_mem_cons.1 (List.all_eq_true.1 inWord)
  have different : ∀ other, continuesWord other = false → symbol ≠ other := by
    rintro other notInWord rfl
    rw [notInWord] at symbolInWord
    cases symbolInWord
  have run : (more ++ rest).takeWhile continuesWord = more :=
    ProgramText.take_while_append moreInWord ends
  have lexed : TableToken.lexeme? symbol (more ++ rest) = some (.lexeme token, more.length) := by
    simp only [TableToken.lexeme?, different '\x7b' (by decide), different '\x7d' (by decide),
      different '&' (by decide), different ':' (by decide), false_and, if_false,
      ExpressionToken.lexeme_in_word symbolInWord, run, found, Option.map_some]
  refine read_lexeme (ExpressionToken.visible_in_word symbolInWord) (different ';' (by decide))
    (different '/' (by decide)) ?_ lexed steps
  exact fun character member => (word_in_line (moreInWord character member)).2

def isWord (text : String) : Bool :=
  text.toList.all continuesWord && text.toList.head?.any startsWord

theorem leads_word {text : String} (word : isWord text = true)
    (steps : first.step (.lexeme (.word text)) = some second) :
    Leads text.toList first second := by
  rw [isWord, Bool.and_eq_true] at word
  cases written : text.toList with
  | nil =>
      rw [written] at word
      cases word.2
  | cons symbol more =>
      rw [written] at word
      have starts : startsWord symbol = true := word.2
      have same : String.ofList (symbol :: more) = text := by rw [← written, String.ofList_toList]
      apply leads_run word.1 _ steps
      rw [ExpressionToken.wordLexeme?, starts, if_pos rfl, same]

theorem leads_number {value : Nat} (steps : first.step (.lexeme (.number value)) = some second) :
    Leads (toString value).toList first second := by
  obtain ⟨symbol, more, written, inWord, found⟩ := ExpressionToken.number_run value
  have digits : (toString value).toList = symbol :: more := by
    rw [← written]
    simp [toString]
  rw [digits]
  exact leads_run inWord found steps

theorem digits_in_word (value : Nat) :
    ∀ digit ∈ (toString value).toList, continuesWord digit = true := by
  obtain ⟨symbol, more, written, inWord, _⟩ := ExpressionToken.number_run value
  have digits : (toString value).toList = symbol :: more := by
    rw [← written]
    simp [toString]
  rw [digits]
  exact List.all_eq_true.1 inWord

/-- A line comment ends with its line and says nothing. -/
theorem passes_comment {text : List Char}
    (keeps : ∀ character ∈ text, ProgramText.IsInLine character) (reading : TableReading) :
    Passes ('/' :: '/' :: ' ' :: (text ++ ['\n'])) reading reading := by
  intro rest
  have inLine : ∀ character ∈ ' ' :: text, decide (character ≠ '\n') = true := by
    intro character member
    rcases List.mem_cons.1 member with rfl | inText
    · decide
    · simpa using (keeps character inText).1
  have line : (' ' :: (text ++ '\n' :: rest)).takeWhile (fun character => character ≠ '\n') =
      ' ' :: text := by
    apply ProgramText.take_while_append inLine
    intro character same
    cases same
    decide
  have length : commentLength? ('/' :: ' ' :: (text ++ '\n' :: rest)) =
      some ('/' :: ' ' :: text).length := by
    change some ((' ' :: (text ++ '\n' :: rest)).takeWhile
      fun character => character ≠ '\n').length.succ = _
    rw [line]
    rfl
  have plain : ∀ character ∈ '/' :: ' ' :: text,
      ProgramText.changesDirection character = false := by
    intro character member
    simp only [List.mem_cons] at member
    rcases member with rfl | rfl | inText
    · decide
    · decide
    · exact (keeps character inText).2
  calc
    readFrom 0 reading ('/' :: '/' :: ' ' :: (text ++ ['\n']) ++ rest)
      = readFrom 0 reading ('/' :: '/' :: ' ' :: (text ++ '\n' :: rest)) := by simp
    _ = readFrom ('/' :: ' ' :: text).length reading ('/' :: ' ' :: (text ++ '\n' :: rest)) := by
        rw [readFrom, if_neg (by decide), if_neg (by decide), if_pos rfl, length]
    _ = readFrom 0 reading ('\n' :: rest) := read_skipping plain reading ('\n' :: rest)
    _ = readFrom 0 reading rest := rfl

end TableReading

end PipelineWaves
