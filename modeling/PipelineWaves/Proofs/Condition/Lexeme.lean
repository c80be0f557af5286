import PipelineWaves.Condition.Token
import PipelineWaves.Proofs.Attempt
import PipelineWaves.Proofs.Program.Template

/-!
# Spellings and layouts of condition tokens

What characters spell a token, and where a spelling ends: a word and a name take every word
character that there is, so what follows them starts with none. A lexeme is read from a text
exactly when the text starts with a spelling that ends there.

A text is laid out as tokens when it is made of blank runs and, in turn, one spelling of each
token at the byte where the token is placed, every token as long as it can be. Layouts that
end before one another join, and a text that is laid out is scanned as its tokens.
-/

set_option autoImplicit false

namespace PipelineWaves

def IsWord (text : String) : Prop :=
  text.toList ≠ [] ∧ ∀ character ∈ text.toList, ConditionToken.isWordCharacter character = true

instance (text : String) : Decidable (IsWord text) :=
  have : Decidable (∀ character ∈ text.toList, ConditionToken.isWordCharacter character = true) :=
    List.decidableBAll _ _
  inferInstanceAs (Decidable (_ ∧ _))

def environmentMark : List Char := "env.".toList

/-- A word that is not read as a variable. -/
def IsPlainWord (text : String) : Prop := IsWord text ∧ ¬environmentMark <+: text.toList

instance (text : String) : Decidable (IsPlainWord text) :=
  inferInstanceAs (Decidable (_ ∧ _))

namespace ConditionToken

/-- A backslash before the quote in use and before a backslash. -/
def escape (quote character : Char) : List Char :=
  if character = quote ∨ character = '\\' then ['\\', character] else [character]

def quotes : List Char := ['\'', '"']

/-- The characters are a spelling of the token. -/
inductive Spells : ConditionToken → List Char → Prop where
  | word (text : String) : Spells (.word text) text.toList
  | dollar (name : String) : Spells (.variable name) ('$' :: name.toList)
  | environment (name : String) : Spells (.variable name) (environmentMark ++ name.toList)
  | literal (quote : Char) (isQuote : quote ∈ quotes) (text : String) :
      Spells (.literal text) (quote :: (text.toList.flatMap (escape quote) ++ [quote]))
  | equal : Spells .equal "==".toList
  | different : Spells .different "!=".toList
  | and : Spells .and "&&".toList
  | or : Spells .or "||".toList
  | not : Spells .not "!".toList
  | opening : Spells .opening "(".toList
  | closing : Spells .closing ")".toList

def IsLexical : ConditionToken → Prop
  | .word text => IsPlainWord text
  | .variable name => IsWord name
  | _ => True

/-- The characters stand for the text between two such quotes. Any character may have a
backslash before it, which makes a line feed of `n` and a tabulator of `t`. -/
inductive Quoted (quote : Char) : List Char → List Char → Prop where
  | nil : Quoted quote [] []
  | plain {character : Char} {body text : List Char}
      (free : ¬(character = quote ∨ character = '\\')) (later : Quoted quote body text) :
      Quoted quote (character :: body) (character :: text)
  | lineFeed {body text : List Char} (later : Quoted quote body text) :
      Quoted quote ('\\' :: 'n' :: body) ('\n' :: text)
  | tabulator {body text : List Char} (later : Quoted quote body text) :
      Quoted quote ('\\' :: 't' :: body) ('\t' :: text)
  | itself {character : Char} {body text : List Char} (other : character ∉ ['n', 't'])
      (later : Quoted quote body text) : Quoted quote ('\\' :: character :: body) (character :: text)

/-- The characters can be read as the token: besides its spellings, any literal in quotes. -/
inductive IsSpelledBy : ConditionToken → List Char → Prop where
  | written {token : ConditionToken} {characters : List Char} (lexical : token.IsLexical)
      (spells : Spells token characters) : IsSpelledBy token characters
  | quoted {quote : Char} {text : String} {body : List Char} (isQuote : quote ∈ quotes)
      (stands : Quoted quote body text.toList) :
      IsSpelledBy (.literal text) (quote :: (body ++ [quote]))

/-- A longer token would have the character next: words and names take every word character,
and an exclamation mark an equals sign. -/
def goesOnWith : ConditionToken → Char → Bool
  | .word _, character => isWordCharacter character
  | .variable _, character => isWordCharacter character
  | .not, character => character = '='
  | _, _ => false

/-- The token is as long as it can be when the characters follow it. -/
def EndsBefore (token : ConditionToken) (rest : List Char) : Prop :=
  ∀ character ∈ rest.head?, token.goesOnWith character = false

theorem ends_before_nil (token : ConditionToken) : token.EndsBefore [] :=
  fun _ isFirst => nomatch isFirst

theorem EndsBefore.of_append {token : ConditionToken} {rest more : List Char}
    (ends : token.EndsBefore (rest ++ more)) : token.EndsBefore rest := by
  cases rest with
  | nil => exact token.ends_before_nil
  | cons first rest => exact ends

theorem word_character_visible {character : Char} (inWord : isWordCharacter character = true) :
    Text.isBlank character = false := by
  simp only [isWordCharacter, Bool.or_eq_true, decide_eq_true_eq] at inWord
  rcases inWord with ((plain | rfl) | rfl) | rfl
  · exact Template.name_not_blank (by simp [Template.continuesName, plain])
  · decide
  · decide
  · decide

theorem ends_before_blank (token : ConditionToken) {first : Char} (rest : List Char)
    (blank : Text.isBlank first = true) : token.EndsBefore (first :: rest) := by
  have noWord : isWordCharacter first = false := by
    rw [Bool.eq_false_iff]
    intro inWord
    rw [word_character_visible inWord] at blank
    cases blank
  have notEqual : first ≠ '=' := by
    rintro rfl
    exact absurd blank (by decide)
  intro character isFirst
  cases isFirst
  cases token <;> simp [goesOnWith, noWord, notEqual]

theorem take_word {word rest : List Char}
    (inWord : ∀ character ∈ word, isWordCharacter character = true)
    (ends : ∀ character ∈ rest.head?, isWordCharacter character = false) :
    (word ++ rest).takeWhile isWordCharacter = word := by
  rw [List.takeWhile_append_of_pos inWord]
  cases rest with
  | nil => simp
  | cons first rest => simp [ends first rfl]

theorem after_word (characters : List Char) :
    ∀ character ∈ (characters.drop (characters.takeWhile isWordCharacter).length).head?,
      isWordCharacter character = false := by
  induction characters with
  | nil => exact fun _ isFirst => nomatch isFirst
  | cons first rest induction =>
      by_cases inWord : isWordCharacter first = true
      · simpa [inWord] using induction
      · simp [inWord]

theorem take_taken (characters : List Char) :
    characters.take (characters.takeWhile isWordCharacter).length =
      characters.takeWhile isWordCharacter :=
  List.prefix_iff_eq_take.1 (List.takeWhile_prefix _) |>.symm

theorem lexeme_word {first : Char} (rest : List Char) (inWord : isWordCharacter first = true) :
    lexeme first rest =
      (ofWord (first :: rest.takeWhile isWordCharacter)).map fun token =>
        (token, (rest.takeWhile isWordCharacter).length) := by
  have other (special : Char) (excluded : isWordCharacter special = false) : first ≠ special := by
    rintro rfl
    rw [excluded] at inWord
    cases inWord
  simp [lexeme, inWord, other '(' (by decide), other ')' (by decide), other '=' (by decide),
    other '!' (by decide), other '&' (by decide), other '|' (by decide), other '\'' (by decide),
    other '"' (by decide), other '$' (by decide)]

theorem of_word_plain {text : String} (plain : ¬environmentMark <+: text.toList) :
    ofWord text.toList = .ok (.word text) := by
  unfold ofWord
  split
  · next name marked => exact absurd (marked ▸ List.prefix_append environmentMark name) plain
  · rw [String.ofList_toList]

theorem environment_mark_in_word :
    ∀ character ∈ environmentMark, isWordCharacter character = true :=
  List.all_eq_true.1 (by decide)

theorem of_word_environment {name : String} (named : name.toList ≠ []) :
    ofWord (environmentMark ++ name.toList) = .ok (.variable name) := by
  have some : name.toList.isEmpty = false := List.isEmpty_eq_false_iff.2 named
  simp [environmentMark, ofWord, some]

/-- A whole word spells the token that it is read as, and it may end where a word does. -/
theorem of_word_spelled {characters : List Char} {token : ConditionToken}
    (some : characters ≠ []) (inWord : ∀ character ∈ characters, isWordCharacter character = true)
    (named : ofWord characters = .ok token) :
    token.IsSpelledBy characters ∧ token.goesOnWith = isWordCharacter := by
  unfold ofWord at named
  split at named
  · next name =>
      split at named
      · cases named
      · next notEmpty =>
          cases named
          refine ⟨?_, rfl⟩
          have spells := Spells.environment (String.ofList name)
          rw [String.toList_ofList] at spells
          refine .written ⟨?_, ?_⟩ spells
          · rw [String.toList_ofList]
            exact fun empty => notEmpty (List.isEmpty_iff.2 empty)
          · rw [String.toList_ofList]
            exact fun character member => inWord character (by simp [member])
  · next unmarked =>
      cases named
      refine ⟨?_, rfl⟩
      have spells := Spells.word (String.ofList characters)
      rw [String.toList_ofList] at spells
      refine .written ⟨⟨?_, ?_⟩, ?_⟩ spells
      · rwa [String.toList_ofList]
      · rwa [String.toList_ofList]
      · rw [String.toList_ofList]
        rintro ⟨name, rfl⟩
        exact unmarked name rfl

theorem Quoted.backslash {quote : Char} (character : Char) {body text : List Char}
    (later : Quoted quote body text) :
    Quoted quote ('\\' :: character :: body) (escaped character :: text) := by
  unfold escaped
  split
  · exact .lineFeed later
  · exact .tabulator later
  · next notLine notTab =>
      refine .itself ?_ later
      simp only [List.mem_cons, List.not_mem_nil, or_false, not_or]
      exact ⟨notLine, notTab⟩

theorem quote_ne_backslash {quote : Char} (isQuote : quote ∈ quotes) : quote ≠ '\\' := by
  rintro rfl
  exact absurd isQuote (by decide)

theorem quoted_text_closed {quote : Char} (isQuote : quote ∈ quotes) (rest : List Char) :
    quotedText quote (quote :: rest) = some ([], 1) := by
  cases rest <;> simp [quotedText, quote_ne_backslash isQuote]

theorem quoted_text_backslash (quote character : Char) (rest : List Char) :
    quotedText quote ('\\' :: character :: rest) =
      (quotedText quote rest).map fun found => (escaped character :: found.1, found.2 + 2) := by
  rw [quotedText, if_pos rfl]

theorem quoted_text_plain {quote character : Char} {rest : List Char} (more : rest ≠ [])
    (free : ¬(character = quote ∨ character = '\\')) :
    quotedText quote (character :: rest) =
      (quotedText quote rest).map fun found => (character :: found.1, found.2 + 1) := by
  obtain ⟨next, rest, rfl⟩ := List.exists_cons_of_ne_nil more
  rw [not_or] at free
  rw [quotedText, if_neg free.2, if_neg free.1]

/-- What stands for a text is read as it up to the closing quote. -/
theorem Quoted.read {quote : Char} (isQuote : quote ∈ quotes) {body text : List Char}
    (stands : Quoted quote body text) (rest : List Char) :
    quotedText quote (body ++ quote :: rest) = some (text, body.length + 1) := by
  induction stands with
  | nil => exact quoted_text_closed isQuote rest
  | plain free later induction =>
      rw [List.cons_append, quoted_text_plain (by simp) free, induction]
      rfl
  | lineFeed later induction =>
      rw [List.cons_append, List.cons_append, quoted_text_backslash, induction]
      rfl
  | tabulator later induction =>
      rw [List.cons_append, List.cons_append, quoted_text_backslash, induction]
      rfl
  | @itself character body text other later induction =>
      have kept : escaped character = character := by
        unfold escaped
        split
        · exact absurd other (by decide)
        · exact absurd other (by decide)
        · rfl
      rw [List.cons_append, List.cons_append, quoted_text_backslash, induction, kept]
      rfl

theorem quoted_of_read {quote : Char} {characters text : List Char} {taken : Nat}
    (read : quotedText quote characters = some (text, taken)) :
    ∃ body rest, characters = body ++ quote :: rest ∧ taken = body.length + 1 ∧
      Quoted quote body text := by
  fun_induction quotedText quote characters generalizing text taken with
  | case1 => cases read
  | case2 =>
      cases read
      exact ⟨[], [], rfl, rfl, .nil⟩
  | case3 character differs => cases read
  | case4 next rest induction =>
      obtain ⟨⟨later, count⟩, found, same⟩ := Option.map_eq_some_iff.1 read
      cases same
      obtain ⟨body, after, rfl, rfl, stands⟩ := induction found
      exact ⟨'\\' :: next :: body, after, rfl, rfl, stands.backslash next⟩
  | case5 next rest differs =>
      cases read
      exact ⟨[], next :: rest, rfl, rfl, .nil⟩
  | case6 character next rest notBackslash notQuote induction =>
      obtain ⟨⟨later, count⟩, found, same⟩ := Option.map_eq_some_iff.1 read
      cases same
      obtain ⟨body, after, split, rfl, stands⟩ := induction found
      refine ⟨character :: body, after, by rw [split, List.cons_append], rfl, .plain ?_ stands⟩
      exact not_or.2 ⟨notQuote, notBackslash⟩

/-- A literal as it is written stands for its text. -/
theorem quoted_escape {quote : Char} (isQuote : quote ∈ quotes) (text : List Char) :
    Quoted quote (text.flatMap (escape quote)) text := by
  induction text with
  | nil => exact .nil
  | cons character text induction =>
      rw [List.flatMap_cons, escape]
      split
      · next special =>
          have sign : character ∈ '\\' :: quotes := by
            rcases special with rfl | rfl
            · exact List.mem_cons_of_mem _ isQuote
            · exact List.mem_cons_self
          refine .itself ?_ induction
          intro letter
          simp only [quotes, List.mem_cons, List.not_mem_nil, or_false] at sign letter
          rcases letter with rfl | rfl <;> exact absurd sign (by decide)
      · next free => exact .plain free induction

theorem word_of_lexeme {first : Char} {rest : List Char} {token : ConditionToken} {taken : Nat}
    (inWord : isWordCharacter first = true) (read : lexeme first rest = .ok (token, taken)) :
    token.IsSpelledBy (first :: rest.take taken) ∧ token.EndsBefore (rest.drop taken) := by
  rw [lexeme_word rest inWord] at read
  obtain ⟨found, named, same⟩ := except_map_ok read
  cases same
  have characters : ∀ character ∈ first :: rest.takeWhile isWordCharacter,
      isWordCharacter character = true :=
    List.forall_mem_cons.2 ⟨inWord, List.all_eq_true.1 List.all_takeWhile⟩
  obtain ⟨spelled, goesOn⟩ := of_word_spelled (List.cons_ne_nil _ _) characters named
  rw [take_taken, EndsBefore, goesOn]
  exact ⟨spelled, after_word rest⟩

theorem name_of_lexeme {rest : List Char} {token : ConditionToken} {taken : Nat}
    (read : lexeme '$' rest = .ok (token, taken)) :
    token.IsSpelledBy ('$' :: rest.take taken) ∧ token.EndsBefore (rest.drop taken) := by
  obtain ⟨named, same⟩ := except_guard_ok read
  cases same
  have spells := Spells.dollar (String.ofList (rest.takeWhile isWordCharacter))
  rw [String.toList_ofList] at spells
  rw [take_taken]
  refine ⟨.written ⟨?_, ?_⟩ spells, after_word rest⟩
  · rw [String.toList_ofList]
    exact fun empty => named (List.isEmpty_iff.2 empty)
  · rw [String.toList_ofList]
    exact List.all_eq_true.1 List.all_takeWhile

theorem lexeme_quote {quote : Char} (isQuote : quote ∈ quotes) (rest : List Char) :
    lexeme quote rest =
      match quotedText quote rest with
      | some (text, taken) => .ok (.literal (String.ofList text), taken)
      | none => .error .unterminatedLiteral := by
  have known : quote = '\'' ∨ quote = '"' := by simpa [quotes] using isQuote
  rcases known with rfl | rfl <;> rfl

theorem literal_of_lexeme {quote : Char} (isQuote : quote ∈ quotes) {rest : List Char}
    {token : ConditionToken} {taken : Nat} (read : lexeme quote rest = .ok (token, taken)) :
    token.IsSpelledBy (quote :: rest.take taken) ∧ token.EndsBefore (rest.drop taken) := by
  rw [lexeme_quote isQuote] at read
  split at read
  · next text count found =>
      cases read
      obtain ⟨body, after, rfl, rfl, stands⟩ := quoted_of_read found
      have whole : (body ++ quote :: after).take (body.length + 1) = body ++ [quote] := by
        rw [List.append_cons, List.take_left' (by simp)]
      rw [whole]
      refine ⟨.quoted isQuote ?_, fun _ _ => rfl⟩
      rwa [String.toList_ofList]
  · cases read

theorem pair_of_read {next : Char} {rest : List Char} {token found : ConditionToken}
    {fault : ConditionFault} {taken : Nat}
    (read : (if rest.head? = some next then Except.ok (token, 1) else .error fault) =
      .ok (found, taken)) :
    token = found ∧ rest.take taken = [next] := by
  split at read
  · next follows =>
      cases read
      obtain ⟨after, rfl⟩ := List.head?_eq_some_iff.1 follows
      exact ⟨rfl, rfl⟩
  · cases read

/-- What is read is a spelling of its token at the front of the text, as long as it can be. -/
theorem spelled_of_lexeme {first : Char} {rest : List Char} {token : ConditionToken}
    {taken : Nat} (read : lexeme first rest = .ok (token, taken)) :
    token.IsSpelledBy (first :: rest.take taken) ∧ token.EndsBefore (rest.drop taken) := by
  by_cases inWord : isWordCharacter first = true
  · exact word_of_lexeme inWord read
  by_cases isQuote : first ∈ quotes
  · exact literal_of_lexeme isQuote read
  by_cases isDollar : first = '$'
  · subst isDollar
    exact name_of_lexeme read
  unfold lexeme at read
  split at read
  · next sign =>
      cases read
      subst sign
      exact ⟨.written trivial .opening, fun _ _ => rfl⟩
  split at read
  · next sign =>
      cases read
      subst sign
      exact ⟨.written trivial .closing, fun _ _ => rfl⟩
  split at read
  · next sign =>
      obtain ⟨rfl, second⟩ := pair_of_read read
      rw [second, sign]
      exact ⟨.written trivial .equal, fun _ _ => rfl⟩
  split at read
  · next sign =>
      subst sign
      split at read
      · next follows =>
          cases read
          obtain ⟨after, rfl⟩ := List.head?_eq_some_iff.1 follows
          exact ⟨.written trivial .different, fun _ _ => rfl⟩
      · next single =>
          cases read
          refine ⟨.written trivial .not, ?_⟩
          intro character isFirst
          simp only [goesOnWith, decide_eq_false_iff_not]
          rintro rfl
          exact single isFirst
  split at read
  · next sign =>
      obtain ⟨rfl, second⟩ := pair_of_read read
      rw [second, sign]
      exact ⟨.written trivial .and, fun _ _ => rfl⟩
  split at read
  · next sign =>
      obtain ⟨rfl, second⟩ := pair_of_read read
      rw [second, sign]
      exact ⟨.written trivial .or, fun _ _ => rfl⟩
  have notQuote : ¬(first = '\'' || first = '"') = true := by simpa [quotes] using isQuote
  rw [if_neg notQuote] at read
  cases read

/-- The characters are read as the token, whatever they are followed by that ends it. -/
def IsReadAs (characters : List Char) (token : ConditionToken) : Prop :=
  ∃ first more, characters = first :: more ∧ Text.isBlank first = false ∧
    ∀ rest, token.EndsBefore rest → lexeme first (more ++ rest) = .ok (token, more.length)

theorem word_is_read {token : ConditionToken} {characters : List Char} (some : characters ≠ [])
    (inWord : ∀ character ∈ characters, isWordCharacter character = true)
    (named : ofWord characters = .ok token) : IsReadAs characters token := by
  obtain ⟨first, more, rfl⟩ := List.exists_cons_of_ne_nil some
  obtain ⟨inFirst, inMore⟩ := List.forall_mem_cons.1 inWord
  refine ⟨first, more, rfl, word_character_visible inFirst, ?_⟩
  intro rest ends
  rw [EndsBefore, (of_word_spelled some inWord named).2] at ends
  rw [lexeme_word _ inFirst, take_word inMore ends, named]
  rfl

theorem name_is_read {name : String} (isWord : IsWord name) :
    IsReadAs ('$' :: name.toList) (.variable name) := by
  refine ⟨'$', name.toList, rfl, by decide, ?_⟩
  intro rest ends
  have some : name.toList.isEmpty = false := List.isEmpty_eq_false_iff.2 isWord.1
  have whole := take_word isWord.2 ends
  simp [lexeme, whole, some]

theorem literal_is_read {quote : Char} (isQuote : quote ∈ quotes) {text : String}
    {body : List Char} (stands : Quoted quote body text.toList) :
    IsReadAs (quote :: (body ++ [quote])) (.literal text) := by
  have known : quote = '\'' ∨ quote = '"' := by simpa [quotes] using isQuote
  have visible : Text.isBlank quote = false := by
    rcases known with rfl | rfl <;> decide
  refine ⟨quote, _, rfl, visible, ?_⟩
  intro rest _
  rw [List.append_assoc, List.singleton_append, lexeme_quote isQuote, stands.read isQuote]
  simp

theorem negation_sign_is_read : IsReadAs ['!'] .not := by
  refine ⟨'!', [], rfl, by decide, ?_⟩
  intro rest ends
  have single : rest.head? ≠ some '=' := by
    intro isEqual
    exact absurd (ends '=' isEqual) (by decide)
  simp [lexeme, single]

/-- A spelling at the front of a text is read as its token where the token can end. -/
theorem IsSpelledBy.is_read {token : ConditionToken} {characters : List Char}
    (spelled : token.IsSpelledBy characters) : IsReadAs characters token := by
  cases spelled with
  | quoted isQuote stands => exact literal_is_read isQuote stands
  | written lexical spells =>
      cases spells with
      | word text => exact word_is_read lexical.1.1 lexical.1.2 (of_word_plain lexical.2)
      | dollar name => exact name_is_read lexical
      | environment name =>
          refine word_is_read (by simp [environmentMark]) ?_ (of_word_environment lexical.1)
          exact List.forall_mem_append.2 ⟨environment_mark_in_word, lexical.2⟩
      | literal quote isQuote text => exact literal_is_read isQuote (quoted_escape isQuote text.toList)
      | equal => exact ⟨'=', ['='], rfl, by decide, fun _ _ => rfl⟩
      | different => exact ⟨'!', ['='], rfl, by decide, fun _ _ => rfl⟩
      | and => exact ⟨'&', ['&'], rfl, by decide, fun _ _ => rfl⟩
      | or => exact ⟨'|', ['|'], rfl, by decide, fun _ _ => rfl⟩
      | not => exact negation_sign_is_read
      | opening => exact ⟨'(', [], rfl, by decide, fun _ _ => rfl⟩
      | closing => exact ⟨')', [], rfl, by decide, fun _ _ => rfl⟩

/-- The characters from a byte on are blanks and spellings of the tokens, each at its place and
as long as it can be. Other characters follow them. -/
inductive LaidOut (following : List Char) : Nat → List PlacedToken → List Char → Prop where
  | blanks {position : Nat} {blanks : List Char}
      (blank : ∀ character ∈ blanks, Text.isBlank character = true) :
      LaidOut following position [] blanks
  | token {position : Nat} {tokens : List PlacedToken} {token : ConditionToken}
      {blanks characters rest : List Char}
      (blank : ∀ character ∈ blanks, Text.isBlank character = true)
      (spelled : token.IsSpelledBy characters) (ends : token.EndsBefore (rest ++ following))
      (later : LaidOut following (position + Text.byteLength (blanks ++ characters)) tokens rest) :
      LaidOut following position (⟨position + Text.byteLength blanks, token⟩ :: tokens)
        (blanks ++ (characters ++ rest))

namespace LaidOut

variable {following : List Char} {position : Nat} {tokens : List PlacedToken}

theorem nil : LaidOut following position [] [] :=
  .blanks fun _ member => nomatch member

theorem behind_blanks {blanks rest : List Char}
    (blank : ∀ character ∈ blanks, Text.isBlank character = true)
    (laid : LaidOut following (position + Text.byteLength blanks) tokens rest) :
    LaidOut following position tokens (blanks ++ rest) := by
  cases laid with
  | blanks more => exact .blanks (List.forall_mem_append.2 ⟨blank, more⟩)
  | @token _ others token inner characters rest more spelled ends later =>
      rw [Nat.add_assoc, ← Text.byte_length_append, ← List.append_assoc] at later
      rw [Nat.add_assoc, ← Text.byte_length_append, ← List.append_assoc]
      exact .token (List.forall_mem_append.2 ⟨blank, more⟩) spelled ends later

theorem single {token : ConditionToken} {characters : List Char}
    (spelled : token.IsSpelledBy characters) (ends : token.EndsBefore following) :
    LaidOut following position [⟨position, token⟩] characters := by
  have laid : LaidOut following position [⟨position + Text.byteLength [], token⟩]
      ([] ++ (characters ++ [])) :=
    .token (fun _ member => nomatch member) spelled ends nil
  simpa [Text.byteLength] using laid

theorem append {more : List PlacedToken} {before characters : List Char}
    (laid : LaidOut (characters ++ following) position tokens before)
    (later : LaidOut following (position + Text.byteLength before) more characters) :
    LaidOut following position (tokens ++ more) (before ++ characters) := by
  induction laid with
  | blanks blank => exact later.behind_blanks blank
  | token blank spelled ends rest induction =>
      rw [List.append_assoc, List.append_assoc, List.cons_append]
      refine .token blank spelled (by rwa [List.append_assoc]) (induction ?_)
      rwa [Nat.add_assoc, ← Text.byte_length_append, List.append_assoc]

theorem alone {characters : List Char} (laid : LaidOut following position tokens characters) :
    LaidOut [] position tokens characters := by
  induction laid with
  | blanks blank => exact .blanks blank
  | token blank spelled ends later induction =>
      refine .token blank spelled ?_ induction
      rw [List.append_nil]
      exact ends.of_append

end LaidOut

theorem scan_from_blanks {blanks : List Char}
    (blank : ∀ character ∈ blanks, Text.isBlank character = true) (position : Nat)
    (rest : List Char) :
    scanFrom position (blanks ++ rest) = scanFrom (position + Text.byteLength blanks) rest := by
  induction blanks generalizing position with
  | nil => rfl
  | cons first blanks induction =>
      obtain ⟨isBlank, others⟩ := List.forall_mem_cons.1 blank
      rw [List.cons_append, scanFrom, if_pos isBlank, induction others, Text.byteLength,
        Nat.add_assoc]

theorem scan_from_token {token : ConditionToken} {characters rest : List Char}
    (spelled : token.IsSpelledBy characters) (ends : token.EndsBefore rest) (position : Nat) :
    scanFrom position (characters ++ rest) =
      (scanFrom (position + Text.byteLength characters) rest).map (⟨position, token⟩ :: ·) := by
  obtain ⟨first, more, rfl, visible, read⟩ := spelled.is_read
  rw [List.cons_append, scanFrom, if_neg (by simp [visible]), read rest ends]
  simp only [List.drop_left, List.take_left, Text.byteLength, Nat.add_assoc]

theorem LaidOut.scan {position : Nat} {tokens : List PlacedToken} {characters : List Char}
    (laid : LaidOut [] position tokens characters) : scanFrom position characters = .ok tokens := by
  induction laid with
  | @blanks position blanks blank =>
      rw [← List.append_nil blanks, scan_from_blanks blank, scanFrom]
  | token blank spelled ends later induction =>
      rw [List.append_nil] at ends
      rw [scan_from_blanks blank, scan_from_token spelled ends, Nat.add_assoc,
        ← Text.byte_length_append, induction]
      rfl

end ConditionToken

end PipelineWaves
