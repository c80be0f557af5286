import Mathlib.Data.List.Chain
import PipelineWaves.Program.PackageName
import PipelineWaves.Proofs.Compilation
import PipelineWaves.Proofs.Files.Path
import PipelineWaves.Proofs.Graph.Plan
import PipelineWaves.Proofs.Program.Generation
import PipelineWaves.Proofs.Program.Substitution

/-!
# Names of packages

A package name is made of words: the runs of letters and digits of the pipeline's name, in
lower case and with single hyphens between them. A word is put in front where the first one
does not start with a letter. Such names are canonical, and one that consists of a single word
comes from this word alone, which is how a name that is reserved comes about.
-/

set_option autoImplicit false

namespace PipelineWaves.PackageName

/-- A character as it stands in a package name: a hyphen for all but letters and digits. -/
def spelled (character : Char) : Char :=
  if character.isAlphanum then character.toLower else '-'

def isWordCharacter (character : Char) : Bool := character.isLower || character.isDigit

theorem alphanumeric_is_ascii {character : Char} (alphanumeric : character.isAlphanum = true) :
    character.toNat < 128 := by
  simp only [Char.isAlphanum, Char.isAlpha, Char.isUpper, Char.isLower, Char.isDigit,
    Bool.or_eq_true, Bool.and_eq_true, decide_eq_true_eq, ge_iff_le, UInt32.le_iff_toNat_le]
    at alphanumeric
  have upper : 'Z'.val.toNat = 90 := rfl
  have lower : 'z'.val.toNat = 122 := rfl
  have digit : '9'.val.toNat = 57 := rfl
  have same : character.val.toNat = character.toNat := rfl
  omega

/-- What holds of all ASCII characters holds of every letter and digit. -/
theorem alphanumeric_induction (holds : Char → Prop) {character : Char}
    (ascii : ∀ code < 128, (Char.ofNat code).isAlphanum = true → holds (Char.ofNat code))
    (alphanumeric : character.isAlphanum = true) : holds character := by
  have known := ascii character.toNat (alphanumeric_is_ascii alphanumeric)
  rw [Char.ofNat_toNat] at known
  exact known alphanumeric

theorem lower_is_word_character {character : Char} (alphanumeric : character.isAlphanum = true) :
    isWordCharacter character.toLower = true :=
  alphanumeric_induction (fun character => isWordCharacter character.toLower = true)
    (by decide) alphanumeric

theorem word_character_alphanumeric {character : Char} (inWord : isWordCharacter character = true) :
    character.isAlphanum = true := by
  simp only [isWordCharacter, Char.isAlphanum, Char.isAlpha, Bool.or_eq_true] at inWord ⊢
  tauto

theorem spelled_word_character {character : Char} (inWord : isWordCharacter character = true) :
    spelled character = character := by
  have lower := alphanumeric_induction
    (fun character => isWordCharacter character = true → character.toLower = character)
    (by decide) (word_character_alphanumeric inWord)
  rw [spelled, if_pos (word_character_alphanumeric inWord), lower inWord]

theorem word_character_ne_hyphen {character : Char} (inWord : isWordCharacter character = true) :
    character ≠ '-' := by
  rintro rfl
  exact absurd inWord (by decide)

theorem lower_is_no_digit {character : Char} (lower : character.isLower = true) :
    character.isDigit = false := by
  have inWord : isWordCharacter character = true := by rw [isWordCharacter, lower, Bool.true_or]
  exact alphanumeric_induction
    (fun character => character.isLower = true → character.isDigit = false)
    (by decide) (word_character_alphanumeric inWord) lower

theorem spelled_cases (character : Char) :
    spelled character = '-' ∨ isWordCharacter (spelled character) = true := by
  unfold spelled
  split
  · rename_i alphanumeric
    exact .inr (lower_is_word_character alphanumeric)
  · exact .inl rfl

theorem spelled_spelled (character : Char) : spelled (spelled character) = spelled character := by
  rcases spelled_cases character with hyphen | inWord
  · rw [hyphen]
    decide
  · exact spelled_word_character inWord

/-- The runs of letters and digits of a text, in lower case. -/
def words (text : List Char) : List (List Char) :=
  ((text.map spelled).splitOn '-').filter fun word => word ≠ []

structure IsWord (word : List Char) : Prop where
  nonempty : word ≠ []
  characters : ∀ character ∈ word, isWordCharacter character = true

/-- Words with single hyphens between them. -/
def joined (words : List (List Char)) : List Char := ['-'].intercalate words

theorem words_are_words {text word : List Char} (member : word ∈ words text) : IsWord word := by
  obtain ⟨inSplit, nonempty⟩ := List.mem_filter.1 member
  obtain ⟨noHyphen, within⟩ := FilePath.part_of_split '-' _ word inSplit
  refine ⟨by simpa using nonempty, ?_⟩
  intro character inWord
  obtain ⟨source, _, rfl⟩ := List.mem_map.1 (within inWord)
  rcases spelled_cases source with hyphen | isWord
  · rw [hyphen] at inWord
    exact absurd inWord noHyphen
  · exact isWord

theorem IsWord.no_hyphen {word : List Char} (isWord : IsWord word) : '-' ∉ word := by
  intro member
  exact word_character_ne_hyphen (isWord.characters '-' member) rfl

theorem joined_cons (first : List Char) (rest : List (List Char)) :
    joined (first :: rest) = first ++ rest.flatMap fun word => '-' :: word := by
  unfold joined
  induction rest generalizing first with
  | nil => simp
  | cons next rest induction =>
      rw [List.intercalate_cons_cons, induction]
      simp

theorem hyphenated_cons (kept rest : List Char) (character : Char) :
    hyphenated kept (character :: rest) =
      if spelled character = '-' ∧ kept.head? = some '-' then hyphenated kept rest
      else hyphenated (spelled character :: kept) rest := by
  rw [hyphenated, spelled]
  by_cases alphanumeric : character.isAlphanum = true
  · have noHyphen := word_character_ne_hyphen (lower_is_word_character alphanumeric)
    simp [alphanumeric, noHyphen]
  · simp [alphanumeric]

theorem hyphenated_spelled (kept text : List Char) :
    hyphenated kept (text.map spelled) = hyphenated kept text := by
  induction text generalizing kept with
  | nil => rfl
  | cons character rest induction =>
      rw [List.map_cons, hyphenated_cons, hyphenated_cons, spelled_spelled, induction, induction]

theorem hyphenated_word {word : List Char}
    (characters : ∀ character ∈ word, isWordCharacter character = true) (kept rest : List Char) :
    hyphenated kept (word ++ rest) = hyphenated (word.reverse ++ kept) rest := by
  induction word generalizing kept with
  | nil => rfl
  | cons character word induction =>
      have inWord := characters character List.mem_cons_self
      have noHyphen : ¬(character = '-' ∧ kept.head? = some '-') :=
        fun hyphen => word_character_ne_hyphen inWord hyphen.1
      rw [List.cons_append, hyphenated_cons, spelled_word_character inWord, if_neg noHyphen,
        induction fun other member => characters other (List.mem_cons_of_mem _ member)]
      simp

/-- After a gap there is one hyphen, whether there was one before or not. -/
theorem hyphenated_gap {kept base : List Char} (either : kept = base ∨ kept = '-' :: base)
    (bare : base.head? ≠ some '-') (rest : List Char) :
    hyphenated kept ('-' :: rest) = hyphenated ('-' :: base) rest := by
  have same : spelled '-' = '-' := by decide
  rw [hyphenated_cons, same]
  rcases either with rfl | rfl
  · rw [if_neg fun hyphen => bare hyphen.2]
  · rw [if_pos ⟨rfl, rfl⟩]

theorem last_of_word {word : List Char} (isWord : IsWord word) (before : List Char) :
    (word.reverse ++ before).head? ≠ some '-' := by
  have nonempty : word.reverse ≠ [] := by simpa using isWord.nonempty
  rw [List.head?_append_of_ne_nil _ nonempty]
  intro hyphen
  exact isWord.no_hyphen (List.mem_reverse.1 (List.mem_of_mem_head? hyphen))

theorem drop_hyphens_word {word : List Char} (isWord : IsWord word) (rest : List Char) :
    (word ++ rest).dropWhile isHyphen = word ++ rest := by
  cases word with
  | nil => exact absurd rfl isWord.nonempty
  | cons first word =>
      have noHyphen : isHyphen first = false :=
        decide_eq_false (word_character_ne_hyphen (isWord.characters first List.mem_cons_self))
      rw [List.cons_append, List.dropWhile_cons_of_neg (by simp [noHyphen])]

/-- Of the pieces behind gaps the empty ones leave nothing, but for a hyphen at the end. -/
theorem hyphenated_pieces {pieces : List (List Char)}
    (characters : ∀ piece ∈ pieces, ∀ character ∈ piece, isWordCharacter character = true)
    {kept base : List Char} (either : kept = base ∨ kept = '-' :: base)
    (bare : base.head? ≠ some '-') :
    (hyphenated kept (pieces.flatMap fun piece => '-' :: piece)).dropWhile isHyphen =
      ((pieces.filter fun piece => piece ≠ []).flatMap fun word => '-' :: word).reverse
        ++ base := by
  induction pieces generalizing kept base with
  | nil =>
      have noHyphens : base.dropWhile isHyphen = base := by
        cases base with
        | nil => rfl
        | cons first base =>
            have other : isHyphen first = false :=
              decide_eq_false fun same => bare (by rw [same, List.head?_cons])
            rw [List.dropWhile_cons_of_neg (by simp [other])]
      rcases either with rfl | rfl
      · exact noHyphens
      · exact noHyphens
  | cons piece rest induction =>
      have later : ∀ other ∈ rest, ∀ character ∈ other, isWordCharacter character = true :=
        fun other member => characters other (List.mem_cons_of_mem _ member)
      rw [List.flatMap_cons, List.cons_append, hyphenated_gap either bare]
      by_cases empty : piece = []
      · rw [empty, List.nil_append, induction later (.inr rfl) bare]
        simp
      · have isWord : IsWord piece := ⟨empty, characters piece List.mem_cons_self⟩
        rw [hyphenated_word isWord.characters,
          induction later (.inl rfl) (last_of_word isWord ('-' :: base))]
        simp [empty]

theorem drop_hyphens_joined {words : List (List Char)} (areWords : ∀ word ∈ words, IsWord word) :
    (words.flatMap fun word => '-' :: word).dropWhile isHyphen = joined words := by
  cases words with
  | nil => rfl
  | cons first rest =>
      rw [List.flatMap_cons, List.cons_append, List.dropWhile_cons_of_pos (by decide),
        drop_hyphens_word (areWords first List.mem_cons_self), joined_cons]

/-- A trimmed name is its words with single hyphens between them. -/
theorem trimmed_eq_joined (text : List Char) : trimmed text = joined (words text) := by
  have areWords : ∀ word ∈ words text, IsWord word := fun _ member => words_are_words member
  obtain ⟨first, rest, pieces⟩ := List.exists_cons_of_ne_nil
    (List.splitOn_ne_nil '-' (text.map spelled))
  have characters : ∀ piece ∈ first :: rest, ∀ character ∈ piece,
      isWordCharacter character = true := by
    intro piece member character inPiece
    refine (areWords piece ?_).characters character inPiece
    rw [words, pieces]
    exact List.mem_filter.2 ⟨member, decide_eq_true (List.ne_nil_of_mem inPiece)⟩
  have whole : text.map spelled = first ++ rest.flatMap fun piece => '-' :: piece := by
    rw [← joined_cons, joined, ← pieces, List.intercalate_splitOn]
  have bare : first.reverse.head? ≠ some '-' := by
    intro hyphen
    have member := List.mem_reverse.1 (List.mem_of_mem_head? hyphen)
    exact word_character_ne_hyphen (characters first List.mem_cons_self _ member) rfl
  have later : ∀ piece ∈ rest, ∀ character ∈ piece, isWordCharacter character = true :=
    fun piece member => characters piece (List.mem_cons_of_mem _ member)
  have ended := hyphenated_pieces later (Or.inl (Eq.refl first.reverse)) bare
  rw [words, pieces] at areWords ⊢
  unfold trimmed
  rw [← hyphenated_spelled, whole, hyphenated_word (characters first List.mem_cons_self),
    List.append_nil, ended, List.reverse_append, List.reverse_reverse, List.reverse_reverse]
  by_cases empty : first = []
  · rw [List.filter_cons_of_neg (by simpa using empty)] at areWords ⊢
    rw [empty, List.nil_append, drop_hyphens_joined areWords]
  · rw [List.filter_cons_of_pos (by simpa using empty)] at areWords ⊢
    rw [drop_hyphens_word (areWords first List.mem_cons_self), joined_cons]

def startsWithDigit : List Char → Bool
  | [] => false
  | first :: _ => first.isDigit

/-- The words of a name, with one put in front if there is none that starts with a letter. -/
def packageWords (text : List Char) : List (List Char) :=
  match words text with
  | [] => ["pipeline".toList]
  | first :: rest =>
      if startsWithDigit first then "pipeline".toList :: first :: rest else first :: rest

/-- Names that clash with the directories of a build. -/
def reserved : List String := ["build", "deps", "examples", "incremental"]

structure IsPackageName (name : String) : Prop where
  starts : ∃ first rest, name.toList = first :: rest ∧ first.isLower = true
  characters : ∀ character ∈ name.toList,
    character.isLower = true ∨ character.isDigit = true ∨ character = '-'
  ends : name.toList.getLast? ≠ some '-'
  single_hyphens : name.toList.IsChain fun left right => left ≠ '-' ∨ right ≠ '-'

theorem of_eq_joined (name : String) :
    (of name).toList = joined (packageWords name.toList) := by
  unfold of packageWords
  rw [trimmed_eq_joined]
  cases found : words name.toList with
  | nil => rfl
  | cons word rest =>
      cases word with
      | nil =>
          have member : [] ∈ words name.toList := found ▸ List.mem_cons_self
          exact absurd rfl (words_are_words member).nonempty
      | cons first word =>
          have starts : startsWithDigit (first :: word) = first.isDigit := rfl
          rw [joined_cons, List.cons_append]
          dsimp only
          rw [starts]
          by_cases digit : first.isDigit = true
          · rw [if_pos digit, if_pos digit, joined_cons, List.flatMap_cons, String.toList_append]
            simp
          · rw [if_neg digit, if_neg digit, joined_cons, List.cons_append, String.toList_ofList]

theorem package_words_are_words {text word : List Char} (member : word ∈ packageWords text) :
    IsWord word := by
  have pipeline : IsWord "pipeline".toList := ⟨by simp, by simp [isWordCharacter, Char.isLower]⟩
  unfold packageWords at member
  split at member
  · exact List.mem_singleton.1 member ▸ pipeline
  · rename_i first rest found
    split at member
    · rcases List.mem_cons.1 member with rfl | inText
      · exact pipeline
      · exact words_are_words (found ▸ inText)
    · exact words_are_words (found ▸ member)

/-- The first word of a package name starts with a letter. -/
theorem package_words_start (text : List Char) :
    ∃ first word rest, packageWords text = (first :: word) :: rest ∧ first.isLower = true := by
  unfold packageWords
  split
  · exact ⟨'p', "ipeline".toList, [], rfl, by decide⟩
  · rename_i word rest found
    split
    · exact ⟨'p', "ipeline".toList, word :: rest, rfl, by decide⟩
    · rename_i noDigit
      have isWord : IsWord word := words_are_words (found ▸ List.mem_cons_self)
      cases word with
      | nil => exact absurd rfl isWord.nonempty
      | cons first word =>
          have inWord := isWord.characters first List.mem_cons_self
          refine ⟨first, word, rest, rfl, ?_⟩
          rw [isWordCharacter, Bool.or_eq_true] at inWord
          exact inWord.resolve_right noDigit

theorem package_words_ne_nil (text : List Char) : packageWords text ≠ [] := by
  obtain ⟨first, word, rest, starts, _⟩ := package_words_start text
  rw [starts]
  exact List.cons_ne_nil _ _

theorem joined_singleton (word : List Char) : joined [word] = word := by
  rw [joined_cons, List.flatMap_nil, List.append_nil]

theorem joined_cons_cons (first next : List Char) (rest : List (List Char)) :
    joined (first :: next :: rest) = first ++ '-' :: joined (next :: rest) := by
  rw [joined_cons, joined_cons, List.flatMap_cons, List.cons_append]

theorem IsWord.single_hyphens {word : List Char} (isWord : IsWord word) :
    word.IsChain fun left right => left ≠ '-' ∨ right ≠ '-' := by
  apply List.Pairwise.isChain
  rw [List.pairwise_iff_forall_sublist]
  intro left right inWord
  left
  rintro rfl
  exact isWord.no_hyphen (inWord.subset List.mem_cons_self)

/-- A word stands at the start of what it is joined to, and there it has no hyphen. -/
theorem IsWord.joined_starts {word : List Char} (isWord : IsWord word)
    (rest : List (List Char)) :
    ∃ first others, joined (word :: rest) = first :: others ∧ first ≠ '-' := by
  cases word with
  | nil => exact absurd rfl isWord.nonempty
  | cons first word =>
      have inWord := isWord.characters first List.mem_cons_self
      exact ⟨first, _, joined_cons _ _, word_character_ne_hyphen inWord⟩

section Joined

variable {parts : List (List Char)} (areWords : ∀ word ∈ parts, IsWord word)
include areWords

theorem joined_characters :
    ∀ character ∈ joined parts, character = '-' ∨ isWordCharacter character = true := by
  cases parts with
  | nil => simp [joined]
  | cons first rest =>
      intro character member
      rw [joined_cons] at member
      rcases List.mem_append.1 member with inFirst | later
      · exact .inr ((areWords first List.mem_cons_self).characters character inFirst)
      · obtain ⟨word, inRest, inWord⟩ := List.mem_flatMap.1 later
        rcases List.mem_cons.1 inWord with hyphen | inWord
        · exact .inl hyphen
        · exact .inr
            ((areWords word (List.mem_cons_of_mem _ inRest)).characters character inWord)

/-- Words are read back from what they are joined to. -/
theorem words_joined (some : parts ≠ []) : words (joined parts) = parts := by
  have noHyphen : ∀ word ∈ parts, '-' ∉ word := fun word member => (areWords word member).no_hyphen
  have same : (joined parts).map spelled = joined parts := by
    refine (List.map_congr_left fun character member => ?_).trans (List.map_id _)
    rcases joined_characters areWords character member with hyphen | inWord
    · rw [hyphen]
      decide
    · exact spelled_word_character inWord
  rw [words, same, joined, List.splitOn_intercalate '-' noHyphen some, List.filter_eq_self]
  intro word member
  exact decide_eq_true (areWords word member).nonempty

theorem joined_single_hyphens :
    (joined parts).IsChain fun left right => left ≠ '-' ∨ right ≠ '-' := by
  induction parts with
  | nil => exact List.isChain_nil
  | cons first rest induction =>
      have isWord := areWords first List.mem_cons_self
      have later : ∀ word ∈ rest, IsWord word :=
        fun word member => areWords word (List.mem_cons_of_mem _ member)
      cases rest with
      | nil =>
          rw [joined_singleton]
          exact isWord.single_hyphens
      | cons next rest =>
          obtain ⟨start, others, starts, noHyphen⟩ :=
            (later next List.mem_cons_self).joined_starts rest
          have chain := induction later
          rw [joined_cons_cons, List.isChain_append]
          refine ⟨isWord.single_hyphens, ?_, ?_⟩
          · rw [starts] at chain ⊢
            exact List.isChain_cons_cons.2 ⟨.inr noHyphen, chain⟩
          · intro left last _ _
            left
            rintro rfl
            exact isWord.no_hyphen (List.mem_of_mem_getLast? last)

theorem joined_ends : (joined parts).getLast? ≠ some '-' := by
  induction parts with
  | nil => simp [joined]
  | cons first rest induction =>
      have later : ∀ word ∈ rest, IsWord word :=
        fun word member => areWords word (List.mem_cons_of_mem _ member)
      cases rest with
      | nil =>
          rw [joined_singleton]
          intro hyphen
          exact (areWords first List.mem_cons_self).no_hyphen (List.mem_of_getLast? hyphen)
      | cons next rest =>
          obtain ⟨start, others, starts, _⟩ :=
            (later next List.mem_cons_self).joined_starts rest
          have ends := induction later
          rw [starts] at ends
          rw [joined_cons_cons, starts, List.getLast?_append_of_ne_nil _ (List.cons_ne_nil _ _),
            List.getLast?_cons_cons]
          exact ends

end Joined

theorem of_is_package_name (name : String) : IsPackageName (of name) := by
  have areWords : ∀ word ∈ packageWords name.toList, IsWord word :=
    fun _ member => package_words_are_words member
  constructor
  · obtain ⟨first, word, rest, starts, isLower⟩ := package_words_start name.toList
    exact ⟨first, _, by rw [of_eq_joined, starts, joined_cons, List.cons_append], isLower⟩
  · rw [of_eq_joined]
    intro character member
    rcases joined_characters areWords character member with hyphen | inWord
    · exact .inr (.inr hyphen)
    · rw [isWordCharacter, Bool.or_eq_true] at inWord
      exact inWord.imp_right .inl
  · rw [of_eq_joined]
    exact joined_ends areWords
  · rw [of_eq_joined]
    exact joined_single_hyphens areWords

theorem words_of (name : String) : words (of name).toList = packageWords name.toList := by
  rw [of_eq_joined]
  exact words_joined (fun _ member => package_words_are_words member) (package_words_ne_nil _)

theorem package_words_of (name : String) :
    packageWords (of name).toList = packageWords name.toList := by
  obtain ⟨first, word, rest, starts, isLower⟩ := package_words_start name.toList
  have noDigit : startsWithDigit (first :: word) = false := lower_is_no_digit isLower
  rw [packageWords, words_of, starts]
  simp [noDigit]

theorem of_of (name : String) : of (of name) = of name := by
  apply String.toList_inj.1
  rw [of_eq_joined (of name), package_words_of, of_eq_joined]

/-- A single word is the package name of the names that have this word and no other. -/
theorem of_eq_word_iff {name word : String} (isWord : IsWord word.toList)
    (starts : startsWithDigit word.toList = false) (other : word ≠ "pipeline") :
    of name = word ↔ words name.toList = [word.toList] := by
  constructor
  · rintro rfl
    have single : words (joined [(of name).toList]) = [(of name).toList] :=
      words_joined (by simpa using isWord) (List.cons_ne_nil _ _)
    rw [joined_singleton, words_of] at single
    unfold packageWords at single
    split at single
    · exact absurd (String.toList_inj.1 (List.singleton_inj.1 single)).symm other
    · rename_i first rest found
      rw [found]
      split at single
      · simp at single
      · exact single
  · intro found
    apply String.toList_inj.1
    rw [of_eq_joined, packageWords, found]
    simp [starts, joined_singleton]

theorem reserved_iff (name : String) :
    of name ∈ reserved ↔ ∃ word ∈ reserved, words name.toList = [word.toList] := by
  have fits : ∀ word ∈ reserved, word.toList ≠ [] ∧ word.toList.all isWordCharacter = true ∧
      startsWithDigit word.toList = false ∧ word ≠ "pipeline" := by decide +kernel
  have each : ∀ word ∈ reserved, of name = word ↔ words name.toList = [word.toList] := by
    intro word member
    obtain ⟨nonempty, characters, starts, other⟩ := fits word member
    exact of_eq_word_iff ⟨nonempty, List.all_eq_true.1 characters⟩ starts other
  constructor
  · intro isReserved
    exact ⟨of name, isReserved, (each _ isReserved).1 rfl⟩
  · rintro ⟨word, member, found⟩
    rw [(each word member).2 found]
    exact member

end PackageName

namespace ProgramFragment

open Template

/-- The manifest of a package with one program, behind a comment. -/
def manifestText (comment package : String) : String :=
  terminated
    ["# Generated by stepforge from pipeline: " ++ comment,
      "[package]",
      "name = \"" ++ package ++ "\"",
      "version = \"0.1.0\"",
      "edition = \"2021\"",
      "publish = false",
      "",
      "[[bin]]",
      "name = \"" ++ package ++ "\"",
      "path = \"src/main.rs\"",
      "",
      "[dependencies]",
      "",
      "[workspace]"]

def commentLine : String :=
  "# Generated by stepforge from pipeline: \x7b\x7b pipeline_comment \x7d\x7d"

def nameLine : String := "name = \"\x7b\x7b package_name \x7d\x7d\""

def packageLines : List String :=
  ["version = \"0.1.0\"", "edition = \"2021\"", "publish = false", "", "[[bin]]"]

def dependencyLines : List String :=
  ["path = \"src/main.rs\"", "", "[dependencies]", "", "[workspace]"]

theorem manifest_lines : manifest = terminated (commentLine :: (["[package]"] ++
    (nameLine :: (packageLines ++ (nameLine :: dependencyLines))))) := by
  rw [manifest_eq]
  rfl

theorem comment_line_filled {values : List (String × String)} {comment : String}
    (found : values.lookup "pipeline_comment" = some comment) (lines : List String) :
    filled values (terminated (commentLine :: lines)) =
      "# Generated by stepforge from pipeline: " ++ comment ++ "\n"
        ++ filled values (terminated lines) := by
  have split : holeOf (commentLine.toList ++ ['\n']) =
      some ("# Generated by stepforge from pipeline: ".toList, "pipeline_comment", ['\n']) := by
    decide
  have line := filled_hole_line split (by decide) (by decide) found lines
  rwa [String.ofList_toList, String.ofList_toList] at line

theorem name_line_filled {values : List (String × String)} {package : String}
    (found : values.lookup "package_name" = some package) (lines : List String) :
    filled values (terminated (nameLine :: lines)) =
      "name = \"" ++ package ++ "\"\n" ++ filled values (terminated lines) := by
  have split : holeOf (nameLine.toList ++ ['\n']) =
      some ("name = \"".toList, "package_name", ['"', '\n']) := by
    decide
  have line := filled_hole_line split (by decide) (by decide) found lines
  rwa [String.ofList_toList, String.ofList_toList] at line

theorem manifest_filled {values : List (String × String)} {comment package : String}
    (comments : values.lookup "pipeline_comment" = some comment)
    (names : values.lookup "package_name" = some package) :
    filled values manifest = manifestText comment package := by
  have heading : LineKeys ["[package]"] [] := .plain _ (by decide) .nil
  have between : LineKeys packageLines [] := by
    unfold packageLines
    repeat refine .plain _ (by decide) ?_
    exact .nil
  have ending : LineKeys dependencyLines [] := by
    unfold dependencyLines
    repeat refine .plain _ (by decide) ?_
    exact .nil
  rw [manifest_lines, comment_line_filled comments, filled_plain_lines values heading,
    name_line_filled names, filled_plain_lines values between, name_line_filled names,
    filled_plain values ending.keys_eq, ← String.toList_inj]
  simp [manifestText, terminated, packageLines, dependencyLines]

end ProgramFragment

theorem manifest_of_files (packageName manifest main : String) :
    GeneratedProgram.manifest? ⟨packageName, [⟨GeneratedProgram.manifestPath, manifest⟩,
      ⟨GeneratedProgram.mainPath, main⟩]⟩ = some manifest := by
  simp [GeneratedProgram.manifest?, GeneratedProgram.file?, FilePath.sameAs]

/-- The package of a program is named for its pipeline, and so is the program in it. -/
theorem generated_manifest {compiled : CompiledPipeline} {program : GeneratedProgram}
    (generated : compiled.generate = .ok program) :
    program.packageName = PackageName.of compiled.pipeline.name ∧
      program.manifest? = some (ProgramFragment.manifestText
        (ProgramText.comment compiled.pipeline.name) (PackageName.of compiled.pipeline.name)) := by
  obtain ⟨values, written, _⟩ := ProgramTables.values_of_program generated
  have files := ProgramTables.program_of_values written
  obtain ⟨_, _, _, _, _, _, _, _, _, _, rfl⟩ := ProgramTables.values_written written
  have same : program = _ := Except.ok.inj (generated.symm.trans files)
  rw [same, manifest_of_files]
  refine ⟨rfl, congrArg some ?_⟩
  exact ProgramFragment.manifest_filled rfl rfl

/-- Every name gives a package name, which gives itself. It is not reserved, unless a reserved
word is the only word of the name. The manifest of a pipeline of this name has the package name
for the package and for its program. -/
theorem package_names_are_canonical (name : String) :
    PackageName.IsPackageName (PackageName.of name) ∧
      PackageName.of (PackageName.of name) = PackageName.of name ∧
      (PackageName.of name ∉ PackageName.reserved ↔
        ∀ word ∈ PackageName.reserved, PackageName.words name.toList ≠ [word.toList]) ∧
      ∀ {compiled : CompiledPipeline} {program : GeneratedProgram},
        compiled.pipeline.name = name → compiled.generate = .ok program →
          program.packageName = PackageName.of name ∧
          program.manifest? = some
            (ProgramFragment.manifestText (ProgramText.comment name) (PackageName.of name)) ∧
          ∀ character ∈ (ProgramText.comment name).toList, ProgramText.IsPrinted character := by
  refine ⟨PackageName.of_is_package_name name, PackageName.of_of name, ?_, ?_⟩
  · rw [PackageName.reserved_iff]
    simp
  · rintro compiled program rfl generated
    obtain ⟨named, manifest⟩ := generated_manifest generated
    exact ⟨named, manifest, ProgramText.comment_printed _⟩

theorem release_pipeline_package :
    ∃ compiled program, CompiledPipeline.compile releasePipeline = .ok compiled ∧
      compiled.generate = .ok program ∧ program.packageName = "release" ∧
      program.manifest? = some (ProgramFragment.manifestText "release" "release") := by
  have accepted : ∃ compiled, CompiledPipeline.compile releasePipeline = .ok compiled ∧
      (ProgramTables.of compiled).values.isOk = true :=
    ⟨_, by cbv, by decide +kernel⟩
  obtain ⟨compiled, compiles, canWrite⟩ := accepted
  obtain ⟨program, generated⟩ := ProgramTables.exists_program canWrite
  have samePipeline := (CompiledPipeline.compile_parts compiles).1
  have sameName : compiled.pipeline.name = "release" := by rw [samePipeline]; rfl
  obtain ⟨named, manifest, _⟩ :=
    (package_names_are_canonical "release").2.2.2 sameName generated
  have canonical : PackageName.of "release" = "release" := by decide +kernel
  have comment : ProgramText.comment "release" = "release" := by decide +kernel
  rw [canonical] at named manifest
  rw [comment] at manifest
  exact ⟨compiled, program, compiles, generated, named, manifest⟩

/-- The one word of this name is the name of a directory of the build. -/
theorem build_pipeline_takes_reserved_name :
    PackageName.of "build" = "build" ∧
      ¬∀ name, PackageName.IsPackageName (PackageName.of name) ∧
        PackageName.of (PackageName.of name) = PackageName.of name ∧
        PackageName.of name ∉ PackageName.reserved := by
  have own : PackageName.of "build" = "build" := by decide +kernel
  refine ⟨own, fun every => ?_⟩
  exact (every "build").2.2 (by rw [own]; decide)

end PipelineWaves
