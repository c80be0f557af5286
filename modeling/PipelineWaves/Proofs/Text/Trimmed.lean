import Mathlib.Data.List.TakeWhile
import PipelineWaves.Text.Blank

/-!
# Trimmed texts

Trimming takes blanks from the ends of a text and no other character. It leaves nothing
exactly when the text is blank, and of a text with blanks around it what they stand around.
-/

set_option autoImplicit false

namespace PipelineWaves

theorem mem_drop_while {Item : Type} {test : Item → Bool} {item : Item} (fails : test item = false)
    (items : List Item) : item ∈ items.dropWhile test ↔ item ∈ items := by
  constructor
  · exact fun member => (List.dropWhile_sublist test).subset member
  · intro member
    rw [← List.takeWhile_append_dropWhile (p := test) (l := items)] at member
    refine (List.mem_append.1 member).resolve_left fun inTaken => ?_
    rw [List.all_eq_true.1 List.all_takeWhile item inTaken] at fails
    cases fails

theorem mem_trim_blank {character : Char} (visible : Text.isBlank character = false)
    (text : String) : character ∈ (Text.trimBlank text).toList ↔ character ∈ text.toList := by
  rw [Text.trimBlank, String.toList_ofList, Text.trimBlankChars, Text.dropTrailing,
    List.mem_reverse, mem_drop_while visible, List.mem_reverse, mem_drop_while visible]

namespace Text

theorem trim_blank_eq_empty {text : String} : trimBlank text = "" ↔ isBlankText text = true := by
  have split := List.takeWhile_append_dropWhile (p := isBlank) (l := text.toList)
  have leading : (text.toList.takeWhile isBlank).all isBlank = true := List.all_takeWhile
  rw [isBlankText, ← split, List.all_append, leading, Bool.true_and, trimBlank, trimBlankChars,
    dropTrailing, String.ofList_eq_empty_iff, List.reverse_eq_nil_iff, List.dropWhile_eq_nil_iff]
  simp

theorem not_blank_iff {text : String} :
    isBlankText text = false ↔ ∃ character ∈ text.toList, isBlank character = false := by
  rw [isBlankText, List.all_eq_false]
  simp

/-- No blank at either end. -/
def IsTrimmed (text : String) : Prop :=
  (∀ character ∈ text.toList.head?, isBlank character = false) ∧
    ∀ character ∈ text.toList.getLast?, isBlank character = false

instance (text : String) : Decidable (IsTrimmed text) :=
  have (edge : Option Char) : Decidable (∀ character ∈ edge, isBlank character = false) :=
    Option.decidableForallMem edge
  inferInstanceAs (Decidable (_ ∧ _))

theorem visible_after_drop (characters : List Char) :
    ∀ character ∈ (characters.dropWhile isBlank).head?, isBlank character = false := by
  intro character isFirst
  have first := List.head?_dropWhile_not isBlank characters
  rw [isFirst] at first
  exact first

theorem drop_blanks {blanks rest : List Char} (blank : blanks.all isBlank = true)
    (visible : ∀ character ∈ rest.head?, isBlank character = false) :
    (blanks ++ rest).dropWhile isBlank = rest := by
  rw [List.dropWhile_append_of_pos (List.all_eq_true.1 blank)]
  cases rest with
  | nil => rfl
  | cons first rest => simp [visible first rfl]

theorem drop_trailing_split (characters : List Char) :
    ∃ blanks, blanks.all isBlank = true ∧ characters = dropTrailing isBlank characters ++ blanks := by
  refine ⟨(characters.reverse.takeWhile isBlank).reverse, ?_, ?_⟩
  · rw [List.all_reverse]
    exact List.all_takeWhile
  · rw [dropTrailing, ← List.reverse_append, List.takeWhile_append_dropWhile, List.reverse_reverse]

theorem trim_blank_trimmed (text : String) : IsTrimmed (trimBlank text) := by
  rw [IsTrimmed, trimBlank, String.toList_ofList, trimBlankChars]
  constructor
  · intro character isFirst
    obtain ⟨blanks, _, split⟩ := drop_trailing_split (text.toList.dropWhile isBlank)
    apply visible_after_drop text.toList
    rw [split, List.head?_append, isFirst]
    rfl
  · rw [dropTrailing, List.getLast?_reverse]
    exact visible_after_drop _

theorem exists_blanks_around (text : String) :
    ∃ before after, isBlankText before = true ∧ isBlankText after = true ∧
      text = before ++ trimBlank text ++ after := by
  obtain ⟨blanks, blank, split⟩ := drop_trailing_split (text.toList.dropWhile isBlank)
  refine ⟨String.ofList (text.toList.takeWhile isBlank), String.ofList blanks, ?_, ?_, ?_⟩
  · rw [isBlankText, String.toList_ofList]
    exact List.all_takeWhile
  · rwa [isBlankText, String.toList_ofList]
  · rw [trimBlank, trimBlankChars, ← String.ofList_append, ← String.ofList_append,
      List.append_assoc, ← split, List.takeWhile_append_dropWhile, String.ofList_toList]

theorem trim_blanks_around {before core after : String} (blankBefore : isBlankText before = true)
    (blankAfter : isBlankText after = true) (trimmed : IsTrimmed core) :
    trimBlank (before ++ core ++ after) = core := by
  by_cases empty : core = ""
  · subst empty
    rw [trim_blank_eq_empty, isBlankText, String.toList_append, String.append_empty,
      List.all_append]
    exact Bool.and_eq_true_iff.2 ⟨blankBefore, blankAfter⟩
  · obtain ⟨first, rest, characters⟩ :=
      List.exists_cons_of_ne_nil fun none => empty (String.toList_eq_nil_iff.1 none)
    have behind : (before ++ core ++ after).toList.dropWhile isBlank =
        core.toList ++ after.toList := by
      rw [String.toList_append, String.toList_append, List.append_assoc]
      refine drop_blanks blankBefore ?_
      have isFirst := trimmed.1
      rwa [characters] at isFirst ⊢
    have reversed : after.toList.reverse.all isBlank = true := by rwa [List.all_reverse]
    rw [trimBlank, trimBlankChars, behind, dropTrailing, List.reverse_append,
      drop_blanks reversed (by simpa using trimmed.2), List.reverse_reverse, String.ofList_toList]

theorem trim_blank_eq_iff {text core : String} :
    trimBlank text = core ↔ IsTrimmed core ∧ ∃ before after, isBlankText before = true ∧
      isBlankText after = true ∧ text = before ++ core ++ after := by
  constructor
  · rintro rfl
    exact ⟨trim_blank_trimmed text, exists_blanks_around text⟩
  · rintro ⟨trimmed, before, after, blankBefore, blankAfter, rfl⟩
    exact trim_blanks_around blankBefore blankAfter trimmed

end Text

end PipelineWaves
