import PipelineWaves.Proofs.Program.Template

/-!
# Substitution

A template has exactly one split into plain text and placeholders, in which every placeholder
is the leftmost one of what is left. Rendering puts the values where the placeholders of this
split are and looks at no value again, or names all keys without a value.
-/

set_option autoImplicit false

namespace PipelineWaves.Template

def OpensWithPlaceholder (text : List Char) : Prop :=
  ∃ (placeholder : Placeholder) (rest : List Char), text = placeholder.characters ++ rest

theorem opens_with_placeholder_iff {text : List Char} :
    OpensWithPlaceholder text ↔ ∃ word ∈ placeholderPattern, word <+: text := by
  constructor
  · rintro ⟨placeholder, rest, rfl⟩
    exact ⟨_, mem_placeholder_pattern.2 ⟨placeholder, rfl⟩, List.prefix_append _ _⟩
  · rintro ⟨word, isMatch, rest, rfl⟩
    obtain ⟨placeholder, rfl⟩ := mem_placeholder_pattern.1 isMatch
    exact ⟨placeholder, rest, rfl⟩

/-- No placeholder starts in `front` when `back` follows it. -/
def StartsNone (front back : List Char) : Prop :=
  ∀ skipped kept, front = skipped ++ kept → kept ≠ [] → ¬OpensWithPlaceholder (kept ++ back)

structure Piece where
  plain : List Char
  placeholder : Placeholder

/-- A text is split from left to right, and each placeholder is the leftmost one. -/
inductive Splits : List Char → List Piece → List Char → Prop where
  | last (plain : List Char) (none : StartsNone plain []) : Splits plain [] plain
  | next (plain : List Char) (placeholder : Placeholder) {rest last : List Char}
      {pieces : List Piece} (leftmost : StartsNone plain (placeholder.characters ++ rest))
      (later : Splits rest pieces last) :
      Splits (plain ++ (placeholder.characters ++ rest)) (⟨plain, placeholder⟩ :: pieces) last

theorem placeholder_eq_none_iff (text : List Char) :
    placeholder? text = none ↔ ¬OpensWithPlaceholder text := by
  constructor
  · rintro absent ⟨placeholder, rest, rfl⟩
    rw [placeholder_at] at absent
    cases absent
  · intro opensNot
    cases found : placeholder? text with
    | none => rfl
    | some match' =>
        obtain ⟨placeholder, rest, same, _, _⟩ := placeholder_of_found found
        exact absurd ⟨placeholder, rest, same⟩ opensNot

namespace Placeholder

theorem characters_ne_nil (placeholder : Placeholder) : placeholder.characters ≠ [] := by
  simp [characters]

/-- The blanks and the name of a placeholder can be read off its characters. -/
theorem characters_injective {first second : Placeholder}
    (same : first.characters = second.characters) (sameKey : first.key = second.key) :
    first = second := by
  obtain ⟨before, letter, more, behind, blankBefore, starts, _, _⟩ := first
  obtain ⟨otherBefore, otherLetter, otherMore, otherBehind, otherBlank, otherStarts, _, _⟩ := second
  obtain ⟨rfl, rfl⟩ : letter = otherLetter ∧ more = otherMore := by
    simpa [key, String.ofList_inj] using sameKey
  simp only [characters, List.cons.injEq, true_and] at same
  have ends (rest : List Char) : ∀ character, (letter :: rest).head? = some character →
      Text.isBlank character = false := by
    intro character isFirst
    cases isFirst
    exact name_not_blank (starts_continues starts)
  have blanks := congrArg (List.takeWhile Text.isBlank) same
  rw [ProgramText.take_while_append (List.all_eq_true.1 blankBefore) (ends _),
    ProgramText.take_while_append (List.all_eq_true.1 otherBlank) (ends _)] at blanks
  subst blanks
  simpa using same

/-- At most one placeholder stands at the start of a text. -/
theorem unique {first second : Placeholder} {rest otherRest : List Char}
    (same : first.characters ++ rest = second.characters ++ otherRest) :
    first = second ∧ rest = otherRest := by
  have found := placeholder_at first rest
  rw [same, placeholder_at] at found
  simp only [Option.some.injEq, Prod.mk.injEq] at found
  obtain ⟨sameKey, sameLength⟩ := found
  have some := List.length_pos_of_ne_nil first.characters_ne_nil
  have someOther := List.length_pos_of_ne_nil second.characters_ne_nil
  obtain ⟨sameCharacters, sameRest⟩ := List.append_inj same (by omega)
  exact ⟨characters_injective sameCharacters sameKey.symm, sameRest⟩

end Placeholder

theorem StartsNone.cons {first : Char} {front back : List Char}
    (opensNot : ¬OpensWithPlaceholder (first :: (front ++ back))) (none : StartsNone front back) :
    StartsNone (first :: front) back := by
  intro skipped kept split some
  cases skipped with
  | nil =>
      rw [List.nil_append] at split
      exact split ▸ opensNot
  | cons character skipped =>
      rw [List.cons_append, List.cons.injEq] at split
      exact none skipped kept split.2 some

theorem StartsNone.tail {first : Char} {front back : List Char}
    (none : StartsNone (first :: front) back) :
    ¬OpensWithPlaceholder (first :: (front ++ back)) ∧ StartsNone front back :=
  ⟨none [] (first :: front) rfl (List.cons_ne_nil _ _),
    fun skipped kept split some => none (first :: skipped) kept (by rw [split]; rfl) some⟩

theorem exists_split (text : List Char) : ∃ pieces last, Splits text pieces last := by
  fun_induction segmentsOf text with
  | case1 => exact ⟨[], [], .last [] fun skipped kept split some => by simp_all⟩
  | case2 first rest key more found induction =>
      obtain ⟨placeholder, behind, same, _, sameLength⟩ := placeholder_of_found found
      obtain ⟨pieces, last, later⟩ := induction
      have dropped : rest.drop more = behind := by
        have all : (first :: rest).drop placeholder.characters.length = behind := by
          rw [same, List.drop_left]
        have positive := List.length_pos_of_ne_nil placeholder.characters_ne_nil
        rwa [show placeholder.characters.length = more + 1 by omega, List.drop_succ_cons] at all
      rw [dropped] at later
      rw [same]
      exact ⟨⟨[], placeholder⟩ :: pieces, last,
        .next [] placeholder (fun skipped kept split some => by simp_all) later⟩
  | case3 first rest absent induction =>
      have opensNot := (placeholder_eq_none_iff _).1 absent
      obtain ⟨pieces, last, later⟩ := induction
      cases later with
      | last _ none =>
          refine ⟨[], first :: rest, .last _ (.cons ?_ none)⟩
          rwa [List.append_nil]
      | next plain placeholder leftmost later =>
          exact ⟨_, last, .next (first :: plain) placeholder (.cons opensNot leftmost) later⟩

/-- The placeholder that ends the plain text of one split cannot start in that of another. -/
theorem plain_eq_of_leftmost {plain other back otherBack : List Char}
    (same : plain ++ back = other ++ otherBack) (opens : OpensWithPlaceholder back)
    (otherOpens : OpensWithPlaceholder otherBack) (none : StartsNone plain back)
    (otherNone : StartsNone other otherBack) : plain = other ∧ back = otherBack := by
  rcases List.append_eq_append_iff.1 same with ⟨kept, longer, rfl⟩ | ⟨kept, longer, rfl⟩
  · cases kept with
    | nil => simp [longer]
    | cons first kept => exact absurd opens (otherNone plain _ longer (List.cons_ne_nil _ _))
  · cases kept with
    | nil => simp [longer]
    | cons first kept => exact absurd otherOpens (none other _ longer (List.cons_ne_nil _ _))

theorem Splits.unique {text last otherLast : List Char} {pieces others : List Piece}
    (splits : Splits text pieces last) (splitsOther : Splits text others otherLast) :
    pieces = others ∧ last = otherLast := by
  induction splits generalizing others with
  | last plain none =>
      cases splitsOther with
      | last => exact ⟨rfl, rfl⟩
      | next front placeholder leftmost later =>
          refine absurd ?_ (none front _ rfl (by simp [Placeholder.characters]))
          rw [List.append_nil]
          exact ⟨placeholder, _, rfl⟩
  | @next plain placeholder rest last pieces leftmost later induction =>
      generalize whole : plain ++ (placeholder.characters ++ rest) = text at splitsOther
      cases splitsOther with
      | last _ none =>
          refine absurd ?_ (none plain _ whole.symm (by simp [Placeholder.characters]))
          rw [List.append_nil]
          exact ⟨placeholder, rest, rfl⟩
      | next other otherPlaceholder otherLeftmost otherLater =>
          obtain ⟨rfl, sameBack⟩ := plain_eq_of_leftmost whole ⟨placeholder, _, rfl⟩
            ⟨otherPlaceholder, _, rfl⟩ leftmost otherLeftmost
          obtain ⟨rfl, rfl⟩ := Placeholder.unique sameBack
          obtain ⟨rfl, rfl⟩ := induction otherLater
          exact ⟨rfl, rfl⟩

theorem segments_of_starts_none {front back : List Char} (none : StartsNone front back) :
    segmentsOf (front ++ back) = front.map .plain ++ segmentsOf back := by
  induction front with
  | nil => rfl
  | cons first front induction =>
      obtain ⟨opensNot, later⟩ := none.tail
      rw [List.cons_append, segmentsOf, (placeholder_eq_none_iff _).2 opensNot]
      exact congrArg _ (induction later)

namespace Piece

def key (piece : Piece) : String := piece.placeholder.key

def segments (piece : Piece) : List TemplateSegment :=
  piece.plain.map .plain ++ [.placeholder piece.key]

def filled (values : List (String × String)) (piece : Piece) : String :=
  String.ofList piece.plain ++ (values.lookup piece.key).getD ""

end Piece

/-- The segments of a whole split. -/
def segmentsIn (pieces : List Piece) (last : List Char) : List TemplateSegment :=
  pieces.flatMap Piece.segments ++ last.map .plain

theorem segments_of_splits {text last : List Char} {pieces : List Piece}
    (splits : Splits text pieces last) :
    segmentsOf text = segmentsIn pieces last := by
  induction splits with
  | last plain none =>
      have plainOnly := segments_of_starts_none none
      rwa [List.append_nil, segmentsOf, List.append_nil] at plainOnly
  | next plain placeholder leftmost later induction =>
      rw [segments_of_starts_none leftmost, segments_of_placeholder, induction]
      simp [segmentsIn, Piece.segments, Piece.key]

theorem keys_of_plain (characters : List Char) :
    keysOf (characters.map TemplateSegment.plain) = [] := by
  simp [keysOf]

theorem keys_of_pieces (pieces : List Piece) (last : List Char) :
    keysOf (segmentsIn pieces last) = pieces.map Piece.key := by
  induction pieces with
  | nil => exact keys_of_plain last
  | cons piece rest induction =>
      have own : keysOf piece.segments = [piece.key] := by
        rw [Piece.segments, keysOf, List.filterMap_append, ← keysOf, keys_of_plain]
        rfl
      rw [segmentsIn, List.flatMap_cons, List.append_assoc, keysOf, List.filterMap_append, ← keysOf,
        own, ← segmentsIn, ← keysOf, induction]
      rfl

theorem fill_plain (values : List (String × String)) (characters : List Char) :
    String.join ((characters.map TemplateSegment.plain).map (fill values)) =
      String.ofList characters := by
  rw [← String.toList_inj]
  simp [String.toList_join, fill, List.flatMap_map]

theorem fill_pieces (values : List (String × String)) (pieces : List Piece) (last : List Char) :
    String.join ((segmentsIn pieces last).map (fill values)) =
      String.join (pieces.map (Piece.filled values)) ++ String.ofList last := by
  induction pieces with
  | nil => rw [List.map_nil, String.join_nil, String.empty_append]; exact fill_plain values last
  | cons piece rest induction =>
      have own : String.join (piece.segments.map (fill values)) = piece.filled values := by
        rw [Piece.segments, List.map_append, String.join_append, fill_plain, Piece.filled]
        simp [fill]
      rw [segmentsIn, List.flatMap_cons, List.append_assoc, List.map_append, String.join_append,
        own, ← segmentsIn, induction, List.map_cons, String.join_cons, String.append_assoc]

/-- Every template has exactly one split into plain text and leftmost placeholders. If all keys
have values, rendering gives the plain text with the values in the places of the placeholders,
whatever the values are; and if not, it names the keys without a value as they occur. -/
theorem rendering_substitutes_once (name template : String) (values : List (String × String)) :
    ∃ pieces last, Splits template.toList pieces last ∧
      (∀ others otherLast, Splits template.toList others otherLast →
        others = pieces ∧ otherLast = last) ∧
      ((∀ piece ∈ pieces, values.lookup piece.key ≠ none) →
        render name template values =
          .ok (String.join (pieces.map (Piece.filled values)) ++ String.ofList last)) ∧
      ((∃ piece ∈ pieces, values.lookup piece.key = none) →
        render name template values = .error (.unfilledPlaceholders name
          ((pieces.map Piece.key).filter fun key => (values.lookup key).isNone))) := by
  obtain ⟨pieces, last, splits⟩ := exists_split template.toList
  have missing : missingKeys values (segments template) =
      (pieces.map Piece.key).filter fun key => (values.lookup key).isNone := by
    rw [missing_keys_eq, segments, segments_of_splits splits, keys_of_pieces]
  refine ⟨pieces, last, splits, fun others otherLast also => also.unique splits, ?_, ?_⟩
  · intro complete
    rw [render_ok, filled, segments, segments_of_splits splits, fill_pieces]
    rw [segments, segments_of_splits splits, keys_of_pieces]
    simpa using complete
  · rintro ⟨piece, member, absent⟩
    have isMissing : piece.key ∈ missingKeys values (segments template) := by
      rw [missing]
      exact List.mem_filter.2 ⟨List.mem_map_of_mem member, by rw [absent]; rfl⟩
    rw [render, ← missing]
    split
    · rename_i nothing
      rw [nothing] at isMissing
      cases isMissing
    · rfl

end PipelineWaves.Template
