import Mathlib.Data.List.Basic
import PipelineWaves.Files.Call

/-!
# Pieces of paths

A path is the list of its pieces between slashes. Joining puts the pieces of
both paths in a row, the parent of a path has pieces from the front of it, and
what comes first in pieces comes first in the text.
-/

set_option autoImplicit false

namespace PipelineWaves

namespace FilePath

/-- The pieces of a path that are not empty. -/
def names (path : FilePath) : List String := path.pieces.filter fun piece => piece ≠ ""

/-- A part between separators has other characters of the whole only. -/
theorem part_of_split (separator : Char) (characters : List Char) :
    ∀ part ∈ characters.splitOn separator, separator ∉ part ∧ part ⊆ characters := by
  induction characters with
  | nil => simp
  | cons character rest induction =>
      have later : ∀ part, separator ∉ part ∧ part ⊆ rest →
          separator ∉ part ∧ part ⊆ character :: rest :=
        fun part holds => ⟨holds.1, List.subset_cons_of_subset _ holds.2⟩
      rw [List.splitOn_cons_eq_if_modifyHead]
      split
      · intro part member
        rcases List.mem_cons.1 member with rfl | inRest
        · exact ⟨List.not_mem_nil, List.nil_subset _⟩
        · exact later part (induction part inRest)
      · rename_i differs
        cases parts : rest.splitOn separator with
        | nil => simp
        | cons first others =>
            rw [parts] at induction
            intro part member
            rcases List.mem_cons.1 member with rfl | inRest
            · have inFirst := induction first List.mem_cons_self
              have apart : ¬ separator = character := fun same => differs (by simp [same])
              exact ⟨by simp [apart, inFirst.1], List.cons_subset_cons _ inFirst.2⟩
            · exact later part (induction part (List.mem_cons_of_mem _ inRest))

theorem pieces_ne_nil (path : FilePath) : path.pieces ≠ [] := by
  simp [pieces, piecesOf, List.splitOn_ne_nil]

theorem separator_not_in_piece {separator : Char} {text piece : String}
    (member : piece ∈ piecesOf separator text) : separator ∉ piece.toList := by
  obtain ⟨characters, inSplit, rfl⟩ := List.mem_map.1 member
  rw [String.toList_ofList]
  exact (part_of_split separator _ characters inSplit).1

theorem slash_not_in_piece {path : FilePath} {piece : String} (member : piece ∈ path.pieces) :
    '/' ∉ piece.toList :=
  separator_not_in_piece member

/-- A piece has characters of its path only. -/
theorem piece_within {path : FilePath} {piece : String} (member : piece ∈ path.pieces) :
    piece.toList ⊆ path.text.toList := by
  obtain ⟨characters, inSplit, rfl⟩ := List.mem_map.1 member
  rw [String.toList_ofList]
  exact (part_of_split '/' _ characters inSplit).2

theorem nameless_of_empty {path : FilePath} (empty : path.text = "") : path.names = [] := by
  rw [names, pieces, piecesOf, empty]
  decide

theorem intercalate_pieces_of (separator : Char) (text : String) :
    (String.singleton separator).intercalate (piecesOf separator text) = text := by
  apply String.toList_injective
  have kept : (String.toList ∘ String.ofList) = id := funext fun _ => String.toList_ofList
  rw [String.toList_intercalate, String.toList_singleton, piecesOf, List.map_map, kept, List.map_id]
  exact List.intercalate_splitOn separator

theorem pieces_of_intercalate {separator : Char} {pieces : List String} (some : pieces ≠ [])
    (whole : ∀ piece ∈ pieces, separator ∉ piece.toList) :
    piecesOf separator ((String.singleton separator).intercalate pieces) = pieces := by
  have split : List.splitOn separator
      (List.intercalate [separator] (pieces.map String.toList)) = _ :=
    List.splitOn_intercalate separator (by simpa using whole) (by simpa using some)
  have kept : (String.ofList ∘ String.toList) = id := funext fun _ => String.ofList_toList
  rw [piecesOf, String.toList_intercalate, String.toList_singleton, split, List.map_map, kept,
    List.map_id]

theorem text_of_pieces (path : FilePath) : "/".intercalate path.pieces = path.text :=
  intercalate_pieces_of '/' path.text

theorem pieces_of_text {pieces : List String} (some : pieces ≠ [])
    (whole : ∀ piece ∈ pieces, '/' ∉ piece.toList) :
    FilePath.pieces ⟨"/".intercalate pieces⟩ = pieces :=
  pieces_of_intercalate some whole

theorem pieces_append_slash (left right : String) :
    FilePath.pieces ⟨left ++ "/" ++ right⟩ =
      FilePath.pieces ⟨left⟩ ++ FilePath.pieces ⟨right⟩ := by
  simp [FilePath.pieces, piecesOf, List.splitOn_append_cons_self]

theorem prefix_of_pieces {left right : FilePath} (inFront : left.pieces <+: right.pieces) :
    left.text.toList <+: right.text.toList := by
  obtain ⟨rest, whole⟩ := inFront
  rw [← text_of_pieces left, ← text_of_pieces right, ← whole]
  by_cases last : rest = []
  · simp [last]
  · rw [String.intercalate_append_of_ne_nil left.pieces_ne_nil last, String.toList_append,
      String.toList_append, List.append_assoc]
    exact List.prefix_append _ _

theorem absolute_of_front {left right : FilePath} (inFront : left.pieces <+: right.pieces)
    (named : left.names ≠ []) : left.isAbsolute = right.isAbsolute := by
  obtain ⟨rest, whole⟩ := prefix_of_pieces inFront
  have someText : left.text.toList ≠ [] := by
    intro empty
    apply named
    rw [names, pieces, piecesOf, empty]
    simp
  rw [isAbsolute, isAbsolute, ← whole, List.head?_append_of_ne_nil _ someText]

/-- A path of plain names, none of them dots, with no slash before or after them. -/
def IsInner (path : FilePath) : Prop :=
  ∀ piece ∈ path.pieces, piece ≠ "" ∧ piece ≠ "." ∧ piece ≠ ".."

instance (path : FilePath) : Decidable path.IsInner :=
  inferInstanceAs (Decidable (∀ piece ∈ path.pieces, piece ≠ "" ∧ piece ≠ "." ∧ piece ≠ ".."))

section Joined

variable {base inner : FilePath}

theorem inner_names (plain : inner.IsInner) : inner.names = inner.pieces := by
  rw [names, List.filter_eq_self]
  intro piece member
  simpa using (plain piece member).1

theorem inner_text_ne_nil (plain : inner.IsInner) : inner.text.toList ≠ [] := by
  intro empty
  apply (plain "" ?_).1 rfl
  simp [pieces, piecesOf, empty]

theorem inner_relative (plain : inner.IsInner) : inner.isAbsolute = false := by
  rw [isAbsolute, decide_eq_false_iff_not]
  intro slash
  obtain ⟨rest, split⟩ := List.head?_eq_some_iff.1 slash
  apply (plain "" ?_).1 rfl
  rw [pieces, piecesOf, split, ← List.nil_append ('/' :: rest), List.splitOn_append_cons_self]
  simp

theorem inner_no_slash (plain : inner.IsInner) : inner.text.toList.getLast? ≠ some '/' := by
  intro slash
  obtain ⟨front, split⟩ := List.getLast?_eq_some_iff.1 slash
  apply (plain "" ?_).1 rfl
  rw [pieces, piecesOf, split, List.splitOn_append_cons_self]
  simp

variable (some : base.text ≠ "") (relative : inner.isAbsolute = false)
include some relative

/-- The pieces of the base come first, without the empty one after a slash at its end. -/
theorem pieces_join : ∃ front, (base.pieces = front ∨ base.pieces = front ++ [""]) ∧
    (base.join inner).pieces = front ++ inner.pieces := by
  rw [join, relative, Bool.false_or, if_neg (by simpa using some)]
  split
  · rename_i slash
    obtain ⟨front, ending⟩ := List.getLast?_eq_some_iff.1 slash
    have split : base.text = String.ofList front ++ "/" := by
      apply String.toList_injective
      rw [ending]
      simp
    refine ⟨FilePath.pieces ⟨String.ofList front⟩, .inr ?_, ?_⟩
    · have spelled := pieces_append_slash (String.ofList front) ""
      rw [String.append_empty, ← split] at spelled
      exact spelled
    · rw [split, pieces_append_slash]
  · exact ⟨base.pieces, .inl rfl, pieces_append_slash base.text inner.text⟩

theorem pieces_join_of_named (named : base.pieces.getLast? ≠ Option.some "") :
    (base.join inner).pieces = base.pieces ++ inner.pieces := by
  obtain ⟨front, same | slash, joined⟩ := pieces_join some relative
  · rw [joined, same]
  · rw [slash, List.getLast?_concat] at named
    exact absurd rfl named

theorem names_join : (base.join inner).names = base.names ++ inner.names := by
  obtain ⟨front, base_pieces | base_pieces, joined⟩ := pieces_join some relative
  · simp [names, joined, base_pieces]
  · simp [names, joined, base_pieces]

theorem text_join : ∃ front, base.text.toList <+: front ∧
    (base.join inner).text.toList = front ++ inner.text.toList := by
  rw [join, relative, Bool.false_or, if_neg (by simpa using some)]
  split
  · exact ⟨base.text.toList, List.prefix_rfl, by simp⟩
  · exact ⟨base.text.toList ++ ['/'], List.prefix_append _ _, by simp⟩

theorem absolute_join : (base.join inner).isAbsolute = base.isAbsolute := by
  obtain ⟨front, inFront, joined⟩ := text_join some relative
  obtain ⟨rest, rfl⟩ := inFront
  have someText : base.text.toList ≠ [] := by simpa using some
  rw [isAbsolute, isAbsolute, joined, List.append_assoc,
    List.head?_append_of_ne_nil _ someText]

theorem join_text_ne_nil : (base.join inner).text ≠ "" := by
  obtain ⟨front, inFront, joined⟩ := text_join some relative
  intro empty
  rw [empty] at joined
  have nothing : front = [] := (List.append_eq_nil_iff.1 joined.symm).1
  rw [nothing, List.prefix_nil] at inFront
  exact some (by simpa using inFront)

theorem last_of_join (nonempty : inner.text.toList ≠ []) :
    (base.join inner).text.toList.getLast? = inner.text.toList.getLast? := by
  obtain ⟨front, _, joined⟩ := text_join some relative
  rw [joined, List.getLast?_append_of_ne_nil _ nonempty]

end Joined

theorem drop_trailing_suffix (absolute : Bool) (pieces : List String) :
    dropTrailingPieces absolute pieces <:+ pieces := by
  induction pieces with
  | nil => simp [dropTrailingPieces]
  | cons piece rest induction =>
      cases rest with
      | nil =>
          rw [dropTrailingPieces]
          cases absolute <;> simp
      | cons next rest =>
          rw [dropTrailingPieces]
          · split
            · exact induction.trans (List.suffix_cons piece _)
            · exact List.suffix_rfl
          · simp

theorem pieces_of_absolute {path : FilePath} (absolute : path.isAbsolute = true) :
    ∃ rest, path.pieces = "" :: rest := by
  obtain ⟨rest, split⟩ := List.head?_eq_some_iff.1 (of_decide_eq_true absolute)
  refine ⟨FilePath.pieces ⟨String.ofList rest⟩, ?_⟩
  rw [pieces, piecesOf, split, ← List.nil_append ('/' :: rest), List.splitOn_append_cons_self]
  simp [pieces, piecesOf]

theorem pieces_of_front {path : FilePath} {front : List String} (inFront : front <+: path.pieces)
    (nonempty : front ≠ []) : FilePath.pieces ⟨"/".intercalate front⟩ = front :=
  pieces_of_text nonempty fun _ member => slash_not_in_piece (inFront.subset member)

/-- The parent of a path has pieces from its front, or it has no names. -/
theorem parent_pieces {path parent : FilePath} (above : path.parent? = some parent) :
    parent.names = [] ∨ parent.pieces <+: path.pieces := by
  rw [parent?] at above
  split at above
  · cases above
  · cases above
  · obtain ⟨kept, inFront, above⟩ : ∃ kept, kept <+: path.pieces ∧
        (if path.isAbsolute then some (⟨"/" ++ "/".intercalate (kept.drop 1)⟩ : FilePath)
          else some ⟨"/".intercalate kept⟩) = some parent := by
      refine ⟨_, ?_, above⟩
      rw [← List.reverse_reverse path.pieces, List.reverse_prefix]
      refine (drop_trailing_suffix _ _).trans ?_
      rw [List.reverse_reverse]
      split
      · exact List.nil_suffix
      · rename_i first rest split
        have afterFirst := List.suffix_cons first rest
        rw [← split] at afterFirst
        exact afterFirst.trans (List.dropWhile_suffix _)
    split at above
    · rename_i absolute
      obtain ⟨rest, rooted⟩ := pieces_of_absolute absolute
      match kept with
      | [] =>
          cases above
          exact .inl (by decide)
      | [_] =>
          rw [List.drop_succ_cons, List.drop_zero] at above
          cases above
          exact .inl (by decide)
      | first :: next :: more =>
          have top : first = "" := by
            rw [rooted] at inFront
            exact (List.cons_prefix_cons.1 inFront).1
          have spelled : parent = ⟨"/".intercalate (first :: next :: more)⟩ := by
            rw [String.intercalate_cons_cons, top]
            simpa using above.symm
          rw [spelled, pieces_of_front inFront (by simp)]
          exact .inr inFront
    · cases above
      by_cases nothing : kept = []
      · rw [nothing]
        exact .inl (by decide)
      · rw [pieces_of_front inFront nothing]
        exact .inr inFront

theorem parent_of_nameless {path : FilePath} (nameless : path.names = []) :
    path.parent? = none := by
  have empty : ∀ piece ∈ path.pieces, piece = "" := by
    simpa [names, List.filter_eq_nil_iff] using nameless
  have noBody : path.pieces.filterMap componentOf = [] := by
    rw [List.filterMap_eq_nil_iff]
    intro piece member
    simp [empty piece member, componentOf]
  have notDot : path.pieces.head? ≠ some "." := by
    intro dot
    have member := List.mem_of_mem_head? dot
    exact absurd (empty "." member) (by decide)
  rw [parent?, components, noBody]
  split
  · rfl
  · rfl
  · rename_i component other last
    rw [if_neg notDot] at last
    cases absolute : path.isAbsolute with
    | true =>
        rw [absolute] at last
        exact absurd (by simpa using last.symm) other
    | false =>
        rw [absolute] at last
        simp at last

/-- The name of a path is one of its pieces. -/
theorem name_in_pieces {path : FilePath} {name : String} (named : path.name? = some name) :
    name ∈ path.pieces := by
  rw [name?] at named
  split at named
  · rename_i last
    cases named
    have member := List.mem_of_getLast? last
    have inBody : .normal name ∈ path.pieces.filterMap componentOf := by
      rw [components] at member
      split_ifs at member <;> simpa using member
    obtain ⟨piece, inPieces, component⟩ := List.mem_filterMap.1 inBody
    rw [componentOf] at component
    split_ifs at component <;> cases component
    exact inPieces
  · cases named

/-- A last name that is no dots is the name of the path. -/
theorem name_of_last {path : FilePath} {name : String} (last : path.names.getLast? = some name)
    (notDots : name ≠ "." ∧ name ≠ "..") : path.name? = some name := by
  have body : path.pieces.filterMap componentOf = path.names.filterMap componentOf := by
    rw [names, List.filterMap_filter]
    refine List.filterMap_congr fun piece _ => ?_
    by_cases empty : piece = "" <;> simp [empty, componentOf]
  have nonempty : name ≠ "" := by
    have member := List.mem_of_getLast? last
    rw [names, List.mem_filter, decide_eq_true_eq] at member
    exact member.2
  have component : componentOf name = some (.normal name) := by
    simp [componentOf, nonempty, notDots]
  obtain ⟨front, split⟩ := List.getLast?_eq_some_iff.1 last
  have lastBody : ∀ others : List PathComponent,
      (others ++ path.pieces.filterMap componentOf).getLast? = some (.normal name) := by
    intro others
    rw [body, split, List.filterMap_append, List.filterMap_cons_some component, List.filterMap_nil,
      ← List.append_assoc, List.getLast?_concat]
  have lastComponent : path.components.getLast? = some (.normal name) := by
    rw [components]
    split_ifs
    · exact lastBody [.root]
    · exact lastBody [.current]
    · exact lastBody []
  rw [name?, lastComponent]

end FilePath

namespace Files

/-- The directories above a path have pieces from its front, or they have no names. -/
theorem chain_above_pieces {path above : FilePath} {depth : Nat}
    (member : above ∈ chainAbove depth path) :
    above.names = [] ∨ above.pieces <+: path.pieces := by
  induction depth generalizing path with
  | zero =>
      rw [chainAbove, List.mem_singleton] at member
      exact .inr (member ▸ List.prefix_rfl)
  | succ depth induction =>
      rw [chainAbove] at member
      split at member
      · rw [List.mem_singleton] at member
        exact .inr (member ▸ List.prefix_rfl)
      · rename_i parent isParent
        split at member
        · rw [List.mem_singleton] at member
          exact .inr (member ▸ List.prefix_rfl)
        · rcases List.mem_cons.1 member with rfl | higher
          · exact .inr List.prefix_rfl
          · rcases FilePath.parent_pieces isParent with nameless | inFront
            · have last : chainAbove depth parent = [parent] := by
                cases depth with
                | zero => rfl
                | succ depth => rw [chainAbove, FilePath.parent_of_nameless nameless]
              rw [last, List.mem_singleton] at higher
              exact .inl (by rw [higher, nameless])
            · exact (induction higher).imp_right fun inner => inner.trans inFront

/-- The path itself comes first in its chain. -/
theorem chain_above_head (path : FilePath) (depth : Nat) :
    ∃ above, chainAbove depth path = path :: above := by
  cases depth with
  | zero => exact ⟨[], rfl⟩
  | succ depth =>
      rw [chainAbove]
      cases path.parent? with
      | none => exact ⟨[], rfl⟩
      | some parent =>
          dsimp only
          split
          · exact ⟨[], rfl⟩
          · exact ⟨_, rfl⟩

end Files

end PipelineWaves
