import Mathlib.Data.String.Basic
import PipelineWaves.Proofs.Files.Path
import PipelineWaves.Proofs.Text.Trimmed
import PipelineWaves.Recipe.Parameters

/-!
# Path lists

A path list loses its commas, the blanks around its pieces and nothing else: any other
character stands in the list exactly when it stands in one of its paths. Its paths have a
normal form, no blank at an end and no comma inside; a list of such paths is written with
commas between them, any blanks around them and blank pieces anywhere, and every list of
paths is read off the texts that are written so and no others.
-/

set_option autoImplicit false

namespace PipelineWaves

/-- The search for commas goes on behind a piece that holds none so far. -/
theorem split_on_aux_comma (before piece rest : List Char) (found : List String) :
    String.splitOnAux (String.ofList (before ++ piece ++ rest)) "," ⟨String.utf8Len before⟩
        ⟨String.utf8Len (before ++ piece)⟩ 0 found =
      found.reverse ++ (List.splitOnPPrepend (· == ',') rest piece.reverse).map String.ofList := by
  have extracted : String.Pos.Raw.extract (String.ofList (before ++ piece ++ rest))
      ⟨String.utf8Len before⟩ ⟨String.utf8Len (before ++ piece)⟩ = String.ofList piece := by
    rw [String.utf8Len_append, String.extract_of_valid]
  rw [String.splitOnAux]
  cases rest with
  | nil =>
      rw [if_pos ((String.atEnd_of_valid _ []).2 rfl), extracted]
      simp
  | cons first rest =>
      have more : ¬String.Pos.Raw.atEnd (String.ofList (before ++ piece ++ first :: rest))
          ⟨String.utf8Len (before ++ piece)⟩ = true := by
        rw [String.atEnd_of_valid]
        exact List.cons_ne_nil _ _
      have comma : String.Pos.Raw.get "," 0 = ',' := by decide
      have whole : String.Pos.Raw.atEnd "," (String.Pos.Raw.next "," 0) = true := by decide
      have behind : String.utf8Len (before ++ piece) + first.utf8Size =
          String.utf8Len (before ++ piece ++ [first]) := by
        simp [Nat.add_assoc]
      simp only [more, comma, whole, String.get_of_valid, String.next_of_valid, List.headD,
        if_true, if_false, Bool.false_eq_true, String.Pos.Raw.unoffsetBy_zero,
        List.splitOnPPrepend_cons_eq_if]
      split
      · next isComma =>
          obtain rfl : first = ',' := by simpa using isComma
          have start : String.Pos.Raw.unoffsetBy ⟨String.utf8Len (before ++ piece) + ','.utf8Size⟩
              (String.Pos.Raw.next "," 0) = ⟨String.utf8Len (before ++ piece)⟩ := by
            have width : String.Pos.Raw.next "," 0 = ⟨','.utf8Size⟩ := by decide
            rw [width, String.Pos.Raw.unoffsetBy, Nat.add_sub_cancel]
          have later := split_on_aux_comma (before ++ piece ++ [',']) [] rest
            (String.ofList piece :: found)
          rw [List.append_nil, ← List.append_cons] at later
          rw [start, extracted, behind, later]
          simp
      · next differs =>
          have later := split_on_aux_comma before (piece ++ [first]) rest found
          rw [← List.append_assoc, ← List.append_cons, List.reverse_append] at later
          rw [behind, later]
          rfl

theorem comma_pieces_eq (text : String) : commaPieces text = FilePath.piecesOf ',' text := by
  have split := split_on_aux_comma [] [] text.toList []
  rw [List.nil_append, List.nil_append, String.ofList_toList] at split
  rw [commaPieces, String.splitOn, if_neg (by decide)]
  exact split

theorem mem_part_of_split {separator character : Char} (other : character ≠ separator)
    {characters : List Char} (member : character ∈ characters) :
    ∃ part ∈ characters.splitOn separator, character ∈ part := by
  induction characters with
  | nil => cases member
  | cons first rest induction =>
      rw [List.splitOn_cons_eq_if_modifyHead]
      split
      · next same =>
          have later : character ∈ rest := by
            refine (List.mem_cons.1 member).resolve_left ?_
            rintro rfl
            exact other (by simpa using same)
          obtain ⟨part, inParts, inPart⟩ := induction later
          exact ⟨part, List.mem_cons_of_mem _ inParts, inPart⟩
      · obtain ⟨head, others, parts⟩ :=
          List.exists_cons_of_ne_nil (List.splitOn_ne_nil separator rest)
        rw [parts] at induction ⊢
        rcases List.mem_cons.1 member with rfl | later
        · exact ⟨_, List.mem_cons_self, List.mem_cons_self⟩
        · obtain ⟨part, inParts, inPart⟩ := induction later
          rcases List.mem_cons.1 inParts with rfl | inOthers
          · exact ⟨_, List.mem_cons_self, List.mem_cons_of_mem _ inPart⟩
          · exact ⟨part, List.mem_cons_of_mem _ inOthers, inPart⟩

theorem mem_comma_pieces {character : Char} (other : character ≠ ',') (text : String) :
    (∃ piece ∈ commaPieces text, character ∈ piece.toList) ↔ character ∈ text.toList := by
  rw [comma_pieces_eq, FilePath.piecesOf]
  constructor
  · rintro ⟨_, member, inPiece⟩
    obtain ⟨part, inSplit, rfl⟩ := List.mem_map.1 member
    rw [String.toList_ofList] at inPiece
    exact (FilePath.part_of_split ',' _ part inSplit).2 inPiece
  · intro member
    obtain ⟨part, inSplit, inPart⟩ := mem_part_of_split other member
    exact ⟨_, List.mem_map_of_mem inSplit, by rwa [String.toList_ofList]⟩

theorem mem_split_paths {character : Char} (other : character ≠ ',')
    (visible : Text.isBlank character = false) (paths : String) :
    (∃ path ∈ splitPaths paths, character ∈ path.toList) ↔ character ∈ paths.toList := by
  rw [← mem_comma_pieces other paths]
  constructor
  · rintro ⟨_, member, inPath⟩
    obtain ⟨piece, isPiece, rfl⟩ := List.mem_map.1 (List.mem_filter.1 member).1
    exact ⟨piece, isPiece, (mem_trim_blank visible piece).1 inPath⟩
  · rintro ⟨piece, isPiece, inPiece⟩
    have inPath := (mem_trim_blank visible piece).2 inPiece
    have notEmpty : Text.trimBlank piece ≠ "" := by
      intro empty
      rw [empty] at inPath
      exact List.not_mem_nil inPath
    refine ⟨Text.trimBlank piece, ?_, inPath⟩
    exact List.mem_filter.2 ⟨List.mem_map_of_mem isPiece, by simpa using notEmpty⟩

/-- A path as a path list holds it: visible at both ends and within one piece. -/
structure IsListedPath (path : String) : Prop where
  notEmpty : path ≠ ""
  trimmed : Text.IsTrimmed path
  noComma : ',' ∉ path.toList

instance (path : String) : Decidable (IsListedPath path) :=
  decidable_of_iff (path ≠ "" ∧ Text.IsTrimmed path ∧ ',' ∉ path.toList)
    ⟨fun ⟨notEmpty, trimmed, noComma⟩ => ⟨notEmpty, trimmed, noComma⟩,
      fun ⟨notEmpty, trimmed, noComma⟩ => ⟨notEmpty, trimmed, noComma⟩⟩

/-- Pieces that hold these paths in order, with blanks around them and blank pieces between. -/
inductive PadsPaths : List String → List String → Prop
  | nil : PadsPaths [] []
  | blank {piece : String} {pieces paths : List String} (isBlank : Text.isBlankText piece = true)
      (rest : PadsPaths pieces paths) : PadsPaths (piece :: pieces) paths
  | path {before path after : String} {pieces paths : List String}
      (blankBefore : Text.isBlankText before = true) (listed : IsListedPath path)
      (blankAfter : Text.isBlankText after = true) (rest : PadsPaths pieces paths) :
      PadsPaths ((before ++ path ++ after) :: pieces) (path :: paths)

/-- A text that holds these paths in order between its commas. -/
def WritesPaths (text : String) (paths : List String) : Prop :=
  ∃ pieces, pieces ≠ [] ∧ PadsPaths pieces paths ∧ text = ",".intercalate pieces

theorem comma_not_in_blank {text : String} (blank : Text.isBlankText text = true) :
    ',' ∉ text.toList := by
  intro member
  have isBlank := List.all_eq_true.1 blank ',' member
  revert isBlank
  decide

namespace PadsPaths

variable {pieces paths : List String}

theorem no_comma (pads : PadsPaths pieces paths) : ∀ piece ∈ pieces, ',' ∉ piece.toList := by
  induction pads with
  | nil => simp
  | blank isBlank _ induction =>
      exact List.forall_mem_cons.2 ⟨comma_not_in_blank isBlank, induction⟩
  | path blankBefore listed blankAfter _ induction =>
      refine List.forall_mem_cons.2 ⟨?_, induction⟩
      simp only [String.toList_append, List.mem_append, not_or]
      exact ⟨⟨comma_not_in_blank blankBefore, listed.noComma⟩, comma_not_in_blank blankAfter⟩

theorem listed (pads : PadsPaths pieces paths) : ∀ path ∈ paths, IsListedPath path := by
  induction pads with
  | nil => simp
  | blank _ _ induction => exact induction
  | path _ listed _ _ induction => exact List.forall_mem_cons.2 ⟨listed, induction⟩

theorem trimmed (pads : PadsPaths pieces paths) :
    (pieces.map Text.trimBlank).filter (fun piece => piece ≠ "") = paths := by
  induction pads with
  | nil => rfl
  | blank isBlank _ induction =>
      rw [List.map_cons, Text.trim_blank_eq_empty.2 isBlank, List.filter_cons_of_neg (by simp),
        induction]
  | path blankBefore listed blankAfter _ induction =>
      have core := Text.trim_blank_eq_iff.2 ⟨listed.trimmed, _, _, blankBefore, blankAfter, rfl⟩
      rw [List.map_cons, core, List.filter_cons_of_pos (by simpa using listed.notEmpty), induction]

theorem of_pieces (noComma : ∀ piece ∈ pieces, ',' ∉ piece.toList) :
    PadsPaths pieces ((pieces.map Text.trimBlank).filter fun piece => piece ≠ "") := by
  induction pieces with
  | nil => exact nil
  | cons piece pieces induction =>
      obtain ⟨own, others⟩ := List.forall_mem_cons.1 noComma
      rw [List.map_cons]
      by_cases empty : Text.trimBlank piece = ""
      · rw [List.filter_cons_of_neg (by simpa using empty)]
        exact blank (Text.trim_blank_eq_empty.1 empty) (induction others)
      · rw [List.filter_cons_of_pos (by simpa using empty)]
        obtain ⟨trimmed, before, after, blankBefore, blankAfter, whole⟩ :=
          Text.trim_blank_eq_iff.1 (rfl : Text.trimBlank piece = _)
        have listed : IsListedPath (Text.trimBlank piece) :=
          { notEmpty := empty
            trimmed
            noComma := fun inside => own ((mem_trim_blank (by decide) piece).1 inside) }
        have padded := path blankBefore listed blankAfter (induction others)
        rwa [← whole] at padded

theorem of_listed (listed : ∀ path ∈ paths, IsListedPath path) : PadsPaths paths paths := by
  induction paths with
  | nil => exact nil
  | cons first rest induction =>
      obtain ⟨own, others⟩ := List.forall_mem_cons.1 listed
      have padded : PadsPaths (("" ++ first ++ "") :: rest) (first :: rest) :=
        path rfl own rfl (induction others)
      rwa [String.empty_append, String.append_empty] at padded

end PadsPaths

theorem split_paths_iff {text : String} {paths : List String} :
    splitPaths text = paths ↔ WritesPaths text paths := by
  rw [splitPaths, comma_pieces_eq]
  constructor
  · rintro rfl
    refine ⟨FilePath.piecesOf ',' text, ?_, ?_, ?_⟩
    · simp [FilePath.piecesOf, List.splitOn_ne_nil]
    · exact PadsPaths.of_pieces fun _ => FilePath.separator_not_in_piece
    · exact (FilePath.intercalate_pieces_of ',' text).symm
  · rintro ⟨pieces, some, pads, rfl⟩
    have split : FilePath.piecesOf ',' (",".intercalate pieces) = pieces :=
      FilePath.pieces_of_intercalate some pads.no_comma
    rw [split, pads.trimmed]

example : splitPaths " a, ,b ," = ["a", "b"] := by
  rw [splitPaths, comma_pieces_eq]
  decide

theorem split_paths_listed (text : String) : ∀ path ∈ splitPaths text, IsListedPath path := by
  obtain ⟨_, _, pads, _⟩ := split_paths_iff.1 (rfl : splitPaths text = _)
  exact pads.listed

/-- Paths in normal form are read back from their text with commas between them. -/
theorem split_paths_join {paths : List String} (listed : ∀ path ∈ paths, IsListedPath path) :
    splitPaths (",".intercalate paths) = paths := by
  by_cases none : paths = []
  · subst none
    exact split_paths_iff.2 ⟨[""], List.cons_ne_nil _ _, .blank rfl .nil, rfl⟩
  · exact split_paths_iff.2 ⟨paths, none, .of_listed listed, rfl⟩

end PipelineWaves
