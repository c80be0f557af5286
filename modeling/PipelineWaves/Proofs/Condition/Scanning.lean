import PipelineWaves.Proofs.Condition.Lexeme
import PipelineWaves.Proofs.Condition.Mention

/-!
# Scanning condition texts

A text is scanned in rounds. Each round passes one blank or takes one token, so that the text
up to where the scanning stands is always laid out as the tokens found so far. A text has
tokens exactly when it can be laid out, and a text that is refused has all the tokens that
stand before the character at which it is refused.
-/

set_option autoImplicit false

namespace PipelineWaves

open ConditionToken

/-- How far a text is scanned: the tokens found so far, and the byte at which the rest starts. -/
structure ScanProgress where
  tokens : List PlacedToken
  position : Nat
  rest : List Char
deriving DecidableEq, Repr

namespace ScanProgress

def initial (source : String) : ScanProgress := ⟨[], 0, source.toList⟩

/-- Passes a blank or takes a token. Nothing is left to do at the end. -/
def round (progress : ScanProgress) : Except ConditionSyntaxError (Option ScanProgress) :=
  match progress.rest with
  | [] => .ok none
  | first :: rest =>
      if Text.isBlank first then
        .ok (some ⟨progress.tokens, progress.position + first.utf8Size, rest⟩)
      else
        match lexeme first rest with
        | .error fault => .error ⟨progress.position, fault⟩
        | .ok (token, taken) =>
            .ok (some
              { tokens := progress.tokens ++ [⟨progress.position, token⟩]
                position :=
                  progress.position + first.utf8Size + Text.byteLength (rest.take taken)
                rest := rest.drop taken })

/-- What a round can do. -/
inductive Rounds : ScanProgress → Except ConditionSyntaxError (Option ScanProgress) → Prop where
  | finished (tokens : List PlacedToken) (position : Nat) : Rounds ⟨tokens, position, []⟩ (.ok none)
  | blank (tokens : List PlacedToken) (position : Nat) {first : Char} (rest : List Char)
      (isBlank : Text.isBlank first = true) :
      Rounds ⟨tokens, position, first :: rest⟩
        (.ok (some ⟨tokens, position + first.utf8Size, rest⟩))
  | token (tokens : List PlacedToken) (position : Nat) {first : Char} {rest : List Char}
      {token : ConditionToken} {taken : Nat} (visible : ¬Text.isBlank first = true)
      (read : lexeme first rest = .ok (token, taken)) :
      Rounds ⟨tokens, position, first :: rest⟩
        (.ok (some ⟨tokens ++ [⟨position, token⟩],
          position + first.utf8Size + Text.byteLength (rest.take taken), rest.drop taken⟩))
  | refused (tokens : List PlacedToken) (position : Nat) {first : Char} {rest : List Char}
      {fault : ConditionFault} (visible : ¬Text.isBlank first = true)
      (read : lexeme first rest = .error fault) :
      Rounds ⟨tokens, position, first :: rest⟩ (.error ⟨position, fault⟩)

theorem rounds (progress : ScanProgress) : Rounds progress progress.round := by
  obtain ⟨tokens, position, characters⟩ := progress
  unfold round
  cases characters with
  | nil => exact .finished tokens position
  | cons first rest =>
      simp only
      split
      · next isBlank => exact .blank tokens position rest isBlank
      · next visible =>
          split
          · next read => exact .refused tokens position visible read
          · next read => exact .token tokens position visible read

/-- A round that goes on moves over characters that are laid out as the tokens it finds. -/
structure Moves (progress next : ScanProgress) (found : List PlacedToken)
    (passed : List Char) : Prop where
  some : passed ≠ []
  rest : progress.rest = passed ++ next.rest
  position : next.position = progress.position + Text.byteLength passed
  tokens : next.tokens = progress.tokens ++ found
  laid : LaidOut next.rest progress.position found passed

theorem round_moves {progress next : ScanProgress} (goesOn : progress.round = .ok (some next)) :
    ∃ found passed, progress.Moves next found passed := by
  have round := progress.rounds
  rw [goesOn] at round
  cases round with
  | blank tokens position rest isBlank =>
      refine ⟨[], [_], List.cons_ne_nil _ _, rfl, rfl, (List.append_nil _).symm, ?_⟩
      exact .blanks (List.forall_mem_singleton.2 isBlank)
  | token tokens position visible read =>
      obtain ⟨spelled, ends⟩ := spelled_of_lexeme read
      refine ⟨[_], _ :: _, List.cons_ne_nil _ _, ?_, Nat.add_assoc _ _ _, rfl,
        .single spelled ends⟩
      rw [List.cons_append, List.take_append_drop]

def last (progress : ScanProgress) : ScanProgress :=
  match _goesOn : progress.round with
  | .ok (some next) => next.last
  | _ => progress
termination_by progress.rest.length
decreasing_by
  obtain ⟨found, passed, moves⟩ := round_moves _goesOn
  have some := List.length_pos_iff.2 moves.some
  rw [moves.rest, List.length_append]
  omega

theorem last_stops (progress : ScanProgress) :
    (progress.last.round = .ok none ∧ progress.last.rest = []) ∨
      ∃ failure, progress.last.round = .error failure ∧
        progress.last.position = failure.position ∧ progress.last.rest ≠ [] := by
  fun_induction last progress with
  | case1 progress next goesOn induction => exact induction
  | case2 progress stops =>
      have round := progress.rounds
      generalize progress.round = outcome at round stops ⊢
      cases round with
      | finished tokens position => exact .inl ⟨rfl, rfl⟩
      | blank tokens position rest isBlank => exact absurd rfl (stops _)
      | token tokens position visible read => exact absurd rfl (stops _)
      | refused tokens position visible read =>
          exact .inr ⟨_, rfl, rfl, List.cons_ne_nil _ _⟩

/-- The tokens of the whole text: those found so far and those of the rest. -/
def completed (progress : ScanProgress) : Except ConditionSyntaxError (List PlacedToken) :=
  (scanFrom progress.position progress.rest).map (progress.tokens ++ ·)

theorem completed_of_round (progress : ScanProgress) :
    progress.completed =
      match progress.round with
      | .error failure => .error failure
      | .ok none => .ok progress.tokens
      | .ok (some next) => next.completed := by
  have round := progress.rounds
  generalize progress.round = outcome at round ⊢
  cases round with
  | finished tokens position => simp [completed, scanFrom, Except.map]
  | blank tokens position rest isBlank => simp only [completed, scanFrom, if_pos isBlank]
  | token tokens position visible read =>
      simp only [completed, scanFrom, if_neg visible, read]
      cases scanFrom _ _ <;> simp [Except.map]
  | refused tokens position visible read =>
      simp only [completed, scanFrom, if_neg visible, read]
      rfl

theorem last_completed (progress : ScanProgress) :
    progress.completed = progress.last.round.map fun _ => progress.last.tokens := by
  fun_induction last progress with
  | case1 progress next goesOn induction =>
      rw [completed_of_round, goesOn]
      exact induction
  | case2 progress stops =>
      rw [completed_of_round]
      split
      · next refused => rw [refused]; rfl
      · next ended => rw [ended]; rfl
      · next goesOn => exact absurd goesOn (stops _)

theorem scan_eq_last (source : String) :
    scan source = (initial source).last.round.map fun _ => (initial source).last.tokens := by
  rw [← last_completed, completed, initial, scan]
  cases scanFrom 0 source.toList <;> rfl

/-- The text up to where the scanning stands is laid out as the tokens found so far. -/
def StandsIn (progress : ScanProgress) (source : String) : Prop :=
  ∃ before, source.toList = before ++ progress.rest ∧
    progress.position = Text.byteLength before ∧ LaidOut progress.rest 0 progress.tokens before

theorem initial_stands (source : String) : (initial source).StandsIn source :=
  ⟨[], rfl, rfl, .nil⟩

theorem StandsIn.round {source : String} {progress next : ScanProgress}
    (stands : progress.StandsIn source) (goesOn : progress.round = .ok (some next)) :
    next.StandsIn source := by
  obtain ⟨before, split, position, laid⟩ := stands
  obtain ⟨found, passed, moves⟩ := round_moves goesOn
  refine ⟨before ++ passed, ?_, ?_, ?_⟩
  · rw [split, moves.rest, List.append_assoc]
  · rw [moves.position, position, Text.byte_length_append]
  · have later := moves.laid
    rw [moves.tokens]
    rw [moves.rest] at laid
    rw [position] at later
    exact laid.append (by rwa [Nat.zero_add])

theorem StandsIn.last {source : String} {progress : ScanProgress}
    (stands : progress.StandsIn source) : progress.last.StandsIn source := by
  fun_induction ScanProgress.last progress with
  | case1 progress next goesOn induction => exact induction (stands.round goesOn)
  | case2 progress stops => exact stands

end ScanProgress

def IsCharacterStart (source : String) (position : Nat) : Prop :=
  (⟨position⟩ : String.Pos.Raw).IsValid source ∧ position < source.utf8ByteSize

theorem character_starts_behind (before : String) {after : String} (some : after ≠ "") :
    IsCharacterStart (before ++ after) before.utf8ByteSize := by
  refine ⟨String.Pos.Raw.isValid_iff_exists_append.2 ⟨before, after, rfl, rfl⟩, ?_⟩
  have wide : after.utf8ByteSize ≠ 0 := by simpa using some
  rw [String.utf8ByteSize_append]
  omega

namespace ConditionToken

theorem scan_ok_iff {source : String} {tokens : List PlacedToken} :
    scan source = .ok tokens ↔ LaidOut [] 0 tokens source.toList := by
  refine ⟨fun scanned => ?_, LaidOut.scan⟩
  rw [ScanProgress.scan_eq_last] at scanned
  obtain ⟨outcome, ended, rfl⟩ := except_map_ok scanned
  obtain ⟨before, split, _, laid⟩ := (ScanProgress.initial_stands source).last
  rcases (ScanProgress.initial source).last_stops with ⟨_, nothing⟩ | ⟨failure, refused, _⟩
  · rw [nothing, List.append_nil] at split
    rw [split]
    exact laid.alone
  · rw [refused] at ended
    cases ended

/-- A text is refused at the character where the rounds stop, and the text before that
character has the tokens found until then. -/
theorem scan_refused {source : String} {failure : ConditionSyntaxError}
    (refused : scan source = .error failure) :
    (ScanProgress.initial source).last.round = .error failure ∧
      ∃ before after tokens, source = before ++ after ∧ after ≠ "" ∧
        before.utf8ByteSize = failure.position ∧
        (ScanProgress.initial source).last = ⟨tokens, failure.position, after.toList⟩ ∧
        scan before = .ok tokens := by
  rw [ScanProgress.scan_eq_last] at refused
  have stopped := except_map_error refused
  refine ⟨stopped, ?_⟩
  obtain ⟨before, split, position, laid⟩ := (ScanProgress.initial_stands source).last
  rcases (ScanProgress.initial source).last_stops with ⟨ended, _⟩ | ⟨other, same, placed, some⟩
  · rw [stopped] at ended
    cases ended
  · rw [stopped] at same
    cases same
    generalize (ScanProgress.initial source).last = last at split position laid placed some ⊢
    obtain ⟨tokens, reached, rest⟩ := last
    subst placed
    refine ⟨String.ofList before, String.ofList rest, tokens, ?_, ?_, ?_, ?_, ?_⟩
    · rw [← String.ofList_append, ← split, String.ofList_toList]
    · exact fun empty => some (String.ofList_eq_empty_iff.1 empty)
    · rw [Text.byte_size_of_list]
      exact position.symm
    · rw [String.toList_ofList]
    · rw [scan_ok_iff, String.toList_ofList]
      exact laid.alone

/-- A text has tokens exactly when it is made of blank runs and one spelling of each token at
its place, every token as long as it can be. The places are characters of the text, from left
to right. A text is refused at one of its characters, and the text before that character has
the tokens that were found when it was reached. -/
theorem scanning_loses_nothing (source : String) :
    (∀ tokens, scan source = .ok tokens ↔ LaidOut [] 0 tokens source.toList) ∧
    (∀ tokens, scan source = .ok tokens →
      (tokens.Pairwise fun left right => left.position < right.position) ∧
        ∀ placed ∈ tokens, IsCharacterStart source placed.position) ∧
    ∀ failure, scan source = .error failure →
      IsCharacterStart source failure.position ∧
        ∃ before after tokens, source = before ++ after ∧
          before.utf8ByteSize = failure.position ∧
          (ScanProgress.initial source).last = ⟨tokens, failure.position, after.toList⟩ ∧
          (ScanProgress.initial source).last.round = .error failure ∧
          scan before = .ok tokens := by
  refine ⟨fun tokens => scan_ok_iff, fun tokens scanned => ?_, fun failure refused => ?_⟩
  · refine ⟨(scan_from_ascends scanned).2, fun placed member => ?_⟩
    obtain ⟨before, first, rest, _, split, position, _⟩ := scan_places scanned placed member
    rw [split, ← position]
    exact character_starts_behind before (by simp)
  · obtain ⟨stopped, before, after, tokens, split, some, position, last, scanned⟩ :=
      scan_refused refused
    refine ⟨?_, before, after, tokens, split, position, last, stopped, scanned⟩
    rw [split, ← position]
    exact character_starts_behind before some

def crowdedText : String := "!(env.A=='\u00e9\\n')&&b failed"

def crowdedTokens : List PlacedToken :=
  [⟨0, .not⟩, ⟨1, .opening⟩, ⟨2, .variable "A"⟩, ⟨7, .equal⟩, ⟨9, .literal "\u00e9\n"⟩,
    ⟨15, .closing⟩, ⟨16, .and⟩, ⟨18, .word "b"⟩, ⟨20, .word "failed"⟩]

def brokenText : String := "'\u00e9'\u2003!$A&b"

def brokenTokens : List PlacedToken := [⟨0, .literal "\u00e9"⟩, ⟨7, .not⟩, ⟨8, .variable "A"⟩]

theorem crowded_and_broken_texts_scanned :
    (scan crowdedText = .ok crowdedTokens ∧ LaidOut [] 0 crowdedTokens crowdedText.toList ∧
      ∀ placed ∈ crowdedTokens, IsCharacterStart crowdedText placed.position) ∧
    scan brokenText = .error ⟨10, .unexpectedCharacter '&'⟩ ∧ IsCharacterStart brokenText 10 ∧
      ∃ before after, brokenText = before ++ after ∧ before.utf8ByteSize = 10 ∧
        scan before = .ok brokenTokens := by
  have scanned : scan crowdedText = .ok crowdedTokens := by cbv
  have crowded := scanning_loses_nothing crowdedText
  have refused : scan brokenText = .error ⟨10, .unexpectedCharacter '&'⟩ := by cbv
  have broken := (scanning_loses_nothing brokenText).2.2 _ refused
  refine ⟨⟨scanned, (crowded.1 _).1 scanned, (crowded.2.1 _ scanned).2⟩, refused, broken.1, ?_⟩
  obtain ⟨before, after, tokens, split, position, last, _, found⟩ := broken.2
  have reached : (ScanProgress.initial brokenText).last.tokens = brokenTokens := by cbv
  rw [last] at reached
  exact ⟨before, after, split, position, found.trans (congrArg Except.ok reached)⟩

end ConditionToken

end PipelineWaves
