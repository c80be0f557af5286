import Mathlib.Data.Set.Card
import PipelineWaves.Proofs.Files.Change

/-!
# Trees laid over others

What a copy has done to a tree once some locations of the source have been copied: each
regular file among them stands at the destination, or in the directory that was there, each
directory among them is one there, and nothing else has changed. Copies of parts that do not
lie in one another make a copy of both parts, as no two files land at one location.
-/

set_option autoImplicit false

namespace PipelineWaves

namespace Artifact

def Apart (left right : Location) : Prop := ¬ left <+: right ∧ ¬ right <+: left

/-- Where a file of the source lands: at its place in the destination, or, where a directory is,
in that directory under the name of the file. -/
def landing (before : Files) (origin target rest : Location) : Location :=
  if before.stands (target ++ rest) = some .directory then
    target ++ rest ++ (origin ++ rest).getLast?.toList
  else target ++ rest

/-- The regular files among some locations of the source. -/
def filesIn (files : Files) (origin : Location) (part : Set Location) : Set Location :=
  {rest ∈ part | (files.fileAt? (origin ++ rest)).isSome}

/-- A part of the source has been copied, and nothing else has changed. -/
structure Overlaid (origin target : Location) (part : Set Location) (before after : Files)
    (copied : Nat) : Prop where
  counted : (filesIn before origin part).encard = copied
  distinct : Set.InjOn (landing before origin target) (filesIn before origin part)
  landed : ∀ rest ∈ filesIn before origin part,
    after.fileAt? (landing before origin target rest) = before.fileAt? (origin ++ rest)
  directories : ∀ rest ∈ part, before.stands (origin ++ rest) = some .directory →
    after.stands (target ++ rest) = some .directory
  others : ∀ location, (∀ rest ∈ filesIn before origin part,
    location ≠ landing before origin target rest) →
      after.fileAt? location = before.fileAt? location
  outside : ∀ location, (∀ rest ∈ part, ¬ target ++ rest <+: location) →
    after.stands location = before.stands location

theorem mem_files_in {files : Files} {origin : Location} {part : Set Location}
    {rest : Location} : rest ∈ filesIn files origin part ↔
      rest ∈ part ∧ (files.fileAt? (origin ++ rest)).isSome := Iff.rfl

section Places

variable {origin target rest other location : Location} {before middle : Files}

theorem Apart.entry (apart : Apart origin target) (name : String) :
    Apart (origin ++ [name]) (target ++ [name]) := by
  have lies : ∀ {left right : Location}, Apart left right →
      ¬ left ++ [name] <+: right ++ [name] := by
    intro left right apart inside
    have leftInside := (List.prefix_append left [name]).trans inside
    rcases List.prefix_concat_iff.1 leftInside with same | inRight
    · exact apart.2 (same ▸ List.prefix_append right [name])
    · exact apart.1 inRight
  exact ⟨lies apart, lies ⟨apart.2, apart.1⟩⟩

theorem Apart.below (apart : Apart origin target) (rest : Location) :
    ¬ target <+: origin ++ rest := by
  intro inside
  rcases List.prefix_or_prefix_of_prefix inside (List.prefix_append origin rest) with lies | lies
  · exact apart.2 lies
  · exact apart.1 lies

theorem landing_below (before : Files) (origin target rest : Location) :
    target ++ rest <+: landing before origin target rest := by
  rw [landing]
  split
  · exact List.prefix_append _ _
  · exact List.prefix_rfl

theorem landing_of_stands
    (same : middle.stands (target ++ rest) = before.stands (target ++ rest)) :
    landing middle origin target rest = landing before origin target rest := by
  rw [landing, landing, same]

theorem landing_entry (name : String) : landing before (origin ++ [name]) (target ++ [name]) rest =
    landing before origin target (name :: rest) := by
  rw [landing, landing, List.append_cons target name rest, List.append_cons origin name rest]

/-- A file lands outside of the places of locations that it does not lie in or above. -/
theorem landing_apart (apart : Apart rest other) :
    ¬ target ++ other <+: landing before origin target rest := by
  intro inside
  have above := landing_below before origin target rest
  rcases List.prefix_or_prefix_of_prefix above inside with lies | lies
  · exact apart.1 ((List.prefix_append_right_inj target).1 lies)
  · exact apart.2 ((List.prefix_append_right_inj target).1 lies)

end Places

namespace Overlaid

variable {origin target : Location} {part other : Set Location} {before middle after : Files}
  {copied others : Nat}

theorem source (overlaid : Overlaid origin target part before after copied)
    (apart : Apart origin target) (rest : Location) :
    after.stands (origin ++ rest) = before.stands (origin ++ rest) :=
  overlaid.outside _ fun _ _ inside =>
    apart.below rest ((List.prefix_append target _).trans inside)

theorem nothing (origin target : Location) (before : Files) :
    Overlaid origin target ∅ before before 0 := by
  have noFile : filesIn before origin ∅ = ∅ := by simp [filesIn]
  refine ⟨by simp [noFile], ?_, ?_, nofun, fun _ _ => rfl, fun _ _ => rfl⟩
  · rw [noFile]
    exact Set.injOn_empty _
  · rw [noFile]
    exact nofun

theorem join (first : Overlaid origin target part before middle copied)
    (second : Overlaid origin target other middle after others) (apart : Apart origin target)
    (parts : ∀ rest ∈ part, ∀ later ∈ other, Apart rest later) :
    Overlaid origin target (part ∪ other) before after (copied + others) := by
  have kept := first.source apart
  have sameFile : ∀ rest, middle.fileAt? (origin ++ rest) = before.fileAt? (origin ++ rest) :=
    fun rest => Files.file_at_of_stands (kept rest)
  have sameFiles : filesIn middle origin other = filesIn before origin other := by
    ext rest
    rw [mem_files_in, mem_files_in, sameFile]
  have sameLanding : ∀ rest ∈ other,
      landing middle origin target rest = landing before origin target rest := by
    intro rest member
    apply landing_of_stands
    refine first.outside _ fun earlier isEarlier inside => ?_
    exact (parts earlier isEarlier rest member).1 ((List.prefix_append_right_inj target).1 inside)
  have union : filesIn before origin (part ∪ other) =
      filesIn before origin part ∪ filesIn before origin other := Set.sep_union
  have disjoint : Disjoint (filesIn before origin part) (filesIn before origin other) := by
    rw [Set.disjoint_left]
    exact fun rest member isOther => (parts rest member.1 rest isOther.1).1 List.prefix_rfl
  have keepsLanded : ∀ rest ∈ part, after.stands (landing before origin target rest) =
      middle.stands (landing before origin target rest) :=
    fun rest member => second.outside _ fun later isLater =>
      landing_apart (parts rest member later isLater)
  refine ⟨?_, ?_, ?_, ?_, ?_, ?_⟩
  · rw [union, Set.encard_union_eq disjoint, first.counted, ← sameFiles, second.counted,
      Nat.cast_add]
  · have secondDistinct := second.distinct.congr fun rest member => sameLanding rest member.1
    rw [sameFiles] at secondDistinct
    rw [union, Set.injOn_union disjoint]
    refine ⟨first.distinct, secondDistinct, fun rest member later isLater same => ?_⟩
    apply @landing_apart origin target rest later before (parts rest member.1 later isLater.1)
    rw [same]
    exact landing_below before origin target later
  · rw [union]
    rintro rest (member | member)
    · rw [Files.file_at_of_stands (keepsLanded rest member.1), first.landed rest member]
    · rw [← sameLanding rest member.1, second.landed rest (sameFiles ▸ member), sameFile]
  · rintro rest (member | member) isDirectory
    · have stays : after.stands (target ++ rest) = middle.stands (target ++ rest) :=
        second.outside _ fun later isLater inside => (parts rest member later isLater).2
          ((List.prefix_append_right_inj target).1 inside)
      rw [stays, first.directories rest member isDirectory]
    · exact second.directories rest member (by rw [kept, isDirectory])
  · intro location free
    rw [union] at free
    rw [second.others location, first.others location fun rest member => free rest (.inl member)]
    intro rest member
    rw [sameLanding rest member.1]
    exact free rest (.inr (sameFiles ▸ member))
  · intro location free
    rw [second.outside location fun rest member => free rest (.inr member),
      first.outside location fun rest member => free rest (.inl member)]

theorem entry {name : String}
    (inner : Overlaid (origin ++ [name]) (target ++ [name]) part before after copied) :
    Overlaid origin target (List.cons name '' part) before after copied := by
  have sameFiles : filesIn before origin (List.cons name '' part) =
      List.cons name '' filesIn before (origin ++ [name]) part := by
    ext rest
    constructor
    · rintro ⟨⟨inner, member, rfl⟩, isFile⟩
      exact ⟨inner, ⟨member, by rwa [← List.append_cons]⟩, rfl⟩
    · rintro ⟨inner, ⟨member, isFile⟩, rfl⟩
      exact ⟨⟨inner, member, rfl⟩, by rwa [List.append_cons]⟩
  refine ⟨?_, ?_, ?_, ?_, ?_, ?_⟩
  · rw [sameFiles, List.cons_injective.encard_image, inner.counted]
  · rw [sameFiles]
    refine Set.InjOn.image_of_comp fun first isFirst second isSecond same => ?_
    rw [Function.comp_apply, Function.comp_apply, ← landing_entry, ← landing_entry] at same
    exact inner.distinct isFirst isSecond same
  · rw [sameFiles]
    rintro _ ⟨rest, member, rfl⟩
    rw [← landing_entry, inner.landed rest member, List.append_cons origin name rest]
  · rintro _ ⟨rest, member, rfl⟩ isDirectory
    rw [List.append_cons] at isDirectory ⊢
    exact inner.directories rest member isDirectory
  · intro location free
    rw [sameFiles] at free
    refine inner.others location fun rest member => ?_
    rw [landing_entry]
    exact free _ ⟨rest, member, rfl⟩
  · intro location free
    refine inner.outside location fun rest member => ?_
    rw [← List.append_cons]
    exact free _ ⟨rest, member, rfl⟩

theorem widen (overlaid : Overlaid origin target part before after copied) (wider : part ⊆ other)
    (noFile : ∀ rest ∈ other, rest ∉ part → before.fileAt? (origin ++ rest) = none)
    (directories : ∀ rest ∈ other, rest ∉ part →
      before.stands (origin ++ rest) = some .directory →
        after.stands (target ++ rest) = some .directory) :
    Overlaid origin target other before after copied := by
  have sameFiles : filesIn before origin other = filesIn before origin part := by
    ext rest
    refine ⟨fun member => ⟨?_, member.2⟩, fun member => ⟨wider member.1, member.2⟩⟩
    by_contra notIn
    have isFile := member.2
    rw [noFile rest member.1 notIn] at isFile
    cases isFile
  refine ⟨?_, ?_, ?_, fun rest member isDirectory => ?_, ?_, ?_⟩
  · rw [sameFiles, overlaid.counted]
  · rw [sameFiles]
    exact overlaid.distinct
  · rw [sameFiles]
    exact overlaid.landed
  · by_cases known : rest ∈ part
    · exact overlaid.directories rest known isDirectory
    · exact directories rest member known isDirectory
  · rw [sameFiles]
    exact overlaid.others
  · exact fun location free => overlaid.outside location fun rest member => free rest (wider member)

/-- The target itself may have been made first, unless it is that of a file. -/
theorem before_made {files : Files} (overlaid : Overlaid origin target .univ before after copied)
    (apart : Apart origin target)
    (elsewhere : ∀ location, location ≠ target → before.stands location = files.stands location)
    (sameFile : before.fileAt? target = files.fileAt? target)
    (notMade : (files.fileAt? origin).isSome → before.stands target = files.stands target) :
    Overlaid origin target .univ files after copied := by
  have inSource : ∀ rest, before.stands (origin ++ rest) = files.stands (origin ++ rest) :=
    fun rest => elsewhere _ fun same => apart.below rest (same ▸ List.prefix_rfl)
  have sameFiles : filesIn before origin .univ = filesIn files origin .univ := by
    ext rest
    rw [mem_files_in, mem_files_in, Files.file_at_of_stands (inSource rest)]
  have sameLanding : Set.EqOn (landing before origin target) (landing files origin target)
      (filesIn files origin .univ) := by
    intro rest member
    apply landing_of_stands
    by_cases top : rest = []
    · rw [top, List.append_nil]
      apply notMade
      have isFile := member.2
      rwa [top, List.append_nil] at isFile
    · exact elsewhere _ (by simpa using top)
  refine ⟨?_, ?_, fun rest member => ?_, fun rest _ isDirectory => ?_, fun location free => ?_,
    fun location free => ?_⟩
  · rw [← sameFiles, overlaid.counted]
  · rw [← sameLanding.injOn_iff, ← sameFiles]
    exact overlaid.distinct
  · rw [← sameLanding member, overlaid.landed rest (sameFiles ▸ member),
      Files.file_at_of_stands (inSource rest)]
  · exact overlaid.directories rest trivial (by rw [inSource, isDirectory])
  · rw [overlaid.others location fun rest member => ?_]
    · by_cases same : location = target
      · rw [same, sameFile]
      · exact Files.file_at_of_stands (elsewhere location same)
    · rw [sameFiles] at member
      rw [sameLanding member]
      exact free rest member
  · rw [overlaid.outside location free]
    refine elsewhere location fun same => free [] trivial ?_
    rw [same, List.append_nil]

theorem single {contents : ByteArray} {executable : Bool}
    (isFile : before.stands origin = some (.file contents executable))
    (change : before.Changes after (landing before origin target [])
      (some (.file contents executable))) :
    Overlaid origin target .univ before after 1 := by
  have nothingBelow : ∀ rest, rest ≠ [] → before.stands (origin ++ rest) = none :=
    fun rest inner => Files.nothing_below (by simp [isFile]) (List.prefix_append origin rest)
      (by simpa using inner)
  have onlyFile : filesIn before origin .univ = {[]} := by
    ext rest
    rw [mem_files_in, Set.mem_singleton_iff]
    constructor
    · rintro ⟨_, found⟩
      by_contra inner
      rw [Files.file_at_vacant (nothingBelow rest inner)] at found
      cases found
    · rintro rfl
      rw [List.append_nil, Files.file_at_of_file isFile]
      exact ⟨trivial, rfl⟩
  refine ⟨?_, ?_, ?_, fun rest _ isDirectory => ?_, ?_, fun location free => ?_⟩
  · rw [onlyFile, Set.encard_singleton, Nat.cast_one]
  · rw [onlyFile]
    exact Set.injOn_singleton _ _
  · rw [onlyFile]
    rintro _ rfl
    rw [Files.file_at_of_file change.stands_at, List.append_nil, Files.file_at_of_file isFile]
  · by_cases top : rest = []
    · rw [top, List.append_nil, isFile] at isDirectory
      cases isDirectory
    · rw [nothingBelow rest top] at isDirectory
      cases isDirectory
  · rw [onlyFile]
    exact fun location free => change.file_elsewhere (free [] rfl)
  · refine change.stands_elsewhere fun same => free [] trivial ?_
    rw [same]
    exact landing_below before origin target []

end Overlaid

end Artifact

end PipelineWaves
