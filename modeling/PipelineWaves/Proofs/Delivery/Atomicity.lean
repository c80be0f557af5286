import PipelineWaves.Proofs.Delivery.Installation
import PipelineWaves.Proofs.Delivery.Naming
import PipelineWaves.Proofs.Delivery.Reliable
import PipelineWaves.Proofs.Graph.Plan
import PipelineWaves.Proofs.Program.Generation

/-!
# All or nothing

A program reaches its directory with all its files or leaves every file as it
was, whichever calls fail, and nothing of the staging directory stays. The
staging name has the digits of a new identifier, so it is nowhere in the tree
before. A production that fails at any point leaves every file as it was.
-/

set_option autoImplicit false

namespace PipelineWaves

namespace Delivery

/-- An identifier whose staging name is nowhere in a tree or in the path of the directory. -/
structure IsNew (identifier : RunIdentifier) (directory : FilePath) (files : Files) : Prop where
  hexadecimal : identifier.IsHexadecimal
  apart : stagingName directory identifier ∉ directory.pieces
  unused : files.Lacks (stagingName directory identifier)

/-- What a delivery leaves, by its result. -/
def Site.Ended {Error : Type} (site : Site) (before : Files)
    (result : Except Error GeneratedProgram) (after : Files) : Prop :=
  match result with
  | .ok program => site.Delivered program.files before after
  | .error _ => site.Untouched before after

section Ending

variable {identifier : RunIdentifier} {directory : FilePath} {watched : Watched}
  (plan : Nat → Option Mishap)

omit plan in
theorem IsNew.untouched (isNew : IsNew identifier directory watched.files)
    (plain : watched.files.IsPlain) :
    (Site.of directory identifier).Untouched watched.files watched.files :=
  ⟨fun _ => rfl, (site_sound isNew.hexadecimal isNew.apart).absent_of_lacks plain isNew.unused,
    isNew.unused⟩

theorem deliver_ends {compiled : CompiledPipeline} {program : GeneratedProgram}
    (generated : compiled.generate = .ok program)
    (plain : watched.files.IsPlain) (isNew : IsNew identifier directory watched.files) :
    (program.deliver ((Site.of directory identifier).calls plan) identifier directory).Ends
      watched
      (fun _ after =>
        (Site.of directory identifier).Delivered program.files watched.files after.files)
      fun after => (Site.of directory identifier).Untouched watched.files after.files := by
  have sound := site_sound isNew.hexadecimal isNew.apart
  obtain ⟨takes, apart, any⟩ : (∀ file ∈ program.files, (Site.of directory identifier).Takes file) ∧
      _ ∧ _ := program_takes generated
  have lacks : watched.files.Lacks (Site.of directory identifier).name := isNew.unused
  have unnamed := Site.unnamed_of_lacks plain lacks
  rw [GeneratedProgram.deliver]
  refine ((Site.make_parent_ends sound unnamed (Site.keeps_nothing plain lacks) lacks).weaken
    (fun _ _ => id) fun after both => ?_).bind fun _ made both => ?_
  · exact both.1.untouched sound lacks unnamed ⟨rfl, both.2, fun _ _ => rfl⟩
  have installed : ((install ((Site.of directory identifier).calls plan)
      (Site.of directory identifier).staging directory program.files).tried :
        Step Watched (Except GenerationError Unit)).Ends made
      (Attempt.Tried (fun _ after => (Site.of directory identifier).Installed watched.files
        after.files program.files)
        fun after => (Site.of directory identifier).Keeps watched.files after.files [])
      fun after => (Site.of directory identifier).Untouched watched.files after.files :=
    (Site.install_ends sound unnamed takes apart any both.1 both.2).tried
  refine installed.bind fun result after ended => ?_
  cases result with
  | ok _ =>
      have ended : (Site.of directory identifier).Installed watched.files after.files
        program.files := ended
      refine ((Site.sweep_ends sound ended.plain ended.confined).weaken (fun _ _ => id)
        fun _ => False.elim).bind fun _ _ swept => ?_
      exact Attempt.ends_pure (ended.delivered sound (fun file member => (takes file member).fresh)
        lacks unnamed swept)
  | error failure =>
      have ended : (Site.of directory identifier).Keeps watched.files after.files [] := ended
      refine ((Site.sweep_ends sound ended.plain ended.confined).weaken (fun _ _ => id)
        fun _ => False.elim).bind fun _ _ swept => ?_
      exact Attempt.ends_throw (ended.untouched sound lacks unnamed swept)

theorem deliver_compiled (compiled : CompiledPipeline) (plain : watched.files.IsPlain)
    (isNew : IsNew identifier directory watched.files) :
    (Site.of directory identifier).Ended watched.files
      (Production.deliver ((Site.of directory identifier).calls plan) compiled identifier directory
        watched).1
      (Production.deliver ((Site.of directory identifier).calls plan) compiled identifier directory
        watched).2.files := by
  rw [Production.deliver]
  cases generated : compiled.generate with
  | error failure => exact isNew.untouched plain
  | ok program =>
      dsimp only
      refine (deliver_ends plan generated plain isNew).cases (fun _ after ended delivered => ?_)
        fun _ after ended untouched => ?_
      · rw [ended]
        exact delivered
      · rw [ended]
        exact untouched

theorem production_ended (plain : watched.files.IsPlain)
    (isNew : IsNew identifier directory watched.files)
    (load : Watched → FilePath → Except LoadError Definition) (path : FilePath) :
    let production := Production.runWith ((Site.of directory identifier).calls plan) load identifier
      path directory watched
    (Site.of directory identifier).Ended watched.files production.result
      production.files.files := by
  rw [Production.runWith]
  cases load watched path with
  | error failure => exact isNew.untouched plain
  | ok definition =>
      dsimp only
      cases CompiledPipeline.compile definition.toPipeline with
      | error failure => exact isNew.untouched plain
      | ok compiled =>
          have ended := deliver_compiled plan compiled plain isNew
          dsimp only
          split
          · rename_i outcome
            rw [outcome] at ended
            exact ended
          · rename_i outcome
            rw [outcome] at ended
            exact ended

end Ending

end Delivery

def filesInUse : Files :=
  ⟨.directory [("out", .directory [("Cargo.toml", .ofText "[package]" false),
    ("notes.txt", .ofText "keep" false)])], []⟩

/-- No link stands in that tree, and no name in it has a hyphen. -/
theorem stands_in_use {location : Location} {standing : Standing}
    (stands : filesInUse.stands location = some standing) :
    (∀ target, standing ≠ .link target) ∧ ∀ name ∈ location, '-' ∉ name.toList := by
  have bare : ∀ text (rest : Location), (FileNode.ofText text false).stands rest = some standing →
      (∀ target, standing ≠ .link target) ∧ rest = [] := by
    intro text rest stands
    cases rest with
    | nil =>
      cases stands
      simp [FileNode.ofText, FileNode.standing]
    | cons name rest => cases stands
  rw [Files.stands, filesInUse] at stands
  rcases location with _ | ⟨outer, _ | ⟨inner, rest⟩⟩
  · rw [FileNode.stands_nil, Option.some_inj] at stands
    simp [← stands, FileNode.standing]
  · rw [FileNode.stands_entry] at stands
    split_ifs at stands with isOut
    · rw [FileNode.stands_nil, Option.some_inj] at stands
      simp [← stands, isOut, FileNode.standing]
    · cases stands
  · rw [FileNode.stands_entry] at stands
    split_ifs at stands with isOut
    · rw [FileNode.stands_entry, FileNode.stands_entry] at stands
      split_ifs at stands with isManifest isNotes
      · obtain ⟨noLink, rfl⟩ := bare _ _ stands
        simp [noLink, isOut, isManifest]
      · obtain ⟨noLink, rfl⟩ := bare _ _ stands
        simp [noLink, isOut, isNotes]
      · cases stands
    · cases stands

theorem files_in_use_plain : filesInUse.IsPlain :=
  ⟨fun _ target link => (stands_in_use link).1 target rfl, rfl⟩

theorem zero_is_new : Delivery.IsNew .zero ⟨"out"⟩ filesInUse := by
  refine ⟨by decide, ?_, fun location member => ?_⟩
  · rw [show FilePath.pieces ⟨"out"⟩ = ["out"] by decide, List.mem_singleton]
    exact Delivery.staging_name_ne (by decide)
  · by_contra something
    obtain ⟨standing, stands⟩ := Option.ne_none_iff_exists'.1 something
    exact Delivery.staging_name_ne ((stands_in_use stands).2 _ member) rfl

/-- Whichever calls fail, a program arrives with all its files or every file is as it was, and
nothing staged is left; so it is for a whole production, and for one with the system's own calls. -/
theorem delivery_all_or_nothing (identifier : RunIdentifier) (directory : FilePath)
    (watched : Watched) (plan : Nat → Option Mishap) (plain : watched.files.IsPlain)
    (isNew : Delivery.IsNew identifier directory watched.files) :
    (∀ (compiled : CompiledPipeline) (program : GeneratedProgram),
      compiled.generate = .ok program →
      (program.deliver ((Delivery.Site.of directory identifier).calls plan) identifier
          directory).Ends watched
        (fun _ after => (Delivery.Site.of directory identifier).Delivered program.files
          watched.files after.files)
        fun after => (Delivery.Site.of directory identifier).Untouched watched.files
          after.files) ∧
    (∀ (load : Watched → FilePath → Except LoadError Definition) (path : FilePath),
      let production := Production.runWith ((Delivery.Site.of directory identifier).calls plan) load
        identifier path directory watched
      (Delivery.Site.of directory identifier).Ended watched.files production.result
        production.files.files) ∧
    ∀ path : FilePath,
      let production := Production.run identifier path directory watched.files
      (Delivery.Site.of directory identifier).Ended watched.files production.result
        production.files := by
  refine ⟨fun compiled program generated => Delivery.deliver_ends plan generated plain isNew,
    Delivery.production_ended plan plain isNew, fun path => ?_⟩
  obtain ⟨sameResult, sameFiles⟩ :=
    Production.run_follows (Delivery.Site.of directory identifier).backups watched identifier path
      directory
  have ended := Delivery.production_ended (fun _ => none) plain isNew
    (fun watched => Definition.load watched.files) path
  dsimp only at ended ⊢
  rwa [sameResult, sameFiles] at ended

def lastMoveFails (turn : Nat) : Option Mishap :=
  if turn = 10 then some ⟨.busy, 0, none⟩ else none

def unmovedDelivery (program : GeneratedProgram) : Attempt Watched GenerationError Unit :=
  program.deliver ((Delivery.Site.of ⟨"out"⟩ .zero).calls lastMoveFails) .zero ⟨"out"⟩

theorem release_program_unmoved : ∃ compiled program,
    CompiledPipeline.compile releasePipeline = .ok compiled ∧ compiled.generate = .ok program ∧
      ((unmovedDelivery program).outcome ⟨filesInUse, 0⟩).1.isOk = false := by
  have accepted : ∃ compiled, CompiledPipeline.compile releasePipeline = .ok compiled ∧
      (ProgramTables.of compiled).values.isOk = true ∧
      ∀ values ∈ (ProgramTables.of compiled).values.toOption,
        ((unmovedDelivery ⟨PackageName.of (ProgramTables.of compiled).pipelineName,
          [⟨GeneratedProgram.manifestPath, Template.filled values ProgramFragment.manifest⟩,
            ⟨GeneratedProgram.mainPath, Template.filled values ProgramFragment.program⟩]⟩).outcome
          ⟨filesInUse, 0⟩).1.isOk = false :=
    ⟨_, by cbv, by decide +kernel, by decide +kernel⟩
  obtain ⟨compiled, compiles, canWrite, refused⟩ := accepted
  obtain ⟨values, written⟩ := ProgramTables.values_of_is_ok canWrite
  exact ⟨compiled, _, compiles, ProgramTables.program_of_values written,
    refused values (by rw [written]; rfl)⟩

/-- The delivery fails, and the manifest is the one that was there. -/
theorem release_pipeline_delivery :
    filesInUse.IsPlain ∧ Delivery.IsNew .zero ⟨"out"⟩ filesInUse ∧
    ∃ compiled program,
      CompiledPipeline.compile releasePipeline = .ok compiled ∧
      compiled.generate = .ok program ∧
      (unmovedDelivery program).Ends ⟨filesInUse, 0⟩
        (fun _ after => (Delivery.Site.of ⟨"out"⟩ .zero).Delivered program.files filesInUse
          after.files)
        (fun after => (Delivery.Site.of ⟨"out"⟩ .zero).Untouched filesInUse after.files) ∧
      ∃ failure after, (unmovedDelivery program).outcome ⟨filesInUse, 0⟩ = (.error failure, after) ∧
        after.files.fileAt? ["out", "Cargo.toml"] = some ("[package]".toUTF8, false) := by
  obtain ⟨compiled, program, compiles, generated, refused⟩ := release_program_unmoved
  have ends := (delivery_all_or_nothing .zero ⟨"out"⟩ ⟨filesInUse, 0⟩ lastMoveFails
    files_in_use_plain zero_is_new).1 compiled program generated
  refine ⟨files_in_use_plain, zero_is_new, compiled, program, compiles, generated, ends, ?_⟩
  refine ends.cases (fun result after ended _ => ?_) fun failure after ended untouched =>
    ⟨failure, after, ended, untouched.files _⟩
  rw [unmovedDelivery, ended] at refused
  cases refused

-- Without a mishap the new manifest is there; with one the older manifest is put back.
example :
    let program : GeneratedProgram := ⟨"release",
      [⟨GeneratedProgram.manifestPath, "new"⟩, ⟨GeneratedProgram.mainPath, "fn main"⟩]⟩
    let ended (plan : Nat → Option Mishap) :=
      (program.deliver ((Delivery.Site.of ⟨"out"⟩ .zero).calls plan) .zero ⟨"out"⟩).outcome
        ⟨filesInUse, 0⟩
    let manifest (plan : Nat → Option Mishap) :=
      (ended plan).2.files.fileAt? ["out", "Cargo.toml"]
    (ended fun _ => none).1.isOk = true ∧ manifest (fun _ => none) = some ("new".toUTF8, false) ∧
      (ended lastMoveFails).1.isOk = false ∧
      manifest lastMoveFails = some ("[package]".toUTF8, false) := by
  decide +kernel

end PipelineWaves
