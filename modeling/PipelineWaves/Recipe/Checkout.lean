import PipelineWaves.Recipe.Process
import PipelineWaves.Text.Blank

/-!
# Checkouts

A working copy of a repository on a branch. A missing one is cloned; one that
stands on another branch is brought up to date and switched; one on the right
branch is left alone. A path where something else lies is refused.
-/

set_option autoImplicit false

namespace PipelineWaves

structure Checkout where
  git : String
  repository : String
  branch : String
  target : FilePath
deriving DecidableEq, Repr

inductive CheckoutState where
  | missing
  | repository
  | occupied
deriving DecidableEq, Repr

namespace Checkout

/-- An empty directory can be cloned into and counts as missing. -/
def inspect (files : Files) (target : FilePath) : Except RecipeError CheckoutState :=
  if files.isPresent (target.join ⟨".git"⟩) then .ok .repository
  else
    match files.node? target with
    | .error .missing => .ok .missing
    | .error fault => .error (.filesystem target fault.text)
    | .ok (_, .directory []) => .ok .missing
    | .ok _ => .ok .occupied

/-- The branch that the working copy stands on, if the question is answered. -/
def currentBranch (checkout : Checkout) (place : StepPlace) : Doing (Option String) := do
  let output ← place.probe (some checkout.target) checkout.git
    ["rev-parse", "--abbrev-ref", "HEAD"]
  return if output.isSuccess then some (Text.trimBlank output.stdout) else none

def switch (checkout : Checkout) (place : StepPlace) : Doing Unit := do
  place.run (some checkout.target) checkout.git ["fetch", "origin", checkout.branch]
  place.run (some checkout.target) checkout.git ["checkout", checkout.branch]

def clone (checkout : Checkout) (place : StepPlace) : Doing Unit := do
  match checkout.target.parent? with
  | some parent => Doing.call parent (Files.createDirectories parent)
  | none => pure ()
  place.run none checkout.git
    ["clone", "--branch", checkout.branch, "--single-branch", checkout.repository,
      checkout.target.text]

def occupiedReason : String := "path exists and is not a git repository"

def run (checkout : Checkout) (place : StepPlace) : Doing Unit := do
  match ← Attempt.reading fun state => inspect state.files checkout.target with
  | .repository =>
      if (← checkout.currentBranch place) = some checkout.branch then pure ()
      else checkout.switch place
  | .occupied => throw (.filesystem checkout.target occupiedReason)
  | .missing => checkout.clone place

end Checkout

end PipelineWaves
