import Phrasebook.Proofs.Session.Leaving

/-!
# Flags of a session

Whether a session is silent, and whether its run is dry, does not matter to what it merges.  A
silent session leaves without a word what another one leaves, and a dry run ends where the writing
would begin.
-/

namespace Phrasebook.Session

open Catalog

/-- A session with other flags. -/
def withFlags (session : Session) (silent dryRun : Bool) : Session :=
  { session with options := { session.options with silent, dryRun } }

variable {session : Session} {tree : FileTree} {silent dryRun : Bool}

/-- Two steps that differ at most in flags and in what they tell. -/
structure Step.Alike (silent dryRun : Bool) (step other : Step) : Prop where
  session : other.session = step.session.withFlags silent dryRun
  result : other.result = step.result

/-- Steps that are alike stay so when they go on alike. -/
theorem Step.Alike.andThen {step other : Step} {next : Session → Step}
    (alike : Step.Alike silent dryRun step other)
    (onward : ∀ session, Step.Alike silent dryRun (next session)
      (next (session.withFlags silent dryRun))) :
    Step.Alike silent dryRun (step.andThen next) (other.andThen next) := by
  unfold Step.andThen
  rw [alike.result]
  cases step.result with
  | error error => exact alike
  | ok _ =>
      have later := onward step.session
      rw [← alike.session] at later
      exact ⟨later.session, later.result⟩

end Phrasebook.Session
