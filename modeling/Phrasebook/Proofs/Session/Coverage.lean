import Phrasebook.Proofs.Catalog.Content
import Phrasebook.Proofs.Session.Reached

/-!
# Coverage

No registered key gets lost: whatever was registered before and after it, a key that can
be registered at all has a translation in every locale.  The one exception is a path that
an array blocks, which takes no value for a name.
-/

namespace Phrasebook.Session

open Json KeyPath Catalog

variable {options : Options} {session : Session} {key locale : String} {output : Value}

/-- The outputs of the loaded locales. -/
def outputs (session : Session) : List (String × Value) :=
  (session.catalog.map Catalog.outputs).getD []

/-- In every reached session, an accepted key has a translation in every output, unless
its path is blocked there. -/
theorem registered_key_is_covered (reached : Reached options session)
    (registered : key ∈ session.keys) (accepted : accepts key = true)
    (present : (locale, output) ∈ session.outputs) :
    (∃ value, get? output key = some value ∧ value.isTruthy = true) ∨
      Blocked output (segments key) := by
  cases loaded : session.catalog with
  | none => simp [outputs, loaded] at present
  | some catalog =>
      obtain ⟨store, expansions, operations, locales, _, keys⟩ :=
        reached.accounted.loaded catalog loaded
      have sameOutputs : session.outputs =
          ((ofStore store session.options.base expansions).run operations).outputs := by
        simp only [outputs, loaded, Option.map_some, Option.getD_some, Catalog.outputs,
          locales]
      have found := get?_of_mem_outputs (sameOutputs ▸ present)
      exact get?_or_blocked_outputs accepted ((keys key).mp registered) found

/-- The files of a project whose only locale has no translations. -/
def bareTree : FileTree :=
  ⟨.dir [("locales", .dir [("en.json", .file (.text "\x7b\x7d"))])], []⟩

def bareOptions : Options where
  localesDir := ⟨"locales"⟩
  outDir := ⟨"locales/parsed"⟩
  fnNames := ["t"]
  base := "en"
  unknownKeys := []
  silent := true
  dryRun := false

/-- The session of the project once some literal keys were registered. -/
def bareSession (keys : List String) : Session :=
  keys.foldl
    (fun session key => (session.register bareTree ⟨default, .literal key⟩).session)
    (start bareOptions)

theorem reached_bareSession (keys : List String) :
    Reached bareOptions (bareSession keys) := by
  induction keys using List.reverseRecOn with
  | nil => exact Reached.start
  | append_singleton earlier key ih =>
      rw [bareSession, List.foldl_append]
      exact ih.register bareTree _

theorem home_title_is_covered :
    ∃ locale output, (locale, output) ∈ (bareSession ["home.title"]).outputs ∧
      ((∃ value, get? output "home.title" = some value ∧ value.isTruthy = true) ∨
        Blocked output (segments "home.title")) := by
  have loaded : 0 < (bareSession ["home.title"]).outputs.length := by decide +kernel
  refine ⟨_, _, List.getElem_mem loaded, ?_⟩
  exact registered_key_is_covered (reached_bareSession _) (by decide +kernel)
    (by decide +kernel) (List.getElem_mem loaded)

/-- A key without segments, a key of the bucket and a name below an array are among the
keys of a session, and no locale has a value for them. -/
theorem refused_keys_are_not_covered :
    let refused := ["[]", "__UNKNOWN.home", "list.name"]
    let session := bareSession ("list.0" :: refused)
    Reached bareOptions session ∧ (∀ key ∈ refused, key ∈ session.keys) ∧
      session.outputs.map Prod.fst = ["en"] ∧
      ∀ entry ∈ session.outputs, ∀ key ∈ refused, (get? entry.2 key).isNone = true :=
  ⟨reached_bareSession _, by decide +kernel, by decide +kernel, by decide +kernel⟩

end Phrasebook.Session
