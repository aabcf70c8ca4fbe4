import Phrasebook.Proofs.Catalog.Repetition
import Phrasebook.Proofs.Session.Coverage
import Phrasebook.Proofs.Session.Log

/-!
# Repeated calls

A call that a session has registered before finds its keys among those of the session, and
its operation made.  So registering it again leaves the outputs, the flag and the keys as they
are, and adds to the list of calls without a literal key if it is one.  It leaves the reports
and the counts as well unless a locale lacks one of its keys and has no place for it: that
locale is told of the key each time.
-/

namespace Phrasebook.Session

open Catalog KeyPath

variable {options : Options} {session : Session} {catalog : Catalog} {store : LocaleStore}
variable {made : List Registration} {registration : Registration}

theorem insertKey_of_mem {keys : List String} {key : String} (sorted : keys.Pairwise (· < ·))
    (member : key ∈ keys) : insertKey keys key = keys := by
  induction keys with
  | nil => cases member
  | cons first rest ih =>
      obtain ⟨least, sortedRest⟩ := List.pairwise_cons.mp sorted
      unfold insertKey
      by_cases same : first = key
      · rw [if_pos same]
      · have later : key ∈ rest := (List.mem_cons.mp member).resolve_left (Ne.symm same)
        rw [if_neg same, if_neg (String.lt_asymm (least key later)), ih sortedRest later]

theorem foldl_insertKey_of_mem {keys added : List String} (sorted : keys.Pairwise (· < ·))
    (known : ∀ key ∈ added, key ∈ keys) : added.foldl insertKey keys = keys := by
  induction added with
  | nil => rfl
  | cons key rest ih =>
      rw [List.foldl_cons, insertKey_of_mem sorted (known key List.mem_cons_self)]
      exact ih fun other member => known other (List.mem_cons_of_mem _ member)

/-- A session with a call in its log is merging, or it was left. -/
theorem Logged.phase (logged : Logged options made session) (present : made ≠ []) :
    session.phase = .accumulating ∨ session.phase = .flushed := by
  induction logged with
  | start => exact absurd rfl present
  | @enter made session logged tree ih =>
      rcases enter_session session tree with same | ⟨_, _, unloaded, _⟩
      · rw [same]
        exact ih present
      · exact absurd (logged.account.unloaded unloaded) present
  | register _ tree call done _ _ =>
      obtain ⟨catalog, _, _, merged⟩ := register_of_ok done
      obtain ⟨counts, calls, equal⟩ := merge_eq _ catalog call
      rw [merged, equal]
      exact .inl rfl
  | @exit made session _ tree _ =>
      obtain ⟨catalog, left, _⟩ := session.exit_session tree
      rw [left]
      exact .inr rfl

theorem Merged.registered_of_made (merged : Merged options made store catalog)
    (member : registration ∈ made) {key : String}
    (named : key ∈ registration.call.key.operation.keys catalog.expansions) :
    key ∈ registeredKeys (expansionsOf store options.unknownKeys) (operationsOf made) := by
  rw [merged.expansions] at named
  exact List.mem_flatMap.mpr ⟨_, List.mem_map_of_mem member, named⟩

/-- The keys of a call in the log are keys of the session. -/
theorem Account.keys_of_made (account : Account options made session)
    (merged : Merged options made store catalog) (member : registration ∈ made) {key : String}
    (named : key ∈ registration.call.key.operation.keys catalog.expansions) :
    key ∈ session.keys := by
  rw [account.keys, merged.answers, firstCatalog, outcomes_ofStore, map_fst_outcomesAfter]
  exact merged.registered_of_made member named

/-- Every key of a call in the log is answered with the locales that have no place for it. -/
theorem Merged.addKey_of_made (merged : Merged options made store catalog)
    (member : registration ∈ made) {key : String}
    (named : key ∈ registration.call.key.operation.keys catalog.expansions) :
    catalog.addKey key =
      (catalog.relist [key], ⟨catalog.blockedIn key, catalog.relistedIn key⟩) := by
  have registered := merged.registered_of_made member named
  rw [merged.catalog]
  exact addKey_of_registered registered

theorem Merged.apply_of_made (merged : Merged options made store catalog)
    (member : registration ∈ made) :
    catalog.apply registration.call.key.operation =
      catalog.relist (registration.call.key.operation.keys catalog.expansions) := by
  rw [merged.expansions, merged.catalog]
  exact Catalog.apply_of_made (List.mem_map_of_mem member)

/-- The session with a call registered that was registered before: the values of its keys are
written once more into the reports of the locales that lack them and have no place for them,
and if the call names its key they are counted once more. -/
def relist (session : Session) (catalog : Catalog) (registration : Registration) : Session :=
  let keys := registration.call.key.operation.keys catalog.expansions
  { session with
    catalog := some (catalog.relist keys)
    untranslatedCounts :=
      countUp session.untranslatedCounts
        (if registration.isDirect then keys.flatMap catalog.relistedIn else [])
    unknownCalls :=
      session.unknownCalls ++ (registration.unknownCall? catalog.expansions).toList }

theorem Account.merge_of_made (account : Account options made session)
    (merged : Merged options made store catalog) (merging : session.phase = .accumulating)
    (member : registration ∈ made) :
    session.merge catalog registration.call = session.relist catalog registration := by
  have applied := merged.apply_of_made member
  have known := foldl_insertKey_of_mem account.sorted
    fun _ named => account.keys_of_made merged member named
  cases shape : registration.call.key with
  | literal key =>
      have named : key ∈ registration.call.key.operation.keys catalog.expansions := by
        rw [shape]
        exact List.mem_cons_self
      have answered := merged.addKey_of_made member named
      rw [shape] at known
      have kept : insertKey session.keys key = session.keys := known
      simp [merge_literal shape, relist, Registration.isDirect, Registration.unknownCall?, shape,
        CallKey.operation, Operation.keys, answered, kept, ← merging]
  | unknown signature =>
      rw [shape] at known applied
      have kept : ((Table.get? catalog.expansions signature).getD []).foldl insertKey
          session.keys = session.keys := known
      have merges : (catalog.addUnknown signature).1 =
          catalog.relist ((Table.get? catalog.expansions signature).getD []) := applied
      simp [merge_unknown shape, relist, Registration.isDirect, Registration.unknownCall?, shape,
        CallKey.operation, Operation.keys, merges, kept, ← merging, countUp]

/-- Where no locale lacks a key without a place, at most a call without a literal key is
listed once more. -/
theorem relist_of_none (held : session.catalog = some catalog)
    (unlisted : ∀ key ∈ registration.call.key.operation.keys catalog.expansions,
      catalog.relistedIn key = []) :
    session.relist catalog registration =
      { session with
        unknownCalls :=
          session.unknownCalls ++ (registration.unknownCall? catalog.expansions).toList } := by
  have uncounted : (if registration.isDirect then
      (registration.call.key.operation.keys catalog.expansions).flatMap catalog.relistedIn
      else []) = [] := by
    split
    · exact List.flatMap_eq_nil_iff.mpr unlisted
    · rfl
  rw [relist, catalog.relist_of_none unlisted, uncounted, ← held]
  rfl

/-- A locale that a literal key is listed for once more has it counted once more. -/
theorem relistedIn_of_unchanged (direct : registration.isDirect = true)
    (unchanged : session.relist catalog registration = session) :
    ∀ key ∈ registration.call.key.operation.keys catalog.expansions,
      catalog.relistedIn key = [] := by
  have counts := congrArg Session.untranslatedCounts unchanged
  simp only [relist, direct, if_true] at counts
  apply List.flatMap_eq_nil_iff.mp
  apply List.eq_nil_iff_forall_not_mem.mpr
  intro locale listed
  have counted := get?_countUp session.untranslatedCounts
    ((registration.call.key.operation.keys catalog.expansions).flatMap catalog.relistedIn) locale
  rw [counts] at counted
  have positive := List.count_pos_iff.mpr listed
  omega

/-- Registering a call again, after whatever was registered since and with any files at hand,
leaves the outputs, the flag and the keys of the session as they are.  Each key of the call is
answered with the locales that have no place for it.  Those of them that lack it have its value
written into their reports once more, and are counted once more if the call names its key.
Only where there are none is the repetition without effect, but for the list of calls without
a literal key. -/
theorem repeated_call_relists_keys_without_a_place (options : Options) (tree later : FileTree)
    (actions : List Action) (registration : Registration) :
    let first : Setting := ⟨start options, tree⟩
    let session := (first.run actions).session
    registration ∈ first.log actions → session.phase ≠ .flushed →
      ∃ catalog, session.catalog = some catalog ∧
        let keys := registration.call.key.operation.keys catalog.expansions
        let again := session.relist catalog registration
        session.register later registration.call = again.done ∧
          (catalog.relist keys).outputs = catalog.outputs ∧
          (catalog.relist keys).dirty = catalog.dirty ∧
          (∀ key ∈ keys,
            (catalog.addKey key).2 = ⟨catalog.blockedIn key, catalog.relistedIn key⟩) ∧
          ((∀ key ∈ keys, catalog.relistedIn key = []) →
            again = { session with
              unknownCalls := session.unknownCalls ++
                (registration.unknownCall? catalog.expansions).toList }) ∧
          (registration.isDirect = true →
            (again = session ↔ ∀ key ∈ keys, catalog.relistedIn key = [])) := by
  intro first session made running
  have logged : Logged options (first.log actions) session := logged_run options tree actions
  have present : first.log actions ≠ [] := List.ne_nil_of_mem made
  have merging := (logged.phase present).resolve_right running
  obtain ⟨catalog, held⟩ : ∃ catalog, session.catalog = some catalog :=
    Option.ne_none_iff_exists'.mp fun unloaded => present (logged.account.unloaded unloaded)
  obtain ⟨store, merged⟩ := logged.account.merged held running
  refine ⟨catalog, held, ?_, outputs_relist .., rfl, ?_, relist_of_none held, ?_⟩
  · rw [← logged.account.merge_of_made merged merging made, register,
      enter_of_running ⟨running, catalog, held⟩]
    simp [Step.andThen, done, held]
  · intro key named
    rw [merged.addKey_of_made made named]
  · intro direct
    refine ⟨relistedIn_of_unchanged direct, fun unlisted => ?_⟩
    have named : registration.unknownCall? catalog.expansions = none := by
      unfold Registration.isDirect at direct
      unfold Registration.unknownCall?
      split at direct
      · rfl
      · cases direct
    rw [relist_of_none held unlisted, named, Option.toList_none, List.append_nil]

/-- The files of a project with a list in one of its two locales. -/
def listTree : FileTree :=
  ⟨.dir [("locales",
    .dir [("en.json", .file (.text "\x7b\x7d")),
      ("fr.json", .file (.text "\x7b\"list\":[\"Zero\"]\x7d"))])], []⟩

theorem list_name_is_relisted :
    let actions := [literalCall "list.0", literalCall "list.name"]
    let setting := (Setting.mk (start bareOptions) listTree).run actions
    let log := (Setting.mk (start bareOptions) listTree).log actions
    setting.session.phase ≠ .flushed ∧
      ∃ registration ∈ log, registration.call.key = .literal "list.name" ∧
        ∃ catalog, setting.session.catalog = some catalog ∧
          setting.session.register listTree registration.call =
            (setting.session.relist catalog registration).done ∧
          (catalog.addKey "list.name").2 = ⟨["en", "fr"], ["fr"]⟩ := by
  intro actions setting log
  have running : setting.session.phase ≠ .flushed := by decide +kernel
  have logged : ∃ registration ∈ log, registration.call.key = .literal "list.name" := by
    decide +kernel
  have listed : setting.session.catalog.map (fun catalog =>
      (catalog.blockedIn "list.name", catalog.relistedIn "list.name")) =
        some (["en", "fr"], ["fr"]) := by
    decide +kernel
  obtain ⟨registration, made, key⟩ := logged
  obtain ⟨catalog, held, again, _, _, answered, _⟩ := repeated_call_relists_keys_without_a_place
    bareOptions listTree listTree actions registration made running
  refine ⟨running, registration, made, key, catalog, held, again, ?_⟩
  rw [held, Option.map_some, Option.some.injEq, Prod.mk.injEq] at listed
  have last := answered "list.name" (by rw [key]; exact List.mem_cons_self)
  rwa [listed.1, listed.2] at last

/-- The repeated call of a name below a list is answered as if the key were new.  It is counted
once more, and takes the place of a key below it in the report. -/
theorem repeated_list_name_changes_the_report :
    let first : Setting := ⟨start bareOptions, listTree⟩
    let calls := ["list.0", "list.name", "list.name.sub"].map literalCall
    let reported (actions : List Action) (key : String) :=
      (first.run actions).session.catalog.bind fun catalog =>
        (Table.get? catalog.untranslated "fr").bind fun report => truthy? report key
    let counted (actions : List Action) :=
      Table.get? (first.run actions).session.untranslatedCounts "fr"
    let again := calls ++ [literalCall "list.name"]
    ((first.run calls).session.catalog.map fun catalog =>
        (catalog.addKey "list.name").2.isNoop) = some false ∧
      counted calls = some 2 ∧ counted again = some 3 ∧
      (reported calls "list.name.sub").isSome ∧
      (reported again "list.name.sub").isNone := by
  decide +kernel

end Phrasebook.Session
