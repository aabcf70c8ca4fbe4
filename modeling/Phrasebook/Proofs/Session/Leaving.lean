import Phrasebook.Proofs.Catalog.Dirty
import Phrasebook.Proofs.Session.Log

/-!
# Leaving a session

Leaving writes if and only if something was merged, which shows in the outputs: one of
them has members.  A session that has nothing to write, or must not, leaves every file and
directory as it is.
-/

namespace Phrasebook

open Json

namespace LocaleFiles

/-- The files that a writing without an error lists: one for each output, in the same order,
and the report if there is something to report. -/
theorem files_of_write {tree : FileTree} {dir : Path} {outputs untranslated : List (String × Value)}
    {files : WrittenFiles}
    (written : (write tree dir outputs untranslated).2 = .ok files) :
    files.localeFiles = outputs.map (fun entry => localeFile dir entry.1) ∧
      files.reportFile = if untranslated = [] then none else some (reportFile dir) := by
  unfold write at written
  split at written
  · cases written
  · dsimp only at written
    split at written
    · cases written
    · cases written
      constructor
      · simp
      · by_cases nothing : untranslated = []
        · simp [nothing]
        · simp [nothing]

end LocaleFiles

namespace Session

open Catalog LocaleFiles

variable {options : Options} {session : Session} {catalog : Catalog} {tree : FileTree}
variable {made : List Registration}

/-- An output that something was merged into. -/
def HasMember (output : Value) : Prop :=
  ∃ member members, output = .object (member :: members)

theorem exit_of_unloaded (running : session.phase ≠ .flushed) (unloaded : session.catalog = none)
    (tree : FileTree) :
    session.exit tree = ⟨{ session with phase := .flushed }, tree, .ok .clean, []⟩ := by
  simp only [exit, if_neg running, unloaded]

theorem exit_of_clean (running : session.phase ≠ .flushed)
    (held : session.catalog = some catalog) (clean : catalog.dirty = false) (tree : FileTree) :
    session.exit tree = ⟨{ session with phase := .flushed }, tree, .ok .clean, []⟩ := by
  simp [exit, running, held, clean]

theorem exit_of_dryRun (running : session.phase ≠ .flushed)
    (held : session.catalog = some catalog) (dirty : catalog.dirty = true)
    (dry : session.options.dryRun = true) (tree : FileTree) :
    session.exit tree = ⟨{ session with phase := .flushed }, tree, .ok .skipped, []⟩ := by
  simp [exit, running, held, dirty, dry]

/-- A session with something to write tries to.  If that fails it keeps its catalog. -/
theorem exit_of_dirty (running : session.phase ≠ .flushed)
    (held : session.catalog = some catalog) (dirty : catalog.dirty = true)
    (wet : session.options.dryRun = false) (tree : FileTree) :
    let writing := write tree session.options.outDir catalog.outputs catalog.untranslated
    (session.exit tree).tree = writing.1 ∧
      ((∃ error, writing.2 = .error error ∧ (session.exit tree).result = .error (.write error) ∧
          (session.exit tree).session.catalog = some catalog) ∨
        ∃ files, writing.2 = .ok files ∧ (session.exit tree).result = .ok (.written files) ∧
          (session.exit tree).session.catalog = some catalog.markClean) := by
  intro writing
  simp only [exit, if_neg running, held, dirty, wet, Bool.not_true, Bool.false_eq_true,
    if_false]
  split
  · rename_i later error equal
    exact ⟨(congrArg Prod.fst equal).symm, .inl ⟨error, congrArg Prod.snd equal, rfl, rfl⟩⟩
  · rename_i later files equal
    exact ⟨(congrArg Prod.fst equal).symm, .inr ⟨files, congrArg Prod.snd equal, rfl, rfl⟩⟩

theorem Merged.flagged {store : LocaleStore} (merged : Merged options made store catalog) :
    Flagged catalog := by
  rw [merged.catalog]
  exact (flagged_ofStore store options.base _).run _

theorem Merged.sorted {store : LocaleStore} (merged : Merged options made store catalog) :
    catalog.names.Pairwise (· < ·) := by
  rw [merged.names, LocaleStore.names, Table.names, List.pairwise_map]
  exact store.increasing

theorem hasMember_iff (flagged : Flagged catalog) :
    (∃ entry ∈ catalog.outputs, HasMember entry.2) ↔ catalog.dirty = true := by
  rw [flagged.dirty]
  constructor
  · rintro ⟨entry, present, member, members, equal⟩
    obtain ⟨locale, held, rfl⟩ := List.mem_map.mp present
    refine ⟨locale, held, ?_⟩
    rw [show locale.output = .object (member :: members) from equal]
    simp
  · rintro ⟨locale, held, touched⟩
    obtain ⟨members, equal⟩ := flagged.objects locale held
    refine ⟨(locale.name, locale.output), List.mem_map_of_mem held, ?_⟩
    cases members with
    | nil => exact absurd equal touched
    | cons member members => exact ⟨member, members, equal⟩

/-- For a session that was not left, at any moment of any run: its catalog is dirty if and
only if some output has a member, and whenever the report has something.  Leaving it is clean
if and only if there is no catalog or all outputs are empty, and otherwise skips the writing
if and only if the run is dry; then no file or directory changes.  A writing lists the file
of every locale, in increasing order of their names, and the report if it has something, and
leaves the catalog clean.  One that fails leaves it dirty. -/
theorem leaving_writes_what_was_merged (options : Options) (tree : FileTree)
    (actions : List Action) :
    let setting := (Setting.mk (start options) tree).run actions
    let session := setting.session
    let left := session.exit setting.tree
    session.phase ≠ .flushed →
      (∀ catalog, session.catalog = some catalog →
        (catalog.dirty = true ↔ ∃ entry ∈ catalog.outputs, HasMember entry.2) ∧
          (catalog.untranslated ≠ [] → catalog.dirty = true)) ∧
      (left.result = .ok .clean ↔
        session.catalog = none ∨ ∀ entry ∈ session.outputs, entry.2 = .object []) ∧
      (left.result ≠ .ok .clean → (left.result = .ok .skipped ↔ options.dryRun = true)) ∧
      (left.result = .ok .clean ∨ left.result = .ok .skipped → left.tree = setting.tree) ∧
      (∀ files, left.result = .ok (.written files) →
        ∃ catalog, session.catalog = some catalog ∧
          catalog.names.Pairwise (· < ·) ∧
          files.localeFiles = catalog.names.map (localeFile options.outDir) ∧
          files.reportFile =
            (if catalog.untranslated = [] then none else some (reportFile options.outDir)) ∧
          ∃ final, left.session.catalog = some final ∧ final.dirty = false) ∧
      ∀ error, left.result = .error error →
        ∃ catalog, left.session.catalog = some catalog ∧ catalog.dirty = true := by
  intro setting session left running
  have account : Account options _ session := account_run options tree actions
  cases held : session.catalog with
  | none =>
      have ended : left = ⟨{ session with phase := .flushed }, setting.tree, .ok .clean, []⟩ :=
        exit_of_unloaded running held setting.tree
      rw [ended]
      simp
  | some catalog =>
      obtain ⟨store, merged⟩ := account.merged held running
      have flagged := merged.flagged
      have known : session.outputs = catalog.outputs := by simp [outputs, held]
      have empty : (∀ entry ∈ session.outputs, entry.2 = .object []) ↔ catalog.dirty = false := by
        rw [known, flagged.clean_iff]
      refine ⟨?_, ?_⟩
      · intro other same
        obtain rfl : catalog = other := Option.some.inj same
        exact ⟨(hasMember_iff flagged).symm, flagged.dirty_of_untranslated⟩
      · rw [empty]
        cases dirty : catalog.dirty with
        | false =>
            have ended : left =
                ⟨{ session with phase := .flushed }, setting.tree, .ok .clean, []⟩ :=
              exit_of_clean running held dirty setting.tree
            rw [ended]
            simp
        | true =>
            cases dry : options.dryRun with
            | true =>
                have ended : left =
                    ⟨{ session with phase := .flushed }, setting.tree, .ok .skipped, []⟩ :=
                  exit_of_dryRun running held dirty (by rw [account.given, dry]) setting.tree
                rw [ended]
                simp
            | false =>
                obtain ⟨_, tried⟩ := exit_of_dirty running held dirty
                  (by rw [account.given, dry]) setting.tree
                rcases tried with ⟨error, _, failed, kept⟩ | ⟨files, wrote, done, kept⟩
                · rw [show left.result = _ from failed, show left.session.catalog = _ from kept]
                  simp [dirty]
                · obtain ⟨listed, report⟩ := files_of_write wrote
                  rw [show left.result = _ from done, show left.session.catalog = _ from kept]
                  refine ⟨by simp, by simp, by simp, ?_, by simp⟩
                  intro others same
                  obtain rfl : files = others := by simpa using same
                  refine ⟨catalog, rfl, merged.sorted, ?_, ?_, catalog.markClean, rfl, rfl⟩
                  · rw [listed, account.given, Catalog.outputs, Catalog.names]
                    simp
                  · rw [report, account.given]

/-- Leaving a session with one key, in a project with two empty locales, writes both of them
and a report for the one that is not the base. -/
theorem leaving_writes_two_locales :
    let setting := (Setting.mk (start bareOptions) pairTree).run [literalCall "home"]
    let left := setting.session.exit setting.tree
    let files := WrittenFiles.mk
      [⟨"locales/parsed/en.json"⟩, ⟨"locales/parsed/fr.json"⟩]
      (some ⟨"locales/parsed/_untranslated.json"⟩)
    setting.session.phase ≠ .flushed ∧ left.result = .ok (.written files) ∧
      ∃ catalog, setting.session.catalog = some catalog ∧
        (catalog.dirty = true ↔ ∃ entry ∈ catalog.outputs, HasMember entry.2) ∧
        files.localeFiles = catalog.names.map (localeFile bareOptions.outDir) ∧
        ∃ final, left.session.catalog = some final ∧ final.dirty = false := by
  intro setting left files
  have running : setting.session.phase ≠ .flushed := by decide +kernel
  have wrote : left.result = .ok (.written files) := by decide +kernel
  obtain ⟨flag, _, _, _, written, _⟩ :=
    leaving_writes_what_was_merged bareOptions pairTree [literalCall "home"] running
  obtain ⟨catalog, held, _, listed, _, clean⟩ := written files wrote
  refine ⟨running, wrote, catalog, held, (flag catalog held).1, listed, ?_⟩
  simpa only [left, setting] using clean

end Session
end Phrasebook
