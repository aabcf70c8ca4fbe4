import Phrasebook.Proofs.Json.Reading
import Phrasebook.Proofs.Locales.Writing
import Phrasebook.Proofs.Session.Leaving

/-!
# The written directory as a locale directory

A session takes its locales from files and writes them to files again.  What it has written is
a directory of the same locales, but for the report, which looks like one more.
-/

namespace Phrasebook
namespace Session

open Json Catalog LocaleFiles

variable {session : Session} {catalog : Catalog} {tree : FileTree} {files : WrittenFiles}

/-- A session that has written held a catalog with something to write. -/
theorem write_of_written (written : (session.exit tree).result = .ok (.written files)) :
    session.phase ≠ .flushed ∧ ∃ catalog, session.catalog = some catalog ∧
      catalog.dirty = true ∧
      (session.exit tree).tree =
        (write tree session.options.outDir catalog.outputs catalog.untranslated).1 ∧
      (write tree session.options.outDir catalog.outputs catalog.untranslated).2 = .ok files := by
  by_cases running : session.phase = .flushed
  · simp [exit, running] at written
  · cases held : session.catalog with
    | none =>
        rw [exit_of_unloaded running held] at written
        cases written
    | some catalog =>
        cases dirty : catalog.dirty with
        | false =>
            rw [exit_of_clean running held dirty] at written
            cases written
        | true =>
            cases dry : session.options.dryRun with
            | true =>
                rw [exit_of_dryRun running held dirty dry] at written
                cases written
            | false =>
                obtain ⟨after, tried⟩ := exit_of_dirty running held dirty dry tree
                rcases tried with ⟨error, _, failed, _⟩ | ⟨others, wrote, done, _⟩
                · rw [failed] at written
                  cases written
                · rw [done] at written
                  cases written
                  exact ⟨running, catalog, rfl, dirty, after, wrote⟩

/-- The locales of a run have names that can stand in the names of files. -/
theorem names_of_run {options : Options} {actions : List Action}
    (held : ((Setting.mk (start options) tree).run actions).session.catalog = some catalog) :
    ∀ locale ∈ catalog.names, Path.Names locale := by
  intro locale member
  have some : ((Setting.mk (start options) tree).run actions).session.catalog ≠ none := by
    simp [held]
  obtain ⟨front, action, back, store, rfl, _, loaded, keeps⟩ := exists_loading tree actions some
  obtain ⟨other, same, inputs, _⟩ := keeps back
  obtain rfl : catalog = other := Option.some.inj (held.symm.trans same)
  apply LocaleStore.names_of_load loaded
  have names : catalog.names = Table.names catalog.inputs := by
    simp [Catalog.names, Table.names, Catalog.inputs]
  rwa [names, inputs] at member

/-- A run that has written has written a directory of its locales, whatever was registered: it
can be loaded, and besides the locales of the catalog it has just the report, if there is one,
as a locale.  For that the directory must have a path, must have held no locale files but plain
ones of these locales when it was there, and no written value may nest deeper than is read. -/
theorem written_directory_has_the_locales (options : Options) (tree : FileTree)
    (actions : List Action) :
    let setting := (Setting.mk (start options) tree).run actions
    let left := setting.session.exit setting.tree
    ∀ files catalog, left.result = .ok (.written files) →
      setting.session.catalog = some catalog →
      options.outDir.text ≠ "" →
      HoldsOnly (setting.tree.createDirs options.outDir).1 options.outDir catalog.names →
      (∀ file ∈ fileValues catalog.outputs catalog.untranslated,
        file.2.nesting < depthLimit) →
      ∃ store, LocaleStore.load left.tree options.outDir = .ok store ∧
        ∀ locale, locale ∈ store.names ↔
          locale ∈ catalog.names ∨ catalog.untranslated ≠ [] ∧ locale = reportLocale := by
  intro setting left files catalog written held somewhere only shallow
  have account : Account options _ setting.session := account_run options tree actions
  obtain ⟨running, other, same, dirty, after, wrote⟩ := write_of_written written
  obtain rfl : catalog = other := Option.some.inj (held.symm.trans same)
  rw [account.given] at after wrote
  have names : catalog.outputs.map Prod.fst = catalog.names := by
    simp [Catalog.outputs, Catalog.names]
  have nonempty : catalog.outputs ≠ [] := by
    obtain ⟨store, merged⟩ := account.merged held running
    obtain ⟨entry, present, _⟩ := (hasMember_iff merged.flagged).mpr dirty
    exact List.ne_nil_of_mem present
  have named : ∀ entry ∈ catalog.outputs, Path.Names entry.1 := by
    intro entry present
    apply names_of_run held
    rw [← names]
    exact List.mem_map_of_mem present
  obtain ⟨store, loaded, found⟩ := exists_load_of_write somewhere (by rwa [names]) named
    nonempty wrote fun file member => ⟨_, parse_pretty file.2 (shallow file member)⟩
  refine ⟨store, ?_, ?_⟩
  · rw [show left.tree = _ from after, loaded]
  · rwa [names] at found

/-- A run that writes into its own locales directory: the files that are there are those of its
locales, and afterwards the report stands beside them. -/
theorem locales_directory_gains_the_report :
    let options := { bareOptions with outDir := bareOptions.localesDir }
    let setting := (Setting.mk (start options) pairTree).run [literalCall "home"]
    let left := setting.session.exit setting.tree
    let files := WrittenFiles.mk [⟨"locales/en.json"⟩, ⟨"locales/fr.json"⟩]
      (some ⟨"locales/_untranslated.json"⟩)
    left.result = .ok (.written files) ∧
      HoldsOnly (setting.tree.createDirs options.outDir).1 options.outDir ["en", "fr"] ∧
      ∃ store, LocaleStore.load left.tree options.outDir = .ok store ∧
        ∀ locale, locale ∈ store.names ↔ locale ∈ ["en", "fr"] ∨ locale = reportLocale := by
  intro options setting left files
  have written : left.result = .ok (.written files) := by decide +kernel
  have somewhere : options.outDir.text ≠ "" := by decide
  have only : HoldsOnly (setting.tree.createDirs options.outDir).1 options.outDir ["en", "fr"] := by
    decide +kernel
  have known : setting.session.catalog.map Catalog.names = some ["en", "fr"] := by decide +kernel
  have reported : setting.session.catalog.map
      (fun catalog : Catalog => decide (catalog.untranslated = [])) = some false := by decide +kernel
  have shallow : setting.session.catalog.map (fun catalog : Catalog =>
      decide (∀ file ∈ fileValues catalog.outputs catalog.untranslated,
        file.2.nesting < depthLimit)) = some true := by decide +kernel
  obtain ⟨_, catalog, held, _⟩ := write_of_written written
  rw [held, Option.map_some, Option.some_inj] at known reported shallow
  obtain ⟨store, loaded, names⟩ := written_directory_has_the_locales options pairTree
    [literalCall "home"] files catalog written held somewhere (by rwa [known])
    (of_decide_eq_true shallow)
  refine ⟨written, only, store, loaded, ?_⟩
  intro locale
  rw [names, known]
  simp [of_decide_eq_false reported]

/-- A project with one locale, and a link to nothing where its output goes. -/
def linkTree : FileTree :=
  ⟨.dir [("locales", .dir [
    ("en.json", .file (.text "\x7b\x7d")),
    ("parsed", .dir [("zz.json", .link "en.json")])])], []⟩

/-- For a run that has written: its locales, and those found when what it has written is loaded,
if that can be loaded. -/
def reloaded (options : Options) (tree : FileTree) (actions : List Action) :
    Option (List String × Option (List String)) :=
  let setting := (Setting.mk (start options) tree).run actions
  let left := setting.session.exit setting.tree
  match left.result, setting.session.catalog with
  | .ok (.written _), some catalog =>
      some (catalog.names,
        (LocaleStore.load left.tree options.outDir).toOption.map LocaleStore.names)
  | _, _ => none

/-- What was written is not always a directory of the same locales: the report in an empty
directory looks like a locale, and so does a link to a written file.  A directory without a path
cannot be loaded at all. -/
theorem written_directory_gains_locales :
    reloaded bareOptions pairTree [literalCall "home"] =
        some (["en", "fr"], some ["_untranslated", "en", "fr"]) ∧
      HoldsOnly (pairTree.createDirs bareOptions.outDir).1 bareOptions.outDir [] ∧
      reloaded bareOptions linkTree [literalCall "home"] =
        some (["en"], some ["en", "zz"]) ∧
      reloaded { bareOptions with outDir := ⟨""⟩ } bareTree [literalCall "home"] =
        some (["en"], none) := by
  decide +kernel

end Session
end Phrasebook
