import Phrasebook.Proofs.Locales.LastWritten
import Phrasebook.Proofs.Session.Reload

/-!
# What a run leaves on disk

A run that has written has put its outputs and its report into files.  Nothing is removed, and
links are followed, so a file can still tell of an earlier run or hold what was written to another
path.
-/

namespace Phrasebook
namespace Session

open Json Catalog LocaleFiles FileTree

theorem map_fst_outputs (catalog : Catalog) :
    catalog.outputs.map Prod.fst = catalog.names := by
  simp [Catalog.outputs, Catalog.names]

/-- A run that has written leaves in every file what was written to it last, and every path that
leads to no written file as it was once the output directory was there.  The report is written
after the outputs, so if it has something its file holds it.  If no links stand at the names of
the report and the locales, each locale has its output in its file, unless this is the file of a
report that was written; and without a report and a locale of its name the file of the report is
there if it was there, with the same content. -/
theorem written_files_hold_the_run (options : Options) (tree : FileTree)
    (actions : List Action) :
    let setting := (Setting.mk (start options) tree).run actions
    let left := setting.session.exit setting.tree
    let made := (setting.tree.createDirs options.outDir).1
    ∀ files catalog, left.result = .ok (.written files) →
      setting.session.catalog = some catalog →
      (∀ path, Holds made left.tree path (lastWritten left.tree
          (writtenFiles options.outDir catalog.outputs catalog.untranslated) path)) ∧
        (catalog.untranslated ≠ [] → left.tree.readText (reportFile options.outDir) =
          .ok (fileText (.object catalog.untranslated))) ∧
        ((∀ locale ∈ reportLocale :: catalog.names,
            made.isLink (localeFile options.outDir locale) = false) →
          (∀ output ∈ catalog.outputs, (output.1 = reportLocale → catalog.untranslated = []) →
              left.tree.readText (localeFile options.outDir output.1) =
                .ok (fileText output.2)) ∧
            (catalog.untranslated = [] → reportLocale ∉ catalog.names →
              SameAt made left.tree (reportFile options.outDir))) := by
  intro setting left made files catalog written held
  have account : Account options _ setting.session := account_run options tree actions
  obtain ⟨running, other, same, _, after, wrote⟩ := write_of_written written
  obtain rfl : catalog = other := Option.some.inj (held.symm.trans same)
  rw [account.given] at after wrote
  rw [show left.tree = _ from after]
  have distinct : (catalog.outputs.map Prod.fst).Nodup := by
    obtain ⟨store, merged⟩ := account.merged held running
    rw [map_fst_outputs, merged.names]
    exact store.increasing.nodup
  have named : ∀ output ∈ catalog.outputs, Path.Names output.1 := by
    intro output present
    apply names_of_run held
    rw [← map_fst_outputs]
    exact List.mem_map_of_mem present
  refine ⟨holds_of_write wrote, readText_reportFile wrote, ?_⟩
  intro noLinks
  rw [← map_fst_outputs] at noLinks ⊢
  exact ⟨fun output present => readText_localeFile wrote named noLinks distinct present,
    sameAt_reportFile wrote named noLinks⟩

-- The file of the base locale after a run of one call.
example :
    let setting := (Setting.mk (start bareOptions) bareTree).run [literalCall "home"]
    let left := setting.session.exit setting.tree
    (left.tree.readText (localeFile bareOptions.outDir "en")).toOption =
      some "\x7b\n  \"home\": \"home\"\n\x7d\n" := by
  decide +kernel

/-- A project where an earlier run has left a report. -/
def staleTree : FileTree :=
  ⟨.dir [("locales", .dir [
    ("en.json", .file (.text "\x7b\x7d")),
    ("parsed", .dir [("_untranslated.json", .file (.text "\x7b\x7d"))])])], []⟩

/-- The run of one call in a project with two locales has its report and its outputs on disk.  With
one locale there is no report, and the one of an earlier run is still there. -/
theorem run_of_home_is_on_disk :
    let setting := (Setting.mk (start bareOptions) pairTree).run [literalCall "home"]
    let left := setting.session.exit setting.tree
    let later := (Setting.mk (start bareOptions) staleTree).run [literalCall "home"]
    (∃ catalog, setting.session.catalog = some catalog ∧ catalog.names = ["en", "fr"] ∧
      left.tree.readText (reportFile bareOptions.outDir) =
        .ok (fileText (.object catalog.untranslated)) ∧
      ∀ output ∈ catalog.outputs, left.tree.readText (localeFile bareOptions.outDir output.1) =
        .ok (fileText output.2)) ∧
      SameAt (later.tree.createDirs bareOptions.outDir).1
        (later.session.exit later.tree).tree (reportFile bareOptions.outDir) := by
  intro setting left later
  have written : left.result = .ok (.written ⟨[⟨"locales/parsed/en.json"⟩,
      ⟨"locales/parsed/fr.json"⟩], some ⟨"locales/parsed/_untranslated.json"⟩⟩) := by
    decide +kernel
  have known : setting.session.catalog.map (fun catalog : Catalog =>
      (catalog.names, decide (catalog.untranslated = []))) = some (["en", "fr"], false) := by
    decide +kernel
  have written' : (later.session.exit later.tree).result =
      .ok (.written ⟨[⟨"locales/parsed/en.json"⟩], none⟩) := by
    decide +kernel
  have known' : later.session.catalog.map (fun catalog : Catalog =>
      (catalog.names, decide (catalog.untranslated = []))) = some (["en"], true) := by
    decide +kernel
  obtain ⟨_, catalog, held, _⟩ := write_of_written written
  obtain ⟨_, catalog', held', _⟩ := write_of_written written'
  rw [held, Option.map_some, Option.some_inj, Prod.mk.injEq] at known
  rw [held', Option.map_some, Option.some_inj, Prod.mk.injEq] at known'
  obtain ⟨_, report, files⟩ := written_files_hold_the_run bareOptions pairTree
    [literalCall "home"] _ catalog written held
  obtain ⟨_, _, files'⟩ := written_files_hold_the_run bareOptions staleTree
    [literalCall "home"] _ catalog' written' held'
  rw [known.1] at files
  rw [known'.1] at files'
  refine ⟨⟨catalog, held, known.1, report (of_decide_eq_false known.2), ?_⟩, ?_⟩
  · intro output present
    refine (files (by decide +kernel)).1 output present ?_
    intro equal
    have member : output.1 ∈ catalog.names := by
      rw [← map_fst_outputs]
      exact List.mem_map_of_mem present
    rw [known.1, equal] at member
    exact absurd member (by decide)
  · exact (files' (by decide +kernel)).2 (of_decide_eq_true known'.2) (by decide)

/-- A project with a locale whose name is that of the report. -/
def namesakeTree : FileTree :=
  ⟨.dir [("locales", .dir [
    ("_untranslated.json", .file (.text "\x7b\x7d")),
    ("en.json", .file (.text "\x7b\x7d"))])], []⟩

/-- A project with a link from the output of a locale to that of another one. -/
def aliasTree : FileTree :=
  ⟨.dir [("locales", .dir [
    ("en.json", .file (.text "\x7b\x7d")),
    ("fr.json", .file (.text "\x7b\"home\": \"Accueil\"\x7d")),
    ("parsed", .dir [("en.json", .link "fr.json")])])], []⟩

/-- For a run that has written: whether the file of the report is there just if the report has
something, and the locales whose files do not hold their outputs. -/
def leftOnDisk (options : Options) (tree : FileTree) (actions : List Action) :
    Option (Bool × List String) :=
  let setting := (Setting.mk (start options) tree).run actions
  let left := setting.session.exit setting.tree
  match left.result, setting.session.catalog with
  | .ok (.written _), some catalog =>
      some (left.tree.pathExists (reportFile options.outDir) == (catalog.untranslated ≠ []),
        (catalog.outputs.filter fun output =>
          (left.tree.readText (localeFile options.outDir output.1)).toOption ≠
            some (fileText output.2)).map Prod.fst)
  | _, _ => none

/-- The report of an earlier run stays where there is none to write, the report takes the file of
a locale of its name, and a link gives a locale the output of another one. -/
theorem written_files_hold_something_else :
    leftOnDisk bareOptions staleTree [literalCall "home"] = some (false, []) ∧
      leftOnDisk bareOptions namesakeTree [literalCall "home"] =
        some (true, ["_untranslated"]) ∧
      leftOnDisk bareOptions aliasTree [literalCall "home"] = some (true, ["en"]) := by
  decide +kernel

end Session
end Phrasebook
