import Phrasebook.Proofs.FileTree.LastPlace
import Phrasebook.Proofs.Scan.Found

/-!
# Which files a scan results in

Without patterns among its include entries a scan results in the spellings of the source files at
and below what the entries name, apart from those that something excludes.  Directories of
dependencies and version control are passed by, links are not followed, and an exclusion is a matter
of each file on its own.
-/

namespace Phrasebook.Scan

open Glob

variable {tree : FileTree} {request : Request} {start path : Path}

/-- A walk goes through what is at and below the node that its start leads to. -/
theorem walk_eq (tree : FileTree) (start : Path) :
    walk tree start = (tree.entry start).map (pathsBelow start) := by
  unfold walk
  cases link : tree.isLink start with
  | false =>
      rw [FileTree.entry_eq_entryItself link]
      cases itself : tree.entryItself start with
      | error error => rfl
      | ok entry =>
          cases entry with
          | file content => rfl
          | dir entries => rfl
          | link target =>
              rw [FileTree.isLink_iff.mpr ⟨target, itself⟩] at link
              cases link
  | true =>
      obtain ⟨target, itself⟩ := FileTree.isLink_iff.mp link
      rw [itself]
      cases tree.entry start with
      | error error => rfl
      | ok entry => rfl

theorem foundFrom_iff :
    FoundFrom tree start path ↔ ∃ top names, tree.entry start = .ok top ∧ Comes top names ∧
      path = start.joinAll names := by
  unfold FoundFrom
  rw [walk_eq]
  cases tree.entry start with
  | error error => simp [Except.map]
  | ok top =>
      constructor
      · rintro ⟨paths, walked, member⟩
        cases walked
        obtain ⟨names, comes, equal⟩ := (mem_pathsBelow top start path).mp member
        exact ⟨top, names, rfl, comes, equal⟩
      · rintro ⟨_, names, leads, comes, equal⟩
        cases leads
        exact ⟨_, rfl, (mem_pathsBelow top start path).mpr ⟨names, comes, equal⟩⟩

/-- Whether a scan whose include entries are literal starts at a path: at what one of them names
below the root, or at the root if there are none. -/
def StartsLiterally (request : Request) (start : Path) : Prop :=
  (request.includes = [] ∧ start = request.root) ∨
    ∃ entry ∈ request.includes, start = request.root.join ⟨entry⟩

theorem visits_iff_of_literal (literal : ∀ entry ∈ request.includes, hasWildcard entry = false) :
    Visits tree request path ↔ ∃ start, StartsLiterally request start ∧
      FoundFrom tree start path := by
  have exists_of_found : ∀ start, FoundFrom tree start path → tree.pathExists start = true := by
    intro start found
    obtain ⟨top, _, leads, _⟩ := foundFrom_iff.mp found
    exact FileTree.pathExists_iff.mpr ⟨top, leads⟩
  unfold Visits
  refine exists_congr fun start => and_congr_left fun found => ?_
  unfold starts StartsLiterally
  cases includes : request.includes with
  | nil => simp
  | cons first rest =>
      rw [includes] at literal
      dsimp only
      rw [List.flatMap_map, List.mem_flatMap]
      constructor
      · rintro ⟨entry, listed, member⟩
        refine .inr ⟨entry, listed, ?_⟩
        unfold includeStarts at member
        simp only [literal entry listed, Bool.false_eq_true, if_false] at member
        split at member
        · exact List.mem_singleton.mp member
        · cases member
      · rintro (⟨none, _⟩ | ⟨entry, listed, rfl⟩)
        · cases none
        · refine ⟨entry, listed, ?_⟩
          unfold includeStarts
          simp only [literal entry listed, Bool.false_eq_true, if_false]
          rw [if_pos (exists_of_found _ found)]
          exact List.mem_singleton.mpr rfl

theorem isSourceName_iff :
    isSourceName path = true ↔ ∃ extension ∈ sourceExtensions,
      path.extension? = some extension := by
  unfold isSourceName
  cases path.extension? with
  | none => simp
  | some extension => simp

/-- Nothing excludes a path exactly if no literal entry begins it, part by part, and no pattern of
an entry or of test files matches it. -/
theorem cover_eq_false_iff :
    (exclusions request).1.cover path = false ↔
      (∀ ignore ∈ request.ignores, hasWildcard ignore = false →
        ¬ (request.root.join ⟨ignore⟩).parts <+: path.parts) ∧
      (∀ ignore ∈ request.ignores, hasWildcard ignore = true → ∀ pattern,
        Pattern.parse ignore = .ok pattern → pattern.matchesText path.text = false) ∧
      (request.ignoreTestFiles = true → ∀ test ∈ testFilePatterns, ∀ pattern,
        Pattern.parse test = .ok pattern → pattern.matchesText path.text = false) := by
  rw [← Bool.not_eq_true, cover_exclusions_iff]
  simp only [Path.startsWith, List.isPrefixOf_iff_prefix, not_or, not_exists, not_and,
    Bool.not_eq_true]

/-- A scan with literal include entries results in a path exactly if it is the spelling, from one of
its starts downwards past the directories that are not entered, of a file or of a link to one, if
its extension is that of a source file, and if it is not below a literal ignore entry and no pattern
of an ignore entry or of test files matches it. -/
theorem files_are_source_spellings (tree : FileTree) (request : Request)
    (literal : ∀ entry ∈ request.includes, hasWildcard entry = false) (text : String) :
    text ∈ (run tree request).files ↔
      (∃ start top names, StartsLiterally request start ∧ tree.entry start = .ok top ∧
        Comes top names ∧ text = (start.joinAll names).text) ∧
      tree.SpellsFile ⟨text⟩ ∧
      (∃ extension ∈ sourceExtensions, (Path.mk text).extension? = some extension) ∧
      (∀ ignore ∈ request.ignores, hasWildcard ignore = false →
        ¬ (request.root.join ⟨ignore⟩).parts <+: (Path.mk text).parts) ∧
      (∀ ignore ∈ request.ignores, hasWildcard ignore = true → ∀ pattern,
        Pattern.parse ignore = .ok pattern → pattern.matchesText text = false) ∧
      (request.ignoreTestFiles = true → ∀ test ∈ testFilePatterns, ∀ pattern,
        Pattern.parse test = .ok pattern → pattern.matchesText text = false) := by
  have spelled : Visits tree request ⟨text⟩ ↔ ∃ start top names, StartsLiterally request start ∧
      tree.entry start = .ok top ∧ Comes top names ∧ text = (start.joinAll names).text := by
    rw [visits_iff_of_literal literal]
    refine exists_congr fun start => ?_
    rw [foundFrom_iff]
    constructor
    · rintro ⟨starts, top, names, leads, comes, equal⟩
      exact ⟨top, names, starts, leads, comes, congrArg Path.text equal⟩
    · rintro ⟨top, names, starts, leads, comes, equal⟩
      exact ⟨starts, top, names, leads, comes, congrArg Path.mk equal⟩
  rw [mem_files, spelled, ← cover_eq_false_iff, ← FileTree.isFile_iff_spellsFile,
    ← isSourceName_iff]
  simp only [keeps, Bool.and_eq_true, Bool.not_eq_true']
  tauto

/-- A project in which a link stands beside its file and a directory of dependencies. -/
def linkedProject : FileTree :=
  ⟨.dir [("project", .dir [("src", .dir [("a.ts", .file (.text "")), ("b.ts", .link "a.ts"),
    ("node_modules", .dir [("c.ts", .file (.text ""))])])])], ["project"]⟩

/-- The link is found, and what lies in the directory of dependencies is not. -/
theorem link_beside_dependencies_is_found :
    let request : Request := ⟨⟨"."⟩, ["src"], ["*.js"], true⟩
    (∀ entry ∈ request.includes, hasWildcard entry = false) ∧
      "./src/b.ts" ∈ (run linkedProject request).files ∧
      "./src/node_modules/c.ts" ∉ (run linkedProject request).files := by
  intro request
  have literal : ∀ entry ∈ request.includes, hasWildcard entry = false := by decide +kernel
  refine ⟨literal, ?_, by decide +kernel⟩
  refine (files_are_source_spellings linkedProject request literal "./src/b.ts").mpr
    ⟨⟨⟨"./src"⟩, _, ["b.ts"], ?_, rfl, ?_, by decide +kernel⟩, ?_, ⟨"ts", by decide, ?_⟩,
      cover_eq_false_iff.mp (by decide +kernel)⟩
  · exact .inr ⟨"src", List.mem_singleton.mpr rfl, by decide +kernel⟩
  · exact .into (List.mem_cons_of_mem _ (List.mem_cons_self ..)) (by decide) (.here _)
  · exact FileTree.isFile_iff_spellsFile.mp (by decide +kernel)
  · decide +kernel

end Phrasebook.Scan
