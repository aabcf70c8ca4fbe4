import Phrasebook.Proofs.FileTree.LastPlace
import Phrasebook.Proofs.Glob.Matching
import Phrasebook.Proofs.Scan.Found

/-!
# Test files

The patterns of test files say which names and directories are those of tests.  They name four of
the eight extensions of source files, and a test file with another one is scanned as any file.
-/

namespace Phrasebook

namespace Path

variable {path : Path} {above : List (List Char)} {name directory ending text : List Char}

/-- The texts between slashes, without the last one, are those that stand between two slashes, if
one is added in front. -/
theorem mem_dropLast_split_iff (noSlash : '/' ∉ directory) :
    directory ∈ (split text).dropLast ↔
      ∃ before behind, '/' :: text = before ++ '/' :: (directory ++ '/' :: behind) := by
  constructor
  · intro member
    generalize divided : split text = pieces at member
    induction pieces generalizing text with
    | nil => cases member
    | cons piece others ih =>
        by_cases slash : '/' ∈ text
        · obtain ⟨front, back, rfl, noSlashFront⟩ := List.eq_append_cons_of_mem slash
          rw [split_append_slash, split_of_not_mem noSlashFront, List.singleton_append] at divided
          obtain ⟨rfl, rest⟩ := List.cons.inj divided
          rw [List.dropLast_cons_of_ne_nil (rest ▸ split_ne_nil back)] at member
          rcases List.mem_cons.mp member with rfl | member
          · exact ⟨[], back, rfl⟩
          · obtain ⟨before, behind, equal⟩ := ih rest member
            exact ⟨'/' :: front ++ before, behind, by rw [equal]; simp⟩
        · rw [split_of_not_mem slash] at divided
          cases divided
          cases member
  · rintro ⟨before, behind, equal⟩
    have divided := congrArg split equal
    rw [split_append_slash, split_append_slash, split_of_not_mem noSlash,
      List.singleton_append, ← List.nil_append ('/' :: text), split_append_slash] at divided
    obtain ⟨first, others, parts⟩ := List.exists_cons_of_ne_nil (split_ne_nil before)
    rw [parts] at divided
    have rest : split text = others ++ directory :: split behind := (List.cons.inj divided).2
    rw [rest, List.dropLast_append_of_ne_nil (by simp), List.dropLast_cons_of_ne_nil
      (split_ne_nil behind)]
    simp

section
variable (plain : Plain name) (divided : split path.text.toList = above ++ [name])
include plain divided

theorem parts_of_split :
    path.parts = path.opening.toList ++
      (((above.filter (· ≠ [])).map String.ofList).filter (· ≠ ".")).map partOf ++
        [.name (String.ofList name)] := by
  have notHere : String.ofList name ≠ "." := by
    intro here
    exact plain.notHere (by rw [← String.toList_ofList (l := name), here]; rfl)
  have last : partOf (String.ofList name) = .name (String.ofList name) := by
    rw [partOf, String.toList_ofList, plain.ofText]
  rw [parts_eq_opening, names, FileTree.pieces, divided, List.append_assoc, ← last]
  simp [plain.nonempty, notHere]

theorem fileName?_of_split : path.fileName? = some (String.ofList name) := by
  rw [fileName?, parts_of_split plain divided, List.getLast?_concat]

/-- A plain name is that of a directory in a path if it stands between slashes before the last
name. -/
theorem mem_dropLast_parts_iff (plainDirectory : Plain directory) :
    .name (String.ofList directory) ∈ path.parts.dropLast ↔ directory ∈ above := by
  have own : partOf (String.ofList directory) = .name (String.ofList directory) := by
    rw [partOf, String.toList_ofList, plainDirectory.ofText]
  have notOpening : .name (String.ofList directory) ∉ path.opening.toList := by
    rw [opening, Option.mem_toList, Option.filter_eq_some_iff]
    simp
  have notHere : String.ofList directory ≠ "." := by
    intro here
    exact plainDirectory.notHere (by rw [← String.toList_ofList (l := directory), here]; rfl)
  rw [parts_of_split plain divided, List.dropLast_concat, List.mem_append, ← own,
    List.mem_map_of_injective partOf_injective, own, or_iff_right notOpening, List.mem_filter,
    List.mem_map]
  constructor
  · rintro ⟨⟨piece, member, equal⟩, _⟩
    rw [String.ofList_injective equal] at member
    exact List.mem_of_mem_filter member
  · intro member
    exact ⟨⟨directory, List.mem_filter.mpr ⟨member, by simp [plainDirectory.nonempty]⟩, rfl⟩,
      by simp [notHere]⟩

end

/-- An ending without a slash is one of the last name. -/
theorem suffix_iff_of_ending (whole : text = name ∨ ∃ front, text = front ++ '/' :: name)
    (noSlash : '/' ∉ ending) : ending <:+ text ↔ ending <:+ name := by
  rcases whole with rfl | ⟨front, rfl⟩
  · exact Iff.rfl
  · refine ⟨fun ends => ?_, fun ends => ?_⟩
    · rcases List.suffix_or_suffix_of_suffix ends (List.suffix_append front ('/' :: name)) with
        inside | longer
      · rcases List.suffix_cons_iff.mp inside with rfl | inside
        · simp at noSlash
        · exact inside
      · exact absurd (longer.subset (List.mem_cons_self ..)) noSlash
    · exact (ends.trans (List.suffix_cons ..)).trans (List.suffix_append ..)

end Path

namespace Scan

open Glob

variable {tree : FileTree} {request : Request} {path : Path}

/-- What marks the name of a test file. -/
def testMarks : List String :=
  [".test.", ".spec."]

/-- The extensions of the test files that the patterns know. -/
def testExtensions : List String :=
  ["tsx", "ts", "jsx", "js"]

/-- Whether a path is that of a test file: by its name, or by a directory that it leads through. -/
def IsTestFile (path : Path) : Prop :=
  (∃ stem, ∃ mark ∈ testMarks, ∃ extension ∈ testExtensions,
      path.fileName? = some (stem ++ mark ++ extension)) ∨
    .name "__tests__" ∈ path.parts.dropLast

theorem testFilePatterns_eq :
    testFilePatterns = (testMarks.flatMap fun mark =>
      testExtensions.map fun extension => "**/*" ++ mark ++ extension) ++ ["**/__tests__/**"] := by
  decide +kernel

theorem parse_ending : ∀ mark ∈ testMarks, ∀ extension ∈ testExtensions,
    Pattern.parse ("**/*" ++ mark ++ extension) =
      .ok ⟨.anyComponents :: .anySequence :: (mark ++ extension).toList.map .char⟩ := by
  decide +kernel

theorem parse_tests :
    Pattern.parse "**/__tests__/**" =
      .ok ⟨.anyComponents ::
        (("__tests__".toList ++ ['/']).map .char ++ [.anyComponents])⟩ := by
  decide +kernel

/-- Whether a pattern of test files matches a path. -/
def MatchesTests (path : Path) : Prop :=
  ∃ test ∈ testFilePatterns, ∃ pattern, Pattern.parse test = .ok pattern ∧
    pattern.matchesText path.text = true

theorem matchesTests_iff :
    MatchesTests path ↔
      (∃ mark ∈ testMarks, ∃ extension ∈ testExtensions,
        (mark ++ extension).toList <:+ path.text.toList) ∨
      ∃ before behind,
        '/' :: path.text.toList = before ++ '/' :: ("__tests__".toList ++ '/' :: behind) := by
  have endings : (∃ mark ∈ testMarks, ∃ extension ∈ testExtensions, ∃ pattern,
      Pattern.parse ("**/*" ++ mark ++ extension) = .ok pattern ∧
        pattern.matchesText path.text = true) ↔
      ∃ mark ∈ testMarks, ∃ extension ∈ testExtensions,
        (mark ++ extension).toList <:+ path.text.toList := by
    refine exists_congr fun mark => and_congr_right fun known => ?_
    refine exists_congr fun extension => and_congr_right fun known' => ?_
    simp only [parse_ending mark known extension known', Except.ok.injEq, exists_eq_left']
    exact matchTokens_ending
  have directories : (∃ pattern, Pattern.parse "**/__tests__/**" = .ok pattern ∧
      pattern.matchesText path.text = true) ↔ ∃ before behind,
        '/' :: path.text.toList = before ++ '/' :: ("__tests__".toList ++ '/' :: behind) := by
    simp only [parse_tests, Except.ok.injEq, exists_eq_left']
    exact matchTokens_directory
  unfold MatchesTests
  rw [testFilePatterns_eq, ← endings, ← directories]
  simp only [List.mem_append, List.mem_flatMap, List.mem_map, List.mem_singleton]
  constructor
  · rintro ⟨_, ⟨mark, known, extension, known', rfl⟩ | rfl, matched⟩
    · exact .inl ⟨mark, known, extension, known', matched⟩
    · exact .inr matched
  · rintro (⟨mark, known, extension, known', matched⟩ | matched)
    · exact ⟨_, .inl ⟨mark, known, extension, known', rfl⟩, matched⟩
    · exact ⟨_, .inr rfl, matched⟩

/-- The patterns match the test files among the files of a tree. -/
theorem matchesTests_iff_isTestFile (isFile : tree.isFile path = true) :
    MatchesTests path ↔ IsTestFile path := by
  obtain ⟨above, name, plain, divided, whole⟩ := FileTree.exists_name_of_isFile isFile
  have noSlash : ∀ mark ∈ testMarks, ∀ extension ∈ testExtensions,
      '/' ∉ (mark ++ extension).toList := by
    decide +kernel
  rw [matchesTests_iff, IsTestFile, Path.fileName?_of_split plain divided,
    ← Path.mem_dropLast_split_iff (by decide), divided, List.dropLast_concat,
    show "__tests__" = String.ofList "__tests__".toList by rw [String.ofList_toList],
    Path.mem_dropLast_parts_iff plain divided (by decide +kernel)]
  refine or_congr ?_ Iff.rfl
  constructor
  · rintro ⟨mark, known, extension, known', ends⟩
    rw [Path.suffix_iff_of_ending whole (noSlash mark known extension known')] at ends
    obtain ⟨stem, equal⟩ := ends
    refine ⟨String.ofList stem, mark, known, extension, known', congrArg some ?_⟩
    rw [← equal, ← String.toList_inj]
    simp
  · rintro ⟨stem, mark, known, extension, known', equal⟩
    refine ⟨mark, known, extension, known', ?_⟩
    rw [Path.suffix_iff_of_ending whole (noSlash mark known extension known')]
    have equal := congrArg String.toList (Option.some.inj equal)
    rw [String.toList_ofList] at equal
    exact ⟨stem.toList, by rw [equal]; simp⟩

theorem files_skipping (skipping : request.ignoreTestFiles = true) (text : String) :
    text ∈ (run tree request).files ↔
      text ∈ (run tree { request with ignoreTestFiles := false }).files ∧
        ¬ MatchesTests ⟨text⟩ := by
  have covered : (exclusions request).1.cover ⟨text⟩ = true ↔
      (exclusions { request with ignoreTestFiles := false }).1.cover ⟨text⟩ = true ∨
        MatchesTests ⟨text⟩ := by
    rw [cover_exclusions_iff, cover_exclusions_iff]
    simp only [skipping, true_and, Bool.false_eq_true, false_and, or_false, or_assoc, MatchesTests]
  have visited : Visits tree { request with ignoreTestFiles := false } ⟨text⟩ ↔
      Visits tree request ⟨text⟩ := Iff.rfl
  rw [mem_files, mem_files, visited]
  unfold keeps
  simp only [Bool.and_eq_true, Bool.not_eq_true', ← Bool.not_eq_true, covered]
  tauto

/-- With test files ignored a scan results in what it results in otherwise, apart from the test
files whose extension the patterns know and from what lies below a directory for tests. -/
theorem test_files_are_skipped_by_known_extensions (tree : FileTree) (request : Request)
    (skipping : request.ignoreTestFiles = true) (text : String) :
    text ∈ (run tree request).files ↔
      text ∈ (run tree { request with ignoreTestFiles := false }).files ∧
        ¬ IsTestFile ⟨text⟩ := by
  rw [files_skipping skipping]
  refine and_congr_right fun found => not_congr ?_
  have kept := (mem_files.mp found).2
  simp only [keeps, Bool.and_eq_true] at kept
  exact matchesTests_iff_isTestFile kept.1.2

/-- A project with two test files beside a source. -/
def testedProject : FileTree :=
  ⟨.dir [("project", .dir [("a.test.mjs", .file (.text "")), ("b.test.ts", .file (.text "")),
    ("c.ts", .file (.text ""))])], ["project"]⟩

/-- A test file with a known extension is skipped, and the source beside it is not. -/
theorem typescript_test_is_skipped :
    let request : Request := ⟨⟨"."⟩, [], [], true⟩
    request.ignoreTestFiles = true ∧ IsTestFile ⟨"./b.test.ts"⟩ ∧
      "./b.test.ts" ∉ (run testedProject request).files ∧
      "./c.ts" ∈ (run testedProject request).files := by
  intro request
  have isTest : IsTestFile ⟨"./b.test.ts"⟩ :=
    .inl ⟨"b", ".test.", by decide, "ts", by decide, by decide +kernel⟩
  have split := test_files_are_skipped_by_known_extensions testedProject request rfl
  refine ⟨rfl, isTest, fun found => ((split _).mp found).2 isTest, (split _).mpr ⟨?_, ?_⟩⟩
  · decide +kernel
  · rintro (⟨stem, mark, known, extension, known', equal⟩ | below)
    · have name : (Path.mk "./c.ts").fileName? = some "c.ts" := by decide +kernel
      have marked : ∀ mark ∈ testMarks, mark.length = 6 := by decide +kernel
      have length := congrArg String.length (Option.some.inj (name.symm.trans equal))
      rw [String.length_append, String.length_append, marked mark known] at length
      exact absurd length (by rw [show "c.ts".length = 4 from rfl]; omega)
    · exact absurd below (by decide +kernel)

/-- A test file of a module is scanned, though its extension is one of source files. -/
theorem module_test_is_scanned :
    let request : Request := ⟨⟨"."⟩, [], [], true⟩
    "mjs" ∈ sourceExtensions ∧
      (Path.mk "./a.test.mjs").fileName? = some ("a" ++ ".test." ++ "mjs") ∧
      "./a.test.mjs" ∈ (run testedProject request).files := by
  decide +kernel

end Scan
end Phrasebook
