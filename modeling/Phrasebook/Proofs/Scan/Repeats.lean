import Phrasebook.Proofs.FileTree.LastPlace
import Phrasebook.Proofs.Scan.Found

/-!
# Files that are found twice

The starts of a scan can overlap, and then it comes across the same files several times.  What it
results in has no spelling twice, so a file is listed once for each spelling under which it is
found: twice exactly if the starts that meet above it are spelled differently.
-/

namespace Phrasebook

namespace FileTree

variable {tree : FileTree} {path : Path}

/-- A path that leads to a file has no slash at its end. -/
theorem unslashed_of_isFile (isFile : tree.isFile path = true) : path.Unslashed := by
  obtain ⟨_, name, plain, _, whole⟩ := exists_name_of_isFile isFile
  constructor
  · intro nowhere
    rcases whole with text | ⟨front, text⟩
    · exact plain.nonempty (text.symm.trans (String.toList_eq_nil_iff.mpr nowhere))
    · simp [nowhere] at text
  · intro ended
    refine plain.noSlash (List.mem_of_getLast? ?_)
    rcases whole with text | ⟨front, text⟩
    · rwa [text] at ended
    · rwa [text, List.getLast?_append_of_ne_nil _ (List.cons_ne_nil _ _),
        List.getLast?_cons_of_ne_nil plain.nonempty] at ended

/-- A path that leads to a file leads to its place, where there are no links. -/
theorem resolve_of_isFile (linkless : tree.isLinkless = true) (isFile : tree.isFile path = true) :
    tree.resolve path true = .ok (.taken (tree.place path)) := by
  obtain ⟨content, leads⟩ := isFile_iff.mp isFile
  obtain ⟨location, resolved, _⟩ := entry_eq_ok_iff.mp leads
  rw [resolved, direct_of_linkless linkless path location resolved]

end FileTree

namespace Scan

open Glob

variable {tree : FileTree} {request : Request} {left right start other : Path}
variable {names others : List String}

/-- Whether two starts of a scan meet above two of the paths it comes across: the second one leads
to something at or below the first one, but is not spelled as the walk from there spells it.  The
two paths are what both walks find from there on. -/
def Respelled (tree : FileTree) (request : Request) (left right : Path) : Prop :=
  ∃ start ∈ (starts tree request).1, ∃ other ∈ (starts tree request).1,
    FoundFrom tree start left ∧ FoundFrom tree other right ∧
      ∃ inner rest : List String, (∀ name ∈ inner ++ rest, Path.Plain name.toList) ∧
        tree.place other = tree.place start ++ inner ∧
        other.slashed ≠ (start.joinAll inner).slashed ∧
        left = start.joinAll (inner ++ rest) ∧ right = other.joinAll rest

theorem Respelled.spec (respelled : Respelled tree request left right) :
    left ≠ right ∧ tree.place left = tree.place right := by
  obtain ⟨start, _, other, _, _, _, inner, rest, plain, below, apart, rfl, rfl⟩ := respelled
  have plainRest := (List.forall_mem_append.mp plain).2
  constructor
  · intro same
    rw [Path.joinAll_append] at same
    exact apart (Path.slashed_eq_of_joinAll plainRest same).symm
  · rw [Path.place_joinAll plain, Path.place_joinAll plainRest, below, List.append_assoc]

/-- Names behind a start by which a scan comes to a path that it results in. -/
structure Listed (tree : FileTree) (request : Request) (path start : Path) (names : List String) :
    Prop where
  unslashed : path.Unslashed
  leads : tree.resolve path true = .ok (.taken (tree.place path))
  started : start ∈ (starts tree request).1
  found : FoundFrom tree start path
  plain : ∀ name ∈ names, Path.Plain name.toList
  equal : path = start.joinAll names

theorem exists_listed (linkless : tree.isLinkless = true) (plain : tree.hasPlainNames = true)
    {text : String} (member : text ∈ (run tree request).files) :
    ∃ start names, Listed tree request ⟨text⟩ start names := by
  obtain ⟨⟨start, started, found⟩, kept⟩ := mem_files.mp member
  obtain ⟨_, names, plainNames, equal⟩ := exists_of_foundFrom plain found
  simp only [keeps, Bool.and_eq_true] at kept
  exact ⟨start, names, FileTree.unslashed_of_isFile kept.1.2,
    FileTree.resolve_of_isFile linkless kept.1.2, started, found, plainNames, equal⟩

theorem Listed.place (listed : Listed tree request left start names) :
    tree.place left = tree.place start ++ names := by
  rw [listed.equal, Path.place_joinAll listed.plain]

theorem Listed.sameNode_iff (first : Listed tree request left start names)
    (second : Listed tree request right other others) :
    tree.sameNode left right = true ↔ tree.place left = tree.place right := by
  rw [FileTree.sameNode_iff, first.leads, second.leads]
  constructor
  · rintro ⟨location, here, there⟩
    cases here
    exact (FileTree.Spot.taken.inj (Except.ok.inj there)).symm
  · intro same
    exact ⟨tree.place left, rfl, by rw [same]⟩

/-- Two spellings of one path that is listed are those of two starts. -/
theorem respelled_of_listed {inner rest : List String}
    (first : Listed tree request left start (inner ++ rest))
    (second : Listed tree request right other rest)
    (below : tree.place other = tree.place start ++ inner) (different : left ≠ right) :
    Respelled tree request left right := by
  refine ⟨start, first.started, other, second.started, first.found, second.found, inner, rest,
    first.plain, below, ?_, first.equal, second.equal⟩
  intro spelled
  have whole : left = (start.joinAll inner).joinAll rest := by
    rw [first.equal, Path.joinAll_append]
  refine different ?_
  rw [whole, second.equal]
  refine Path.joinAll_eq_of_slashed second.plain ?_ spelled.symm
  rintro rfl
  have itself : right = other := second.equal
  exact ⟨whole ▸ first.unslashed, itself ▸ second.unslashed⟩

/-- Whether an include entry is the names of directories with single slashes between them. -/
def Tidy (entry : String) : Prop :=
  hasWildcard entry = false ∧ ∀ piece ∈ Path.split entry.toList, Path.Plain piece

/-- With tidy entries every start is the root with names behind it. -/
theorem exists_of_tidy (tidy : ∀ entry ∈ request.includes, Tidy entry)
    (member : start ∈ (starts tree request).1) :
    ∃ names : List String, (∀ name ∈ names, Path.Plain name.toList) ∧
      start = request.root.joinAll names := by
  unfold starts at member
  split at member
  · exact ⟨[], by simp, List.mem_singleton.mp member⟩
  · obtain ⟨each, inside, found⟩ := List.mem_flatMap.mp member
    obtain ⟨entry, listed, rfl⟩ := List.mem_map.mp inside
    obtain ⟨literal, plain⟩ := tidy entry listed
    refine ⟨(Path.split entry.toList).map String.ofList, ?_, ?_⟩
    · intro name member
      obtain ⟨piece, inside, rfl⟩ := List.mem_map.mp member
      rw [String.toList_ofList]
      exact plain piece inside
    · have joined := Path.join_eq_joinAll rfl plain request.root
      rw [String.ofList_toList] at joined
      unfold includeStarts at found
      simp only [literal, Bool.false_eq_true, if_false] at found
      split at found
      · rw [List.mem_singleton.mp found, joined]
      · cases found

theorem eq_of_tidy (tidy : ∀ entry ∈ request.includes, Tidy entry)
    (first : Listed tree request left start names)
    (second : Listed tree request right other others)
    (same : tree.place left = tree.place right) : left = right := by
  obtain ⟨front, plainFront, rfl⟩ := exists_of_tidy tidy first.started
  obtain ⟨back, plainBack, rfl⟩ := exists_of_tidy tidy second.started
  rw [first.place, second.place, Path.place_joinAll plainFront, Path.place_joinAll plainBack,
    List.append_assoc, List.append_assoc, List.append_cancel_left_eq] at same
  rw [first.equal, second.equal, ← Path.joinAll_append, ← Path.joinAll_append, same]

/-- Two spellings that a scan of a tree without links results in are those of one file exactly if
they come from starts that meet above it under two spellings.  If all include entries are tidy, no
file comes twice. -/
theorem files_come_twice_from_respelled_starts (tree : FileTree) (request : Request)
    (linkless : tree.isLinkless = true) (plain : tree.hasPlainNames = true)
    (left right : String) (first : left ∈ (run tree request).files)
    (second : right ∈ (run tree request).files) :
    (left ≠ right ∧ tree.sameNode ⟨left⟩ ⟨right⟩ = true ↔
      Respelled tree request ⟨left⟩ ⟨right⟩ ∨ Respelled tree request ⟨right⟩ ⟨left⟩) ∧
    ((∀ entry ∈ request.includes, Tidy entry) → tree.sameNode ⟨left⟩ ⟨right⟩ = true →
      left = right) := by
  obtain ⟨start, names, listed⟩ := exists_listed linkless plain first
  obtain ⟨other, others, listed'⟩ := exists_listed linkless plain second
  have sameNode := listed.sameNode_iff listed'
  refine ⟨⟨?_, ?_⟩, ?_⟩
  · rintro ⟨different, one⟩
    have different : Path.mk left ≠ Path.mk right := fun same => different (congrArg Path.text same)
    rw [sameNode, listed.place, listed'.place, List.append_eq_append_iff] at one
    rcases one with ⟨inner, below, rfl⟩ | ⟨inner, below, rfl⟩
    · exact .inl (respelled_of_listed listed listed' below different)
    · exact .inr (respelled_of_listed listed' listed below different.symm)
  · rw [sameNode]
    rintro (respelled | respelled)
    · exact ⟨fun same => respelled.spec.1 (congrArg Path.mk same), respelled.spec.2⟩
    · exact ⟨fun same => respelled.spec.1 (congrArg Path.mk same.symm), respelled.spec.2.symm⟩
  · intro tidy one
    exact congrArg Path.text (eq_of_tidy tidy listed listed' (sameNode.mp one))

/-- A project with one source. -/
def smallProject : FileTree :=
  ⟨.dir [("project", .dir [("src", .dir [("a.ts", .file (.text ""))])])], ["project"]⟩

/-- A directory that is included under two spellings. -/
def twiceIncluded : Request :=
  ⟨⟨"."⟩, ["src", "./src"], [], false⟩

theorem files_of_twiceIncluded :
    (run smallProject twiceIncluded).files = ["././src/a.ts", "./src/a.ts"] := by
  decide +kernel

/-- The source is listed under both spellings of its directory. -/
theorem source_comes_twice :
    "././src/a.ts" ≠ "./src/a.ts" ∧
      smallProject.sameNode ⟨"././src/a.ts"⟩ ⟨"./src/a.ts"⟩ = true := by
  have first : FoundFrom smallProject ⟨"./src"⟩ ⟨"./src/a.ts"⟩ :=
    ⟨[⟨"./src"⟩, ⟨"./src/a.ts"⟩], by rfl, by decide⟩
  have second : FoundFrom smallProject ⟨"././src"⟩ ⟨"././src/a.ts"⟩ :=
    ⟨[⟨"././src"⟩, ⟨"././src/a.ts"⟩], by rfl, by decide⟩
  have respelled : Respelled smallProject twiceIncluded ⟨"././src/a.ts"⟩ ⟨"./src/a.ts"⟩ :=
    ⟨⟨"././src"⟩, by decide +kernel, ⟨"./src"⟩, by decide +kernel, second, first, [], ["a.ts"],
      by decide +kernel, by decide +kernel, by decide +kernel, by decide +kernel,
      by decide +kernel⟩
  exact (files_come_twice_from_respelled_starts smallProject twiceIncluded (by decide)
    (by decide +kernel) "././src/a.ts" "./src/a.ts" (by simp [files_of_twiceIncluded])
    (by simp [files_of_twiceIncluded])).1.mpr (.inl respelled)

/-- Two different strings that a scan results in are one file. -/
theorem result_lists_one_file_twice :
    (run smallProject twiceIncluded).files = ["././src/a.ts", "./src/a.ts"] ∧
      smallProject.sameNode ⟨"././src/a.ts"⟩ ⟨"./src/a.ts"⟩ = true :=
  ⟨files_of_twiceIncluded, by decide +kernel⟩

end Scan
end Phrasebook
