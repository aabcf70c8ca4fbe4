import Phrasebook.Proofs.FileTree.Joined
import Phrasebook.Scan

/-!
# What a scan finds

A scan comes across the paths at and below its starts, and keeps the source files among them that
nothing excludes.  Each path below a start is the start with names behind it.
-/

namespace Phrasebook

namespace Scan

variable {tree : FileTree} {request : Request} {start path : Path} {entry : Entry}
variable {entries : List (String × Entry)} {paths : List Path} {text : String}

/-- Names that a walk follows from a node downwards: those of nodes below it, through directories
that are entered. -/
inductive Comes : Entry → List String → Prop where
  | here (entry : Entry) : Comes entry []
  | into {entries : List (String × Entry)} {name : String} {entry : Entry} {rest : List String} :
      (name, entry) ∈ entries → ¬ (entry.isDir = true ∧ name ∈ skippedDirs) → Comes entry rest →
      Comes (.dir entries) (name :: rest)

theorem comes_iff_of_not_dir {names : List String} (leaf : entry.isDir = false) :
    Comes entry names ↔ names = [] := by
  constructor
  · intro comes
    cases comes with
    | here => rfl
    | into => cases leaf
  · rintro rfl
    exact .here entry

mutual

/-- A walk comes across the paths with the names that it follows. -/
theorem mem_pathsBelow : (entry : Entry) → (start path : Path) →
    (path ∈ pathsBelow start entry ↔ ∃ names, Comes entry names ∧ path = start.joinAll names)
  | .file content, start, path => by
      have leaf : (Entry.file content).isDir = false := rfl
      simp [pathsBelow, comes_iff_of_not_dir leaf]
  | .link target, start, path => by
      have leaf : (Entry.link target).isDir = false := rfl
      simp [pathsBelow, comes_iff_of_not_dir leaf]
  | .dir entries, start, path => by
      rw [pathsBelow, List.mem_cons, mem_pathsIn entries start path]
      constructor
      · rintro (rfl | ⟨name, entry, rest, member, entered, comes, rfl⟩)
        · exact ⟨[], .here _, rfl⟩
        · exact ⟨name :: rest, .into member entered comes, rfl⟩
      · rintro ⟨names, comes, rfl⟩
        cases comes with
        | here => exact .inl rfl
        | into member entered comes => exact .inr ⟨_, _, _, member, entered, comes, rfl⟩

theorem mem_pathsIn : (entries : List (String × Entry)) → (start path : Path) →
    (path ∈ pathsIn start entries ↔ ∃ name entry rest, (name, entry) ∈ entries ∧
      ¬ (entry.isDir = true ∧ name ∈ skippedDirs) ∧ Comes entry rest ∧
      path = (start.join ⟨name⟩).joinAll rest)
  | [], start, path => by simp [pathsIn]
  | (name, entry) :: others, start, path => by
      rw [pathsIn, List.mem_append, mem_pathsIn others start path]
      have first : (path ∈ if entry.isDir && skippedDirs.contains name then []
          else pathsBelow (start.join ⟨name⟩) entry) ↔
          ¬ (entry.isDir = true ∧ name ∈ skippedDirs) ∧
            ∃ rest, Comes entry rest ∧ path = (start.join ⟨name⟩).joinAll rest := by
        rw [← mem_pathsBelow entry (start.join ⟨name⟩) path]
        split
        · rename_i skipped
          simp_all
        · rename_i entered
          simp_all
      rw [first]
      constructor
      · rintro (⟨entered, rest, comes, equal⟩ | ⟨name, entry, rest, member, found⟩)
        · exact ⟨name, entry, rest, List.mem_cons_self .., entered, comes, equal⟩
        · exact ⟨name, entry, rest, List.mem_cons_of_mem _ member, found⟩
      · rintro ⟨other, below, rest, member, entered, comes, equal⟩
        rcases List.mem_cons.mp member with same | member
        · obtain ⟨rfl, rfl⟩ := Prod.mk.inj same
          exact .inl ⟨entered, rest, comes, equal⟩
        · exact .inr ⟨other, below, rest, member, entered, comes, equal⟩

end

theorem plain_of_comes {names : List String} (comes : Comes entry names)
    (plain : entry.allBelow (fun name _ => decide (Path.Plain name.toList)) = true) :
    ∀ name ∈ names, Path.Plain name.toList := by
  induction comes with
  | here => simp
  | into member entered comes ih =>
      obtain ⟨plainName, below⟩ := Entry.allBelow_of_mem plain member
      exact List.forall_mem_cons.mpr ⟨of_decide_eq_true plainName, ih below⟩

/-- A walk starts at a node of the tree, which its start leads to. -/
theorem exists_of_walk (walked : walk tree start = .ok paths) :
    start.text ≠ "" ∧ ∃ location entry, tree.root.at? location = some entry ∧
      paths = pathsBelow start entry := by
  unfold walk at walked
  cases named : tree.entryItself start with
  | error error =>
      rw [named] at walked
      cases walked
  | ok itself =>
      obtain ⟨location, leads, there⟩ := FileTree.entryItself_eq_ok_iff.mp named
      refine ⟨(FileTree.sound_of_resolve leads).somewhere, ?_⟩
      rw [named] at walked
      cases itself with
      | file content =>
          cases walked
          exact ⟨location, _, there, rfl⟩
      | dir entries =>
          cases walked
          exact ⟨location, _, there, rfl⟩
      | link target =>
          cases followed : tree.entry start with
          | error error =>
              simp only [followed, bind, Except.bind] at walked
              cases walked
          | ok entry =>
              obtain ⟨location, _, there⟩ := FileTree.entry_eq_ok_iff.mp followed
              simp only [followed, bind, Except.bind] at walked
              cases walked
              exact ⟨location, entry, there, rfl⟩

open Glob in
/-- A path is excluded if a literal entry begins it or the pattern of another one, or one of test
files, matches it. -/
theorem cover_exclusions_iff :
    (exclusions request).1.cover path = true ↔
      (∃ ignore ∈ request.ignores, hasWildcard ignore = false ∧
        path.startsWith (request.root.join ⟨ignore⟩) = true) ∨
      (∃ ignore ∈ request.ignores, hasWildcard ignore = true ∧
        ∃ pattern, Pattern.parse ignore = .ok pattern ∧ pattern.matchesText path.text = true) ∨
      (request.ignoreTestFiles = true ∧ ∃ test ∈ testFilePatterns,
        ∃ pattern, Pattern.parse test = .ok pattern ∧ pattern.matchesText path.text = true) := by
  have parsed : ∀ glob pattern, (Pattern.parse glob).toOption = some pattern ↔
      Pattern.parse glob = .ok pattern := by
    intro glob pattern
    cases Pattern.parse glob with
    | error error => simp [Except.toOption]
    | ok found => simp [Except.toOption]
  unfold exclusions Exclusions.cover
  simp only [Bool.or_eq_true, List.any_eq_true, List.mem_map, List.mem_filter, List.mem_append,
    List.mem_filterMap, Bool.not_eq_true', exists_exists_and_eq_and, parsed]
  refine or_congr ?_ ?_
  · exact exists_congr fun ignore => and_assoc
  · cases request.ignoreTestFiles with
    | true =>
        simp only [if_true, List.mem_filterMap, parsed, true_and]
        constructor
        · rintro ⟨pattern, ⟨ignore, ⟨member, wild⟩, parse⟩ | ⟨test, member, parse⟩, matched⟩
          · exact .inl ⟨ignore, member, wild, pattern, parse, matched⟩
          · exact .inr ⟨test, member, pattern, parse, matched⟩
        · rintro (⟨ignore, member, wild, pattern, parse, matched⟩ |
            ⟨test, member, pattern, parse, matched⟩)
          · exact ⟨pattern, .inl ⟨ignore, ⟨member, wild⟩, parse⟩, matched⟩
          · exact ⟨pattern, .inr ⟨test, member, parse⟩, matched⟩
    | false =>
        simp only [Bool.false_eq_true, if_false, List.not_mem_nil, or_false, false_and]
        constructor
        · rintro ⟨pattern, ⟨ignore, ⟨member, wild⟩, parse⟩, matched⟩
          exact ⟨ignore, member, wild, pattern, parse, matched⟩
        · rintro ⟨ignore, member, wild, pattern, parse, matched⟩
          exact ⟨pattern, ⟨ignore, ⟨member, wild⟩, parse⟩, matched⟩

theorem mem_names_sorted (entries : List (String × Unit)) :
    text ∈ Table.names (Table.sorted entries) ↔ text ∈ Table.names entries := by
  have inserted : ∀ table : List (String × Unit),
      text ∈ Table.names (entries.foldl (fun table entry => Table.insert table entry.1 entry.2)
        table) ↔ text ∈ Table.names table ∨ text ∈ Table.names entries := by
    induction entries with
    | nil => simp [Table.names]
    | cons entry rest ih =>
        intro table
        rw [List.foldl_cons, ih, Table.mem_names_insert, Table.names_cons, List.mem_cons]
        tauto
  rw [Table.sorted, inserted]
  simp [Table.names]

theorem mem_sortedSet {texts : List String} : text ∈ sortedSet texts ↔ text ∈ texts := by
  rw [sortedSet, mem_names_sorted, Table.names, List.map_map]
  simp

/-- Whether a scan comes across a path at one of its starts or below it. -/
def FoundFrom (tree : FileTree) (start path : Path) : Prop :=
  ∃ paths, walk tree start = .ok paths ∧ path ∈ paths

/-- Whether a scan comes across a path. -/
def Visits (tree : FileTree) (request : Request) (path : Path) : Prop :=
  ∃ start ∈ (starts tree request).1, FoundFrom tree start path

/-- A scan results in the paths that it comes across and keeps. -/
theorem mem_files :
    text ∈ (run tree request).files ↔
      Visits tree request ⟨text⟩ ∧ keeps tree (exclusions request).1 ⟨text⟩ = true := by
  have visited : ∀ path : Path,
      path ∈ ((starts tree request).1.map fun start => (start, walk tree start)).flatMap
        (fun walked => walked.2.toOption.getD []) ↔ Visits tree request path := by
    intro path
    rw [List.flatMap_map, List.mem_flatMap]
    refine exists_congr fun start => and_congr_right fun _ => ?_
    unfold FoundFrom
    cases walk tree start with
    | error error => simp [Except.toOption]
    | ok paths => simp [Except.toOption]
  unfold run
  dsimp only
  rw [mem_sortedSet, List.mem_map]
  constructor
  · rintro ⟨path, member, rfl⟩
    obtain ⟨found, kept⟩ := List.mem_filter.mp member
    exact ⟨(visited path).mp found, kept⟩
  · rintro ⟨found, kept⟩
    exact ⟨⟨text⟩, List.mem_filter.mpr ⟨(visited _).mpr found, kept⟩, rfl⟩

/-- A path that is found from a start is the start with plain names behind it. -/
theorem exists_of_foundFrom (plain : tree.hasPlainNames = true)
    (found : FoundFrom tree start path) :
    start.text ≠ "" ∧ ∃ names, (∀ name ∈ names, Path.Plain name.toList) ∧
      path = start.joinAll names := by
  obtain ⟨paths, walked, found⟩ := found
  obtain ⟨somewhere, location, entry, there, rfl⟩ := exists_of_walk walked
  obtain ⟨names, comes, rfl⟩ := (mem_pathsBelow entry start path).mp found
  have below := Entry.allBelow_of_at? plain there
  exact ⟨somewhere, names, plain_of_comes comes below, rfl⟩

end Scan
end Phrasebook
