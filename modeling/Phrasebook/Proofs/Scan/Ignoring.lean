import Phrasebook.Proofs.Glob.Openings
import Phrasebook.Proofs.Scan.Found

/-!
# What literal ignore entries keep out

A literal ignore entry names a file or a directory below the root, and keeps out what is spelled as
it is.  A scan can come to the same files under another spelling: a pattern below a root that begins
with a point leads to paths without the point.  These no literal entry keeps out.
-/

namespace Phrasebook

namespace Path

variable {path : Path}

theorem parts_ne_nil (somewhere : path.text ≠ "") : path.parts ≠ [] := by
  cases absolute : path.isAbsolute with
  | true => simp [parts_of_absolute absolute]
  | false =>
      rw [parts_of_relative absolute]
      obtain ⟨first, rest, pieces⟩ :=
        List.exists_cons_of_ne_nil (pieces_ne_nil absolute somewhere)
      by_cases here : first = "."
      · simp [pieces, here]
      · simp [names, pieces, here]

theorem isAbsolute_eq_of_opening {other : Path} (same : path.opening = other.opening) :
    path.isAbsolute = other.isAbsolute := by
  rw [Bool.eq_iff_iff, ← opening_eq_root_iff, ← opening_eq_root_iff, same]

end Path

namespace FileTree

/-- Whether a path leads to what another one leads to, or to something below that. -/
def Below (tree : FileTree) (base path : Path) : Prop :=
  ∃ location inner, tree.resolve base true = .ok (.taken location) ∧
    tree.resolve path true = .ok (.taken (location ++ inner))

/-- If two paths lead downwards, where their names say, and have the same opening, one leads to
something at or below the other only if it begins with it. -/
theorem startsWith_of_below {tree : FileTree} {base path : Path} (below : tree.Below base path)
    (direct : tree.Direct path) (directBase : tree.Direct base)
    (downwards : .up ∉ path.parts) (downwardsBase : .up ∉ base.parts)
    (same : base.opening = path.opening) : path.startsWith base = true := by
  obtain ⟨location, inner, leads, onward⟩ := below
  have somewhere : base.text ≠ "" := (sound_of_resolve leads).somewhere
  have place := directBase location leads
  have placeBelow := direct (location ++ inner) onward
  have origin : tree.origin path = tree.origin base := by
    rw [FileTree.origin, FileTree.origin, Path.isAbsolute_eq_of_opening same]
  rw [place_eq downwardsBase] at place
  rw [place_eq downwards, origin, place, List.append_assoc, List.append_cancel_left_eq]
    at placeBelow
  exact (Path.startsWith_iff (Path.parts_ne_nil somewhere)).mpr ⟨same, inner, placeBelow⟩

end FileTree

namespace Scan

open Glob

variable {tree : FileTree} {request : Request} {path start : Path} {ignore : String}

/-- Whether an entry says where to start, seen from the root, without a wildcard. -/
def StartsAt (tree : FileTree) (root : Path) (entry : String) (start : Path) : Prop :=
  hasWildcard entry = false ∧ (Path.mk entry).isAbsolute = false ∧
    start ∈ (includeStarts tree root entry).1

/-- Whether an entry says where to start by a pattern, seen from the root. -/
def Matches (tree : FileTree) (root : Path) (entry : String) (start : Path) : Prop :=
  hasWildcard entry = true ∧ (Path.mk entry).isAbsolute = false ∧
    start ∈ (includeStarts tree root entry).1

theorem opening_of_startsAt {root : Path} (rooted : root.text ≠ "") {entry : String}
    (begins : StartsAt tree root entry start) : start.opening = root.opening := by
  obtain ⟨literal, relative, member⟩ := begins
  unfold includeStarts at member
  simp only [literal, Bool.false_eq_true, if_false] at member
  split at member
  · rw [List.mem_singleton.mp member, Path.opening_join relative rooted]
  · cases member

/-- A pattern leads to paths that begin with no point, even below a root that does. -/
theorem opening_of_matches (plain : tree.hasPlainNames = true) {root : Path} {entry : String}
    (found : Matches tree root entry start) (elsewhere : start.parts ≠ [.here])
    (downwards : .up ∉ start.parts) : start.opening ≠ some .here := by
  obtain ⟨wild, _, member⟩ := found
  unfold includeStarts at member
  simp only [wild, if_true] at member
  intro opened
  cases expanded : expand tree (root.join ⟨entry⟩).text with
  | error error => simp [expanded] at member
  | ok paths =>
      rw [expanded] at member
      have listed : start ∈ paths := List.mem_of_mem_filter member
      rcases unopened_of_expand plain expanded listed opened with here | up
      · exact elsewhere here
      · exact downwards up

/-- A request without one of its ignore entries. -/
def Request.without (request : Request) (ignore : String) : Request :=
  { request with ignores := request.ignores.filter (· ≠ ignore) }

theorem cover_without (literal : hasWildcard ignore = false)
    (apart : path.startsWith (request.root.join ⟨ignore⟩) = false) :
    (exclusions (request.without ignore)).1.cover path = (exclusions request).1.cover path := by
  rw [Bool.eq_iff_iff, cover_exclusions_iff, cover_exclusions_iff]
  simp only [Request.without, List.mem_filter, decide_eq_true_eq]
  refine or_congr ?_ (or_congr ?_ Iff.rfl)
  · constructor
    · rintro ⟨other, ⟨listed, _⟩, begins⟩
      exact ⟨other, listed, begins⟩
    · rintro ⟨other, listed, plain, begins⟩
      refine ⟨other, ⟨listed, ?_⟩, plain, begins⟩
      rintro rfl
      rw [apart] at begins
      cases begins
  · constructor
    · rintro ⟨other, ⟨listed, _⟩, matched⟩
      exact ⟨other, listed, matched⟩
    · rintro ⟨other, listed, wild, matched⟩
      refine ⟨other, ⟨listed, ?_⟩, wild, matched⟩
      rintro rfl
      rw [literal] at wild
      cases wild

/-- An entry that begins no path is as good as not there. -/
theorem mem_files_without (literal : hasWildcard ignore = false)
    (apart : path.startsWith (request.root.join ⟨ignore⟩) = false) :
    path.text ∈ (run tree (request.without ignore)).files ↔
      path.text ∈ (run tree request).files := by
  rw [mem_files, mem_files]
  unfold keeps
  rw [cover_without literal apart]
  rfl

/-- A literal ignore entry keeps out the files at or below it that are spelled with the opening of
the root, and has no effect on those that are not.  The files found from the root, or from where a
literal include entry says, have its opening; those that a pattern leads to do not, if the root
begins with a point.  (The paths must lead downwards, without a link that takes them elsewhere.) -/
theorem literal_ignores_hold_for_one_spelling (tree : FileTree) (request : Request)
    (plain : tree.hasPlainNames = true) (rooted : request.root.text ≠ "")
    (ignore : String) (listed : ignore ∈ request.ignores) (literal : hasWildcard ignore = false)
    (relative : (Path.mk ignore).isAbsolute = false) (path : Path)
    (below : tree.Below (request.root.join ⟨ignore⟩) path)
    (direct : tree.Direct path ∧ tree.Direct (request.root.join ⟨ignore⟩))
    (downwards : .up ∉ path.parts ∧ .up ∉ (request.root.join ⟨ignore⟩).parts) :
    (path.opening = request.root.opening → path.text ∉ (run tree request).files) ∧
      (path.opening ≠ request.root.opening →
        (path.text ∈ (run tree request).files ↔
          path.text ∈ (run tree (request.without ignore)).files)) ∧
      ∀ start, FoundFrom tree start path →
        ((start = request.root ∨ ∃ entry, StartsAt tree request.root entry start) →
          path.opening = request.root.opening) ∧
        ((∃ entry, Matches tree request.root entry start) → start.parts ≠ [.here] →
          request.root.opening = some .here → path.opening ≠ request.root.opening) := by
  have sameOpening : (request.root.join ⟨ignore⟩).opening = request.root.opening :=
    Path.opening_join relative rooted
  refine ⟨?_, ?_, ?_⟩
  · intro same found
    have begins := FileTree.startsWith_of_below below direct.1 direct.2 downwards.1 downwards.2
      (sameOpening.trans same.symm)
    have covered := cover_exclusions_iff.mpr (.inl ⟨ignore, listed, literal, begins⟩)
    have kept := (mem_files.mp found).2
    rw [keeps, covered] at kept
    cases kept
  · intro different
    have somewhere : (request.root.join ⟨ignore⟩).text ≠ "" := by
      obtain ⟨location, inner, leads, _⟩ := below
      exact (FileTree.sound_of_resolve leads).somewhere
    refine (mem_files_without literal ?_).symm
    rw [Bool.eq_false_iff, Ne, Path.startsWith_iff (Path.parts_ne_nil somewhere), not_and]
    intro same
    exact absurd (same.symm.trans sameOpening) different
  · intro start found
    obtain ⟨somewhere, names, plainNames, rfl⟩ := exists_of_foundFrom plain found
    rw [Path.opening_joinAll plainNames somewhere]
    constructor
    · rintro (rfl | ⟨entry, begins⟩)
      · rfl
      · exact opening_of_startsAt rooted begins
    · rintro ⟨entry, found⟩ elsewhere point
      have startDownwards : .up ∉ start.parts := by
        intro up
        refine downwards.1 (Path.up_mem_parts_iff.mpr ?_)
        rw [Path.names, Path.pieces_joinAll plainNames, List.filter_append]
        exact List.mem_append_left _ (Path.up_mem_parts_iff.mp up)
      rw [point]
      exact opening_of_matches plain found elsewhere startDownwards

/-- A project with a source in a directory for generated ones. -/
def generatedProject : FileTree :=
  ⟨.dir [("project", .dir [("src", .dir [("gen", .dir [("a.ts", .file (.text ""))])])])],
    ["project"]⟩

/-- The ignored directory is kept out of a scan of the directory above it. -/
theorem generated_source_is_ignored :
    let request : Request := ⟨⟨"."⟩, ["src"], ["src/gen"], true⟩
    generatedProject.Below (request.root.join ⟨"src/gen"⟩) ⟨"./src/gen/a.ts"⟩ ∧
      FoundFrom generatedProject ⟨"./src"⟩ ⟨"./src/gen/a.ts"⟩ ∧
      "./src/gen/a.ts" ∉ (run generatedProject request).files := by
  have below : generatedProject.Below (Path.join ⟨"."⟩ ⟨"src/gen"⟩) ⟨"./src/gen/a.ts"⟩ :=
    ⟨["project", "src", "gen"], ["a.ts"], by rfl, by rfl⟩
  have found : FoundFrom generatedProject ⟨"./src"⟩ ⟨"./src/gen/a.ts"⟩ :=
    ⟨[⟨"./src"⟩, ⟨"./src/gen"⟩, ⟨"./src/gen/a.ts"⟩], by rfl, by decide⟩
  have linkless : generatedProject.isLinkless = true := by decide
  intro request
  obtain ⟨keptOut, _, spelled⟩ := literal_ignores_hold_for_one_spelling generatedProject request
    (by decide +kernel) (by decide) "src/gen" (by decide) (by decide +kernel) (by decide +kernel)
    ⟨"./src/gen/a.ts"⟩ below
    ⟨FileTree.direct_of_linkless linkless _, FileTree.direct_of_linkless linkless _⟩
    ⟨by decide +kernel, by decide +kernel⟩
  refine ⟨below, found, keptOut ?_⟩
  exact (spelled ⟨"./src"⟩ found).1
    (.inr ⟨"src", by decide +kernel, by decide +kernel, by decide +kernel⟩)

/-- A scan that starts where a pattern says results in a source of an ignored directory. -/
theorem generated_source_is_found :
    let request : Request := ⟨⟨"."⟩, ["src/*"], ["src/gen"], true⟩
    hasWildcard "src/gen" = false ∧
      generatedProject.Below (request.root.join ⟨"src/gen"⟩) ⟨"src/gen/a.ts"⟩ ∧
      (run generatedProject request).files = ["src/gen/a.ts"] := by
  refine ⟨by decide +kernel, ⟨["project", "src", "gen"], ["a.ts"], by rfl, by rfl⟩, ?_⟩
  decide +kernel

end Scan
end Phrasebook
