import Phrasebook.Proofs.Glob.Matching
import Phrasebook.Proofs.Scan.Ignoring
import Phrasebook.Proofs.Scan.Repeats

/-!
# What ignore entries with wildcards keep out

The pattern of an ignore entry is compared with the whole path under which a file is found, the root
in front of it included.  So it is about the path seen from the root only if it begins with a
wildcard that the root can stand for, or if the root is not written.
-/

namespace Phrasebook

namespace Path

variable {path : Path} {names : List String}

/-- What names look like one behind the other. -/
def relative (names : List String) : String :=
  "/".intercalate names

/-- Names behind a path follow its last slash. -/
theorem text_joinAll (some : names ≠ []) (plain : ∀ name ∈ names, Plain name.toList) :
    (path.joinAll names).text = path.slashed.text ++ relative names := by
  induction names generalizing path with
  | nil => exact absurd rfl some
  | cons name rest ih =>
      obtain ⟨plainName, plainRest⟩ := List.forall_mem_cons.mp plain
      have joined := text_join_eq (not_isAbsolute_of_plain plainName) path
      cases rest with
      | nil => rw [joinAll_cons, joinAll_nil, joined, relative, String.intercalate_singleton]
      | cons next others =>
          rw [joinAll_cons, ih (List.cons_ne_nil _ _) plainRest,
            slashed_of_unslashed (unslashed_join plainName path), joined, relative, relative,
            String.intercalate_cons_cons]
          simp only [String.append_assoc]

end Path

namespace Scan

open Glob

variable {tree : FileTree} {request : Request} {ignore text : String} {pattern : Pattern}

section
variable (listed : ignore ∈ request.ignores) (wild : hasWildcard ignore = true)
variable (parsed : Pattern.parse ignore = .ok pattern)
include listed wild parsed

theorem cover_iff_of_pattern (path : Path) :
    (exclusions request).1.cover path = true ↔
      (exclusions (request.without ignore)).1.cover path = true ∨
        pattern.matchesText path.text = true := by
  rw [cover_exclusions_iff, cover_exclusions_iff]
  simp only [Request.without, List.mem_filter, decide_eq_true_eq]
  constructor
  · rintro (⟨other, listed', literal, begins⟩ | ⟨other, listed', wild', found, parsed', matched⟩ |
      tests)
    · refine .inl (.inl ⟨other, ⟨listed', ?_⟩, literal, begins⟩)
      rintro rfl
      rw [wild] at literal
      cases literal
    · by_cases same : other = ignore
      · subst same
        rw [parsed] at parsed'
        cases parsed'
        exact .inr matched
      · exact .inl (.inr (.inl ⟨other, ⟨listed', same⟩, wild', found, parsed', matched⟩))
    · exact .inl (.inr (.inr tests))
  · rintro ((⟨other, ⟨listed', _⟩, literal, begins⟩ | ⟨other, ⟨listed', _⟩, matched⟩ | tests) |
      matched)
    · exact .inl ⟨other, listed', literal, begins⟩
    · exact .inr (.inl ⟨other, listed', matched⟩)
    · exact .inr (.inr tests)
    · exact .inr (.inl ⟨ignore, listed, wild, pattern, parsed, matched⟩)

/-- The pattern of an ignore entry keeps out the paths that it matches, and nothing else. -/
theorem mem_files_iff_of_pattern :
    text ∈ (run tree request).files ↔
      text ∈ (run tree (request.without ignore)).files ∧ pattern.matchesText text = false := by
  have visited : Visits tree (request.without ignore) ⟨text⟩ ↔ Visits tree request ⟨text⟩ := Iff.rfl
  rw [mem_files, mem_files, visited]
  unfold keeps
  simp only [Bool.and_eq_true, Bool.not_eq_true', ← Bool.not_eq_true,
    cover_iff_of_pattern listed wild parsed]
  tauto

end

/-- The pattern of an ignore entry keeps out exactly the files whose path, as it is spelled, it
matches.  So of the files whose path seen from the root it matches it keeps out those that are
spelled without the root, and, if it begins with a wildcard for any directories, those that are
spelled with the root or another path in front.  A pattern that begins with something else than the
root does has no effect on the paths that are spelled with the root. -/
theorem ignore_globs_match_spelled_paths (tree : FileTree) (request : Request) (ignore : String)
    (listed : ignore ∈ request.ignores) (wild : hasWildcard ignore = true) (pattern : Pattern)
    (parsed : Pattern.parse ignore = .ok pattern) :
    (∀ text, text ∈ (run tree request).files ↔
      text ∈ (run tree (request.without ignore)).files ∧ pattern.matchesText text = false) ∧
    (∀ names : List String, names ≠ [] → (∀ name ∈ names, Path.Plain name.toList) →
      pattern.matchesText (Path.relative names) = true →
        Path.relative names ∉ (run tree request).files ∧
          (pattern.Floats → ∀ start : Path,
            (start.joinAll names).text ∉ (run tree request).files)) ∧
    ∀ c, request.root.text.toList.head? = some c → ¬ pattern.Floats →
      (∀ token ∈ pattern.tokens.head?, token.accepts c = false) →
      ∀ text : String, request.root.text.toList <+: text.toList →
        (text ∈ (run tree request).files ↔
          text ∈ (run tree (request.without ignore)).files) := by
  have exactly : ∀ text, text ∈ (run tree request).files ↔
      text ∈ (run tree (request.without ignore)).files ∧ pattern.matchesText text = false :=
    fun _ => mem_files_iff_of_pattern listed wild parsed
  have keptOut : ∀ text, pattern.matchesText text = true → text ∉ (run tree request).files := by
    intro text matched found
    rw [(exactly text).mp found |>.2] at matched
    cases matched
  refine ⟨exactly, ?_, ?_⟩
  · intro names some plain matched
    refine ⟨keptOut _ matched, fun floats start => keptOut _ ?_⟩
    rw [Path.text_joinAll some plain]
    rcases start.slashed_cases with unwritten | ⟨directory, slashed⟩
    · rwa [unwritten, String.empty_append]
    · rw [slashed]
      exact floats.matchesText matched
  · intro c first fixed refused text begins
    rw [exactly text]
    refine and_iff_left (Pattern.matchesText_eq_false fixed refused ?_)
    obtain ⟨rest, equal⟩ := begins
    rw [← equal, List.head?_append, first]
    rfl

/-- A pattern for all directories of a name keeps the source out. -/
theorem source_is_ignored_anywhere :
    let request : Request := ⟨⟨"."⟩, [], ["**/src/*"], true⟩
    "**/src/*" ∈ request.ignores ∧ hasWildcard "**/src/*" = true ∧
      "./src/a.ts" ∉ (run smallProject request).files := by
  intro request
  have parsed : Pattern.parse "**/src/*" =
      .ok ⟨.anyComponents :: ("src/".toList.map .char ++ [.anySequence])⟩ := by
    decide +kernel
  obtain ⟨_, spelled, _⟩ := ignore_globs_match_spelled_paths smallProject request "**/src/*"
    (List.mem_singleton.mpr rfl) (by decide +kernel) _ parsed
  obtain ⟨_, anywhere⟩ := spelled ["src", "a.ts"] (List.cons_ne_nil _ _) (by decide +kernel)
    (by decide +kernel)
  have path : "./src/a.ts" = (Path.joinAll ⟨"."⟩ ["src", "a.ts"]).text := by decide +kernel
  refine ⟨List.mem_singleton.mpr rfl, by decide +kernel, ?_⟩
  rw [path]
  exact anywhere (.inl rfl) ⟨"."⟩

/-- A pattern that matches the path of the source seen from the root does not keep it out. -/
theorem source_is_not_ignored_from_the_root :
    let request : Request := ⟨⟨"."⟩, [], ["src/*"], true⟩
    (∃ pattern, Pattern.parse "src/*" = .ok pattern ∧ hasWildcard "src/*" = true ∧
        pattern.matchesText "src/a.ts" = true) ∧
      (run smallProject request).files = [(request.root.join ⟨"src/a.ts"⟩).text] := by
  refine ⟨⟨⟨"src/".toList.map .char ++ [.anySequence]⟩, ?_⟩, ?_⟩
  · decide +kernel
  · decide +kernel

end Scan
end Phrasebook
