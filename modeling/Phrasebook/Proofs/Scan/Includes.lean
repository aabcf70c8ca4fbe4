import Phrasebook.Config.Basic
import Phrasebook.Proofs.Glob.Expanding
import Phrasebook.Scan

/-!
# Where include entries with wildcards start a scan

The pattern of an include entry is joined to the root and expanded as one text.  So the names in the
root are components of the pattern, too.  If they have no wildcards and brackets, they stand for
themselves, and the entry starts the scan in the directories below the root to which its components
lead.  Otherwise they can stand for other directories, or be no patterns at all.
-/

namespace Phrasebook
namespace Scan

open Glob

variable {tree : FileTree} {root : Path} {entry : String} {config : Config}
variable {patterns : List Pattern}

/-- The entries with wildcards in a valid configuration are patterns. -/
theorem isOk_parse_of_validate (valid : config.validate = .ok ())
    (listed : entry ∈ config.includes) (wild : hasWildcard entry = true) :
    (Pattern.parse entry).isOk = true := by
  unfold Config.validate at valid
  split at valid
  · cases valid
  · split at valid
    · cases valid
    · rename_i noneInvalid
      have here := List.findSome?_eq_none_iff.mp noneInvalid entry
        (List.mem_filter.mpr ⟨listed, wild⟩)
      cases read : Pattern.parse entry with
      | error error => simp [read] at here
      | ok pattern => rfl

section
variable (wild : hasWildcard entry = true)
include wild

/-- An entry is dropped if it cannot be expanded. -/
theorem warnings_eq_nil_iff : (includeStarts tree root entry).2 = [] ↔
    (expand tree (root.join ⟨entry⟩).text).isOk = true := by
  unfold includeStarts
  dsimp only
  rw [if_pos wild]
  cases expand tree (root.join ⟨entry⟩).text with
  | error error => simp [Except.isOk, Except.toBool]
  | ok paths => simp [Except.isOk, Except.toBool]

theorem exists_expand (kept : (includeStarts tree root entry).2 = []) :
    ∃ paths, expand tree (root.join ⟨entry⟩).text = .ok paths ∧
      (includeStarts tree root entry).1 = paths.filter tree.isDir := by
  have expanded := (warnings_eq_nil_iff wild).mp kept
  unfold includeStarts
  dsimp only
  rw [if_pos wild]
  cases found : expand tree (root.join ⟨entry⟩).text with
  | error error =>
      rw [found] at expanded
      cases expanded
  | ok paths => exact ⟨paths, rfl, rfl⟩

/-- A path with a wildcard has components. -/
theorem components_trailing_ne_nil (root : Path) :
    components (trailing (root.join ⟨entry⟩)) ≠ [] := by
  obtain ⟨c, inside, isWild⟩ := List.any_eq_true.mp wild
  have noSlash : c ≠ '/' := by
    rintro rfl
    cases isWild
  have member : c ∈ (root.join ⟨entry⟩).text.toList := by
    unfold Path.join
    split
    · exact inside
    · split
      · simp [inside]
      · simp [inside]
  refine components_ne_nil fun nothing => noSlash ?_
  simpa using List.dropWhile_eq_nil_iff.mp nothing c member

end

/-- An entry with wildcards is dropped if the path to which it is joined, or a component of that,
is no pattern.  Otherwise it starts a scan in the directories to which the components of the joined
path lead, from where the path begins.

If all characters of the root stand for themselves, a relative entry is dropped only for a component
of its own, and starts the scan in the directories to which its components lead from the root.  An
empty component, as behind a second slash, leads nowhere from the directory at hand. -/
theorem include_globs_start_below_literal_roots (tree : FileTree)
    (plain : tree.hasPlainNames = true) (root : Path) (rooted : tree.isDir root = true)
    (config : Config) (valid : config.validate = .ok ()) (entry : String)
    (listed : entry ∈ config.includes) (wild : hasWildcard entry = true) :
    ((includeStarts tree root entry).2 = [] ↔
      (Pattern.parse (root.join ⟨entry⟩).text).isOk = true ∧
        ∀ component ∈ components (trailing (root.join ⟨entry⟩)),
          (Pattern.parse component).isOk = true) ∧
    ((includeStarts tree root entry).2 = [] → ∀ patterns,
      (components (trailing (root.join ⟨entry⟩))).mapM Pattern.parse = .ok patterns →
      ExpandsToDirs tree (origin (root.join ⟨entry⟩)) [] patterns
        (includeStarts tree root entry).1) ∧
    (Literal root.text.toList → (Path.mk entry).isAbsolute = false →
      ((includeStarts tree root entry).2 = [] ↔
        ∀ component ∈ components entry.toList, (Pattern.parse component).isOk = true) ∧
      ∀ patterns, (components entry.toList).mapM Pattern.parse = .ok patterns →
        ExpandsToDirs tree root (components (trailing root)) patterns
          (includeStarts tree root entry).1) := by
  have dropped : (includeStarts tree root entry).2 = [] ↔
      (Pattern.parse (root.join ⟨entry⟩).text).isOk = true ∧
        ∀ component ∈ components (trailing (root.join ⟨entry⟩)),
          (Pattern.parse component).isOk = true :=
    (warnings_eq_nil_iff wild).trans isOk_expand
  refine ⟨dropped, ?_, ?_⟩
  · intro kept patterns parsed
    obtain ⟨paths, expanded, starts⟩ := exists_expand wild kept
    have nonempty := ne_nil_of_mapM_parse parsed (components_trailing_ne_nil wild root)
    rw [starts]
    exact (expands_of_expand plain parsed nonempty expanded).filter
  · intro literal relative
    obtain ⟨_, _, opens⟩ := FileTree.isDir_iff_opens.mp rooted
    have somewhere := opens.sound.somewhere
    have droppedBelow : (includeStarts tree root entry).2 = [] ↔
        ∀ component ∈ components entry.toList, (Pattern.parse component).isOk = true := by
      have ownNames : ∀ component ∈ components (trailing root),
          (Pattern.parse component).isOk = true := by
        intro component member
        rw [parse_of_literal (literal_of_mem_trailing literal member)]
        rfl
      rw [dropped, isOk_parse_join literal somewhere relative, components_join relative,
        List.forall_mem_append]
      exact ⟨fun kept => kept.2.2, fun names =>
        ⟨isOk_parse_of_validate valid listed wild, ownNames, names⟩⟩
    refine ⟨droppedBelow, ?_⟩
    intro patterns parsed
    have allOk : ((components entry.toList).mapM Pattern.parse).isOk = true := by
      rw [parsed]
      rfl
    obtain ⟨paths, expanded, starts⟩ :=
      exists_expand wild (droppedBelow.mpr (isOk_mapM_parse.mp allOk))
    have nonempty : entry.toList ≠ [] := by
      intro nothing
      rw [hasWildcard, nothing] at wild
      cases wild
    rw [starts]
    exact (expands_below plain literal somewhere relative parsed
      (ne_nil_of_mapM_parse parsed (components_ne_nil nonempty)) expanded).filter

/-- A project with sources of routes, two of them with brackets in their names. -/
def routedProject : FileTree :=
  let sources : Entry := .dir [("src", .dir [("a.ts", .file (.text ""))])]
  ⟨.dir [("project", .dir [("app", .dir
    [("[draft", sources), ("[locale]", sources), ("web", sources)])])], ["project"]⟩

/-- The sources of a route without brackets in its name are where a scan starts. -/
theorem sources_of_web_are_scanned :
    let config : Config := { includes := ["s*"] }
    routedProject.hasPlainNames = true ∧ routedProject.isDir ⟨"app/web"⟩ = true ∧
      config.validate = .ok () ∧ "s*" ∈ config.includes ∧ hasWildcard "s*" = true ∧
      (includeStarts routedProject ⟨"app/web"⟩ "s*").2 = [] ∧
      ∃ start ∈ (includeStarts routedProject ⟨"app/web"⟩ "s*").1,
        routedProject.sameNode start ⟨"app/web/src"⟩ = true := by
  intro config
  have plain : routedProject.hasPlainNames = true := by decide +kernel
  have rooted : routedProject.isDir ⟨"app/web"⟩ = true := by decide +kernel
  have valid : config.validate = .ok () := by decide +kernel
  have listed : "s*" ∈ config.includes := List.mem_singleton.mpr rfl
  have wild : hasWildcard "s*" = true := by decide +kernel
  obtain ⟨_, _, below⟩ := include_globs_start_below_literal_roots routedProject plain ⟨"app/web"⟩
    rooted config valid "s*" listed wild
  obtain ⟨kept, starts⟩ := below (by decide +kernel) (by decide +kernel)
  have fits : Fits [⟨[.char 's', .anySequence]⟩] ["src"] :=
    .step rfl ⟨by decide +kernel, .inl (by decide +kernel)⟩ .done
  obtain ⟨start, member, _, _, same⟩ := (starts _ (by decide +kernel)).complete ["src"] fits
    (fun _ => by decide +kernel) (by decide +kernel)
  exact ⟨plain, rooted, valid, listed, wild, kept.mpr (by decide +kernel), start, member, same⟩

/-- A route with a bracketed name is taken for another one, and one with an open bracket for no
pattern. -/
theorem sources_of_bracketed_routes_are_not_scanned :
    let config : Config := { includes := ["s*"] }
    config.validate = .ok () ∧ hasWildcard "s*" = true ∧
      (∃ pattern, Pattern.parse "s*" = .ok pattern ∧ pattern.matchesText "src" = true) ∧
      (routedProject.isDir ⟨"app/[locale]/src"⟩ = true ∧
        (includeStarts routedProject ⟨"app/[locale]"⟩ "s*").1 = [] ∧
        (run routedProject ⟨⟨"app/[locale]"⟩, config.includes, [], true⟩).files = []) ∧
      routedProject.isDir ⟨"app/[draft/src"⟩ = true ∧
        (includeStarts routedProject ⟨"app/[draft"⟩ "s*").2 =
          [.invalidInclude "s*" ⟨4, .invalidRange⟩] := by
  refine ⟨by decide +kernel, by decide +kernel, ⟨⟨[.char 's', .anySequence]⟩, ?_, ?_⟩, ?_, ?_⟩
  · decide +kernel
  · decide +kernel
  · decide +kernel
  · decide +kernel

end Scan
end Phrasebook
