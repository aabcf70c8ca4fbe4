import Phrasebook.Proofs.KeyPath.Segments

/-!
# The normal form of a key

A key is as good as its segments with points between them.  Writing does not see a difference,
and reading sees one only where a member is named by a whole key.
-/

namespace Phrasebook.KeyPath

open Json

variable {container value : Value} {key : String} {parts : List String}

/-- The characters between segments, in a list. -/
def separators : List Char :=
  ['.', '[', ']']

/-- A text that can be a segment of a key. -/
structure IsSegment (text : String) : Prop where
  nonempty : text ≠ ""
  clean : ∀ c ∈ text.toList, c ∉ separators

/-- The segments of a key with points between them. -/
def normalForm (key : String) : String :=
  ".".intercalate (segments key)

theorem isSeparator_iff {c : Char} : isSeparator c = true ↔ c ∈ separators := by
  simp [isSeparator, separators, or_assoc]

theorem isSegment_iff {text : String} :
    IsSegment text ↔ text.toList ≠ [] ∧ ∀ c ∈ text.toList, isSeparator c = false := by
  have clean : (∀ c ∈ text.toList, c ∉ separators) ↔
      ∀ c ∈ text.toList, isSeparator c = false := by
    simp only [← isSeparator_iff, Bool.not_eq_true]
  rw [← clean, ne_eq, String.toList_eq_nil_iff]
  exact ⟨fun segment => ⟨segment.nonempty, segment.clean⟩, fun ⟨nonempty, clean⟩ =>
    ⟨nonempty, clean⟩⟩

theorem isSegment_of_mem {segment : String} (member : segment ∈ segments key) :
    IsSegment segment := by
  obtain ⟨run, cut, rfl⟩ := List.mem_map.mp member
  rw [isSegment_iff, String.toList_ofList]
  exact Text.mem_runs cut

/-- A segment is a key with one segment. -/
theorem segments_of_isSegment (segment : IsSegment key) : segments key = [key] := by
  obtain ⟨nonempty, clean⟩ := isSegment_iff.mp segment
  rw [segments, Text.runs_of_clean nonempty clean, List.map_singleton, String.ofList_toList]

/-- Segments with points between them are cut into these segments. -/
theorem segments_intercalate (each : ∀ part ∈ parts, IsSegment part) :
    segments (".".intercalate parts) = parts := by
  have clean : ∀ run ∈ parts.map String.toList,
      run ≠ [] ∧ ∀ c ∈ run, isSeparator c = false := by
    intro run member
    obtain ⟨part, listed, rfl⟩ := List.mem_map.mp member
    exact isSegment_iff.mp (each part listed)
  have point : isSeparator '.' = true := rfl
  rw [segments, String.toList_intercalate, show ".".toList = ['.'] from rfl,
    Text.runs_intercalate point clean, List.map_map]
  simp

theorem segments_normalForm (key : String) : segments (normalForm key) = segments key :=
  segments_intercalate fun _ member => isSegment_of_mem member

/-- The segments hold everything but the separators. -/
theorem join_segments (key : String) :
    String.join (segments key) = String.ofList (key.toList.filter (· ∉ separators)) := by
  have flat : (String.join (segments key)).toList =
      (Text.runs isSeparator key.toList).flatten := by
    rw [String.toList_join, segments, List.flatMap_map]
    simp
  rw [← String.toList_inj, flat, Text.flatten_runs, String.toList_ofList]
  apply List.filter_congr
  intro c _
  simp [← isSeparator_iff]

/-- What a key leads to is what its segments lead to, if no truthy member is named by a text
with separators. -/
theorem get?_eq_follow?_of_named (present : segments key ≠ [])
    (named : ∀ name value, container.member? name = some value → value.isTruthy = true →
      ∀ c ∈ name.toList, c ∉ separators) :
    get? container key = follow? container (segments key) := by
  apply get?_eq_follow? _ present
  cases direct : direct? container key with
  | none => exact .inl rfl
  | some value =>
      obtain ⟨held, truthy⟩ := Option.filter_eq_some_iff.mp direct
      exact .inr (segments_of_isSegment ⟨ne_empty_of_segments present, named key value held truthy⟩)

/-- The segments of a key can stand as segments and are the key without its separators.  Segments
with points between them are the segments of this key.  So writing at a key is writing at its
normal form, and reading too, if the key has a segment and no truthy member is named by a text
with separators. -/
theorem keys_have_a_normal_form (key : String) (parts : List String) (container value : Value) :
    ((∀ segment ∈ segments key, IsSegment segment) ∧
        String.join (segments key) =
          String.ofList (key.toList.filter (· ∉ separators))) ∧
      ((∀ part ∈ parts, IsSegment part) → segments (".".intercalate parts) = parts) ∧
      set container (normalForm key) value = set container key value ∧
      (segments key ≠ [] →
        (∀ name value, container.member? name = some value → value.isTruthy = true →
          ∀ c ∈ name.toList, c ∉ separators) →
        get? container (normalForm key) = get? container key) := by
  have same := segments_normalForm key
  refine ⟨⟨fun _ member => isSegment_of_mem member, join_segments key⟩, segments_intercalate, ?_, ?_⟩
  · rw [set, set, same]
  · intro present named
    rw [get?_eq_follow?_of_named present named,
      get?_eq_follow?_of_named (same ▸ present) named, same]

/-- An object with a truthy member that is named by its own segment, and one that counts as none
though its name is a whole key. -/
def pageTitle : Value :=
  .object [("home", .array [.object [("title", .string "Home")]]), ("home.[0].title", .string "")]

theorem page_title_has_a_normal_form :
    let key := "[home]..0].title"
    normalForm key = "home.0.title" ∧
      segments (".".intercalate ["home", "0", "title"]) = ["home", "0", "title"] ∧
      set pageTitle "home.0.title" (.bool true) = set pageTitle key (.bool true) ∧
      (get? pageTitle "home.0.title").isSome = true ∧
      get? pageTitle "home.0.title" = get? pageTitle key := by
  intro key
  have form : normalForm key = "home.0.title" := by decide +kernel
  have path : segments key = ["home", "0", "title"] := by decide +kernel
  have parts : ∀ part ∈ ["home", "0", "title"], IsSegment part := by
    intro part member
    exact isSegment_of_mem (path ▸ member)
  have present : segments key ≠ [] := by simp [path]
  have named : ∀ name value, pageTitle.member? name = some value → value.isTruthy = true →
      ∀ c ∈ name.toList, c ∉ separators := by
    intro name value held truthy
    have member := Table.mem_of_get? (show Table.get? _ name = some value from held)
    simp only [List.mem_cons, List.not_mem_nil, or_false, Prod.mk.injEq] at member
    rcases member with ⟨rfl, rfl⟩ | ⟨rfl, rfl⟩
    · exact (parts "home" List.mem_cons_self).clean
    · cases truthy
  obtain ⟨_, cut, sameSet, sameGet⟩ :=
    keys_have_a_normal_form key ["home", "0", "title"] pageTitle (.bool true)
  rw [form] at sameSet sameGet
  exact ⟨form, cut parts, sameSet, by decide +kernel, sameGet present named⟩

end Phrasebook.KeyPath
