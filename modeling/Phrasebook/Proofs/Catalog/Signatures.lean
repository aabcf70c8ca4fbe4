import Phrasebook.Proofs.Catalog.Content

/-!
# The bucket of signatures

The bucket of a run lists the recorded signatures in order of first occurrence, and it
depends on nothing else.  Recording signatures and registering keys do not see each other,
so a run without the recording makes the same contents and the same reports.
-/

namespace Phrasebook.Catalog

open Json KeyPath

variable {value : Value} {signatures : List String} {base : String} {store : LocaleStore}
variable {expansions : List (String × List String)} {operations : List Operation}

/-- A bucket has each signature once, where it occurred first. -/
theorem bucketEntries_eq_map (signatures : List String) :
    bucketEntries signatures =
      signatures.eraseDups.map fun signature => (signature, .string signature) := by
  induction signatures using List.reverseRecOn with
  | nil => rfl
  | append_singleton earlier signature ih =>
      rw [List.eraseDups_append, List.map_append, ← ih]
      by_cases known : signature ∈ earlier
      · have nothing : [signature].removeAll earlier = [] := by
          simp [List.removeAll, known]
        rw [bucketEntries_of_mem known, nothing]
        exact (List.append_nil _).symm
      · have last : [signature].removeAll earlier = [signature] := by
          simp [List.removeAll, known]
        have fresh : signature ∉ Table.names (bucketEntries earlier) := by
          rw [← Table.get?_eq_none_iff, get?_bucketEntries, if_neg known]
        rw [bucketEntries_append, Table.put_of_not_mem fresh, last]
        rfl

/-- An operation records a signature if it is a call without a known expansion. -/
theorem mem_recordedSignatures {signature : String} :
    signature ∈ recordedSignatures expansions operations ↔
      .unknown signature ∈ operations ∧ Table.get? expansions signature = none := by
  rw [recordedSignatures, List.mem_flatMap]
  constructor
  · rintro ⟨operation, member, records⟩
    cases operation with
    | key key => cases records
    | unknown other =>
        cases known : Table.get? expansions other with
        | some keys =>
            simp only [Operation.signatures, known] at records
            cases records
        | none =>
            simp only [Operation.signatures, known, List.mem_singleton] at records
            rw [records]
            exact ⟨member, known⟩
  · rintro ⟨member, unexpanded⟩
    refine ⟨.unknown signature, member, ?_⟩
    simp [Operation.signatures, unexpanded]

/-- An object without its bucket. -/
def withoutBucket (value : Value) : Value :=
  match value with
  | .object members => .object (Table.erase members unknownBucket)
  | other => other

/-- The operations but for those that record a signature. -/
def registrations (expansions : List (String × List String)) (operations : List Operation) :
    List Operation :=
  operations.filter fun operation => operation.signatures expansions = []

theorem Mapping.fresh {members : List (String × Value)} (mapping : Mapping (.object members)) :
    unknownBucket ∉ Table.names members := by
  obtain ⟨_, ⟨rfl⟩, named⟩ := mapping
  intro member
  exact (named unknownBucket member).2 rfl

/-- An output is its bucket followed by its content. -/
theorem withoutBucket_withBucket (mapping : Mapping value) (signatures : List String) :
    withoutBucket (withBucket signatures value) = value := by
  obtain ⟨members, rfl, _⟩ := id mapping
  by_cases empty : signatures = []
  · rw [empty, withBucket_nil, withoutBucket, Table.erase_of_not_mem mapping.fresh]
  · rw [withBucket_object empty, withoutBucket, Table.erase_cons_self _ mapping.fresh]

/-- The bucket of an output comes first, and it is there if anything was recorded. -/
theorem members_withBucket (mapping : Mapping value) (signatures : List String) :
    ∃ members, withBucket signatures value = .object members ∧
      (unknownBucket ∈ Table.names members ↔ signatures ≠ []) ∧
      (unknownBucket ∈ Table.names members →
        members = (unknownBucket, .object (bucketEntries signatures)) ::
          Table.erase members unknownBucket) := by
  obtain ⟨members, rfl, _⟩ := id mapping
  by_cases empty : signatures = []
  · refine ⟨members, by rw [empty, withBucket_nil], ?_, ?_⟩
    · simp [mapping.fresh, empty]
    · intro present
      exact absurd present mapping.fresh
  · refine ⟨_, withBucket_object empty members, ?_, ?_⟩
    · simp [empty]
    · intro _
      rw [Table.erase_cons_self _ mapping.fresh]

/-- An operation that records a signature registers no key. -/
theorem registeredKeys_registrations (expansions : List (String × List String))
    (operations : List Operation) :
    registeredKeys expansions (registrations expansions operations) =
      registeredKeys expansions operations := by
  induction operations with
  | nil => rfl
  | cons operation rest ih =>
      simp only [registeredKeys, registrations, List.filter_cons, List.flatMap_cons] at ih ⊢
      split
      · rw [List.flatMap_cons, ih]
      · rename_i records
        cases operation with
        | key key => exact absurd (by rfl) records
        | unknown signature =>
            cases known : Table.get? expansions signature with
            | some keys => simp [Operation.signatures, known] at records
            | none => simpa [Operation.keys, known] using ih

theorem recordedSignatures_registrations (expansions : List (String × List String))
    (operations : List Operation) :
    recordedSignatures expansions (registrations expansions operations) = [] := by
  rw [recordedSignatures, List.flatMap_eq_nil_iff]
  intro operation member
  simpa using (List.mem_filter.mp member).2

theorem content_registrations (locale : String) :
    content store base expansions (registrations expansions operations) locale =
      content store base expansions operations locale := by
  rw [content, content, acceptedKeys, acceptedKeys, registeredKeys_registrations]

theorem report_finalLocale_registrations (locale : String) (input : Value) :
    (finalLocale store base expansions (registrations expansions operations) locale input).report =
      (finalLocale store base expansions operations locale input).report := by
  simp only [finalLocale, LocaleMerge.bucketed, registeredKeys_registrations]

/-- Every output begins with the bucket of the signatures recorded, if there are any: the
same one in every locale, each signature once, in order of first occurrence.  What is
behind it, and the reports, are those of the run that records nothing. -/
theorem bucket_is_exact (store : LocaleStore) (base : String)
    (expansions : List (String × List String)) (operations : List Operation) :
    (∀ entry ∈ ((ofStore store base expansions).run operations).outputs,
      ∃ members, entry.2 = .object members ∧
        (unknownBucket ∈ Table.names members ↔
          ∃ signature, .unknown signature ∈ operations ∧
            Table.get? expansions signature = none) ∧
        (unknownBucket ∈ Table.names members →
          members =
            (unknownBucket,
              .object ((recordedSignatures expansions operations).eraseDups.map
                fun signature => (signature, .string signature))) ::
              Table.erase members unknownBucket)) ∧
      ((ofStore store base expansions).run (registrations expansions operations)).outputs =
        ((ofStore store base expansions).run operations).outputs.map
          (fun entry => (entry.1, withoutBucket entry.2)) ∧
      ((ofStore store base expansions).run (registrations expansions operations)).untranslated =
        ((ofStore store base expansions).run operations).untranslated := by
  have loaded (entry : String × Value) (member : entry ∈ store.locales) :
      store.get? entry.1 = some entry.2 :=
    Table.get?_of_mem store.increasing.nodup member
  refine ⟨?_, ?_, ?_⟩
  · rintro ⟨locale, output⟩ member
    rw [outputs_run] at member
    obtain ⟨entry, entryMember, equal⟩ := List.mem_map.mp member
    obtain ⟨rfl, rfl⟩ := Prod.mk.inj equal
    rw [output_finalLocale (loaded entry entryMember)]
    obtain ⟨members, equal, present, first⟩ :=
      members_withBucket mapping_content (recordedSignatures expansions operations)
    refine ⟨members, equal, ?_, ?_⟩
    · rw [present, ← List.isEmpty_eq_false_iff, List.isEmpty_eq_false_iff_exists_mem]
      exact exists_congr fun signature => mem_recordedSignatures
    · rwa [← bucketEntries_eq_map]
  · rw [outputs_run, outputs_run, List.map_map]
    apply List.map_congr_left
    intro entry member
    have here := loaded entry member
    rw [Function.comp_apply, output_finalLocale here, output_finalLocale here,
      withoutBucket_withBucket mapping_content, recordedSignatures_registrations, withBucket_nil,
      content_registrations]
  · simp only [untranslated, locales_run, List.filterMap_map, Function.comp_def,
      report_finalLocale_registrations, name_finalLocale]

/-- Operations with two calls that record their text, one of them repeated. -/
def pageOperations : List Operation :=
  [.unknown "t(x)", .key "title", .unknown "t(y)", .unknown "t(x)", .unknown "t(known)"]

theorem bucket_of_page :
    ∃ entry ∈ ((ofStore (.ofLocales [("en", .object []), ("fr", .object [])]) "en"
        [("t(known)", ["body"])]).run pageOperations).outputs,
      entry.1 = "fr" ∧ ∃ content, entry.2 =
        .object ((unknownBucket,
          .object [("t(x)", .string "t(x)"), ("t(y)", .string "t(y)")]) :: content) := by
  have named : "fr" ∈ Table.names ((ofStore (.ofLocales [("en", .object []), ("fr", .object [])])
      "en" [("t(known)", ["body"])]).run pageOperations).outputs := by
    rw [names_outputs_run]
    decide
  obtain ⟨entry, member, french⟩ := List.mem_map.mp named
  obtain ⟨members, equal, present, first⟩ :=
    (bucket_is_exact (.ofLocales [("en", .object []), ("fr", .object [])]) "en"
      [("t(known)", ["body"])] pageOperations).1 entry member
  have recorded : unknownBucket ∈ Table.names members :=
    present.mpr ⟨"t(x)", by simp [pageOperations], by decide⟩
  refine ⟨entry, member, french, Table.erase members unknownBucket, ?_⟩
  exact equal.trans (congrArg Value.object (first recorded))

end Phrasebook.Catalog
