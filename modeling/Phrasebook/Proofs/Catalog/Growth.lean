import Phrasebook.Proofs.Catalog.Provenance
import Phrasebook.Proofs.Catalog.Signatures

/-!
# Outputs only grow

Whatever an operation does, what an output held before is kept: a translation is there at
every key that had one, containers keep their kind, arrays get no shorter, and objects keep
their members in their order.  Writing alone does not see to that.  It comes from merging
only where nothing counts as a translation, and from outputs in which no member stands in
the way of a key.
-/

namespace Phrasebook.Catalog

open Json KeyPath

variable {before after : Value} {key : String} {base : String} {store : LocaleStore}
variable {expansions : List (String × List String)}

theorem kept_mergeAll (output : Value) (value : String → Value) (keys : List String)
    (position : List Slot) :
    Kept (valueAt output position) (valueAt (mergeAll output value keys) position) := by
  induction keys generalizing output with
  | nil => exact Kept.refl _
  | cons key rest ih =>
      rw [mergeAll_cons]
      exact (kept_merge output (segments key) (value key) position).trans (ih _)

/-- The content of a longer run is what merging its later keys makes of the content. -/
theorem content_append (operations more : List Operation) (locale : String) :
    content store base expansions (operations ++ more) locale =
      mergeAll (content store base expansions operations locale)
        (store.fallback base locale) (acceptedKeys expansions more) := by
  rw [content, content, acceptedKeys, registeredKeys_append, List.filter_append, mergeAll_append]
  rfl

theorem kept_content (operations more : List Operation) (locale : String)
    (position : List Slot) :
    Kept (valueAt (content store base expansions operations locale) position)
      (valueAt (content store base expansions (operations ++ more) locale) position) := by
  rw [content_append]
  exact kept_mergeAll _ _ _ position

theorem kept_bucketEntries (signatures more : List String) (position : List Slot) :
    Kept (valueAt (.object (bucketEntries signatures)) position)
      (valueAt (.object (bucketEntries (signatures ++ more))) position) := by
  cases position with
  | nil =>
      have names : (Table.names (bucketEntries signatures)).Sublist
          (Table.names (bucketEntries (signatures ++ more))) := by
        rw [bucketEntries_eq_map, bucketEntries_eq_map, List.eraseDups_append, List.map_append,
          Table.names, Table.names, List.map_append]
        exact List.sublist_append_left ..
      exact .of_names names
  | cons slot rest =>
      rw [valueAt_cons, valueAt_cons]
      cases slot with
      | item i => exact Kept.refl _
      | member name =>
          simp only [inSlot, get?_bucketEntries, List.mem_append]
          by_cases known : name ∈ signatures
          · simp only [known, true_or, if_true]
            exact Kept.refl _
          · rw [if_neg known, Option.getD_none, valueAt_null]
            exact Kept.of_falsy (by decide) _

/-- An output is kept when its content is and signatures are recorded beside it. -/
theorem kept_withBucket (mapping : Mapping before) (mappingAfter : Mapping after)
    (kept : ∀ position, Kept (valueAt before position) (valueAt after position))
    (signatures more : List String) (position : List Slot) :
    Kept (valueAt (withBucket signatures before) position)
      (valueAt (withBucket (signatures ++ more) after) position) := by
  cases position with
  | nil =>
      obtain ⟨members, rfl, _⟩ := mapping
      obtain ⟨later, rfl, _⟩ := mappingAfter
      obtain ⟨_, equal, names⟩ := (kept []).object members rfl
      obtain rfl := Value.object.inj equal
      simp only [valueAt_nil]
      by_cases empty : signatures = []
      · rw [empty, withBucket_nil, List.nil_append]
        by_cases none : more = []
        · rw [none, withBucket_nil]
          exact kept []
        · rw [withBucket_object none]
          exact .of_names (names.cons _)
      · rw [withBucket_object empty, withBucket_object (by simp [empty])]
        exact .of_names (names.cons_cons _)
  | cons slot rest =>
      rw [valueAt_cons, valueAt_cons, inSlot_withBucket mapping, inSlot_withBucket mappingAfter]
      by_cases bucket : slot = .member unknownBucket
      · rw [if_pos bucket, if_pos bucket]
        by_cases empty : signatures = []
        · rw [if_pos empty, valueAt_null]
          exact Kept.of_falsy (by decide) _
        · rw [if_neg empty, if_neg (by simp [empty])]
          exact kept_bucketEntries signatures more rest
      · rw [if_neg bucket, if_neg bucket]
        exact kept (slot :: rest)

/-- Where no member stands in the way of a key, a key keeps a translation when the value
grows. -/
theorem isSome_truthy?_of_grows (plain : Plain before) (plainAfter : Plain after)
    (grows : Grows before after) (has : (truthy? before key).isSome) :
    (truthy? after key).isSome := by
  by_cases present : segments key = []
  · rw [truthy?, get?_of_plain_of_nil plain present] at has
    cases has
  · rw [isSome_truthy?_iff plain present] at has
    rw [isSome_truthy?_iff plainAfter present]
    exact (grows (segments key)).truthy has

/-- An operation after a run leaves in every output a translation of each key that had one,
and keeps what is at every position: an array stays one and gets no shorter, and an object
stays one and loses no member, nor do the members change their order. -/
theorem outputs_only_grow {operations : List Operation} {locale : String}
    (present : Table.get? ((ofStore store base expansions).run operations).outputs locale =
      some before)
    (operation : Operation) :
    ∃ after,
      Table.get? (((ofStore store base expansions).run operations).apply operation).outputs
          locale = some after ∧
        (∀ key, (truthy? before key).isSome → (truthy? after key).isSome) ∧
        ∀ position, Kept (valueAt before position) (valueAt after position) := by
  rw [get?_outputs_run] at present
  obtain ⟨input, loaded, rfl⟩ := Option.map_eq_some_iff.mp present
  have signatures : recordedSignatures expansions (operations ++ [operation]) =
      recordedSignatures expansions operations ++ operation.signatures expansions := by
    simp [recordedSignatures]
  have kept := kept_withBucket mapping_content mapping_content
    (@kept_content base store expansions operations [operation] locale)
    (recordedSignatures expansions operations) (operation.signatures expansions)
  refine ⟨_, ?_, ?_, kept⟩
  · rw [← run_append_singleton, get?_outputs_run, loaded, signatures]
    rfl
  · intro key has
    exact isSome_truthy?_of_grows (plain_withBucket mapping_content _)
      (plain_withBucket mapping_content _) (grows_of_kept kept) has

/-- A list of steps is in the output, behind a bucket, and a longer one is merged into it. -/
theorem steps_only_grow :
    let merged := (ofStore titleStore "en" []).run [.unknown "t(x)", .key "title", .key "steps"]
    ∃ before after, Table.get? merged.outputs "en" = some before ∧
      Table.get? (merged.apply (.key "steps[1].text")).outputs "en" = some after ∧
      (truthy? before "steps[0]").isSome ∧ (truthy? after "steps[0]").isSome ∧
      Kept (valueAt before [.member "steps"]) (valueAt after [.member "steps"]) := by
  intro merged
  have loaded : (Table.get? merged.outputs "en").isSome := by decide +kernel
  obtain ⟨before, present⟩ := Option.isSome_iff_exists.mp loaded
  obtain ⟨after, later, keys, kept⟩ := outputs_only_grow present (.key "steps[1].text")
  have one : ((Table.get? merged.outputs "en").bind fun output =>
      truthy? output "steps[0]").isSome := by
    decide +kernel
  rw [present, Option.bind_some] at one
  exact ⟨before, after, present, later, one, keys "steps[0]" one, kept [.member "steps"]⟩

end Phrasebook.Catalog
