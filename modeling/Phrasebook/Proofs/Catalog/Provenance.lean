import Phrasebook.Proofs.Catalog.Content
import Phrasebook.Proofs.Catalog.Outcomes
import Phrasebook.Proofs.KeyPath.Position

/-!
# Provenance

Outputs and reports are made of nothing but the values that keys were given.  Every leaf
of an output lies at or under the place of a registered key, where the key's own value has
it, and every leaf of a report comes in the same way from a key that was listed.
-/

namespace Phrasebook.Catalog

open Json KeyPath

variable {store : LocaleStore} {base locale key : String} {input : Value}
variable {expansions : List (String × List String)} {operations : List Operation}
variable {keys : List String} {position back : List Slot}

/-- In a tree that some of the keys are written into, every leaf comes from one of them. -/
theorem leaf_of_written {tree : List String → Value}
    {takes : List String → String → Prop} [DecidableRel takes] {value : String → Value}
    (start : tree [] = .object [])
    (step : ∀ earlier key, tree (earlier ++ [key]) =
      if takes earlier key then write (tree earlier) (segments key) (value key)
      else tree earlier)
    (keys : List String) (leaf : IsLeaf (valueAt (tree keys) position)) :
    ∃ first key second, keys = first ++ key :: second ∧ takes first key ∧
      ∃ back, Along (segments key) position back ∧
        valueAt (tree keys) position = valueAt (value key) back := by
  induction keys using List.reverseRecOn with
  | nil =>
      rw [start] at leaf
      exact absurd leaf (not_isLeaf_of_empty (.inr rfl) position)
  | append_singleton earlier last ih =>
      -- A leaf that the last key did not bring was there before.
      have older (same : valueAt (tree (earlier ++ [last])) position =
          valueAt (tree earlier) position) :
          ∃ first key second, earlier ++ [last] = first ++ key :: second ∧ takes first key ∧
            ∃ back, Along (segments key) position back ∧
              valueAt (tree (earlier ++ [last])) position = valueAt (value key) back := by
        rw [same] at leaf ⊢
        obtain ⟨first, key, second, rfl, taken, source⟩ := ih leaf
        exact ⟨first, key, second ++ [last], by simp, taken, source⟩
      by_cases takesLast : takes earlier last
      · have written := step earlier last
        rw [if_pos takesLast] at written
        rw [written] at leaf
        rcases valueAt_write leaf with same | source
        · exact older (by rw [written, same])
        · refine ⟨earlier, last, [], rfl, takesLast, ?_⟩
          rwa [written]
      · exact older (by rw [step, if_neg takesLast])

/-- A leaf of an output comes from a key that the locale got. -/
theorem leaf_of_output (loaded : store.get? locale = some input) (keys : List String)
    (leaf : IsLeaf (valueAt (localeAfter store base keys locale input).output position)) :
    ∃ first key second, keys = first ++ key :: second ∧
      locale ∈ (outcomeAfter store base first key).added ∧
      ∃ back, Along (segments key) position back ∧
        valueAt (localeAfter store base keys locale input).output position =
          valueAt (store.fallback base locale key) back := by
  apply leaf_of_written _ _ keys leaf
  · rfl
  · exact output_localeAfter_append loaded

/-- A leaf of a report comes from a key that was listed. -/
theorem leaf_of_report (loaded : store.get? locale = some input) (keys : List String)
    {report : Value} (held : (localeAfter store base keys locale input).report = some report)
    (leaf : IsLeaf (valueAt report position)) :
    ∃ first key second, keys = first ++ key :: second ∧
      locale ∈ (outcomeAfter store base first key).untranslated ∧
      ∃ back, Along (segments key) position back ∧
        valueAt report position = valueAt (store.fallback base locale key) back := by
  have same : reportAfter store base keys locale input = report := by
    rw [reportAfter, held, Option.getD_some]
  rw [← same] at leaf ⊢
  apply @leaf_of_written position (fun keys => reportAfter store base keys locale input) _ _ _
    _ _ keys leaf
  · rfl
  · exact reportAfter_append loaded

/-- What a listed key was given is, leaf by leaf, what the base language has for it, or the
text of the key. -/
theorem same_source (loaded : store.get? locale = some input)
    (lacks : (LocaleMerge.start locale input).lacks base (store.baseValue? base key) key = true)
    (leaf : IsLeaf (valueAt (store.fallback base locale key) back)) :
    (valueAt (store.fallback base locale key) back).same
      (valueAt ((store.baseValue? base key).getD (.string key)) back) = true := by
  have own : (store.get? locale).bind (fun input => truthy? input key) = truthy? input key := by
    rw [loaded, Option.bind_some]
  rw [LocaleMerge.lacks, Bool.and_eq_true] at lacks
  rw [LocaleStore.fallback, own] at leaf ⊢
  cases translated : truthy? input key with
  | none =>
      rw [translated, Option.none_or] at leaf
      exact same_of_scalar leaf.1
  | some value =>
      rw [translated] at leaf
      have shares := lacks.2
      dsimp only [LocaleMerge.start] at shares
      rw [translated] at shares
      obtain ⟨shared, found, same⟩ := (Option.any_eq_true _ _).mp shares
      rw [found]
      exact same_valueAt same leaf

/-- The base language is never listed. -/
theorem ne_base_of_untranslated {earlier : List String}
    (listed : locale ∈ (outcomeAfter store base earlier key).untranslated) : locale ≠ base := by
  obtain ⟨_, input, _, _, lacks⟩ := mem_untranslated.mp listed
  rw [LocaleMerge.lacks, Bool.and_eq_true, decide_eq_true_eq] at lacks
  exact lacks.1

/-- There is a report only if a key was listed. -/
theorem listed_of_report (loaded : store.get? locale = some input) (keys : List String)
    (held : (localeAfter store base keys locale input).report ≠ none) :
    ∃ first key second, keys = first ++ key :: second ∧
      locale ∈ (outcomeAfter store base first key).untranslated := by
  induction keys using List.reverseRecOn with
  | nil => exact absurd rfl held
  | append_singleton earlier last ih =>
      by_cases listed : locale ∈ (outcomeAfter store base earlier last).untranslated
      · exact ⟨earlier, last, [], rfl, listed⟩
      · rw [report_localeAfter_append loaded, if_neg listed] at held
        obtain ⟨first, key, second, rfl, taken⟩ := ih held
        exact ⟨first, key, second ++ [last], by simp, taken⟩

/-- The output of a locale at the end of a run, and its report. -/
theorem outputs_eq_localeAfter {entry : String × Value}
    (member : entry ∈ ((ofStore store base expansions).run operations).outputs) :
    ∃ input, store.get? entry.1 = some input ∧
      entry.2 = withBucket (recordedSignatures expansions operations)
        (localeAfter store base (registeredKeys expansions operations) entry.1 input).output := by
  have found := get?_of_mem_outputs member
  rw [get?_outputs_finalLocale] at found
  obtain ⟨input, loaded, equal⟩ := Option.map_eq_some_iff.mp found
  exact ⟨input, loaded, equal.symm⟩

theorem untranslated_eq_localeAfter {entry : String × Value}
    (member : entry ∈ ((ofStore store base expansions).run operations).untranslated) :
    ∃ input, store.get? entry.1 = some input ∧
      (localeAfter store base (registeredKeys expansions operations) entry.1 input).report =
        some entry.2 := by
  rw [untranslated, locales_run] at member
  obtain ⟨final, listed, equal⟩ := List.mem_filterMap.mp member
  obtain ⟨⟨name, input⟩, stored, rfl⟩ := List.mem_map.mp listed
  obtain ⟨report, held, rfl⟩ := Option.map_eq_some_iff.mp equal
  rw [name_finalLocale]
  exact ⟨input, Table.get?_of_mem store.increasing.nodup stored, held⟩

/-- The slots of an output are those of the content, but for the one of the bucket. -/
theorem inSlot_withBucket {value : Value} (mapping : Mapping value) (signatures : List String)
    (slot : Slot) :
    inSlot (withBucket signatures value) slot =
      if slot = .member unknownBucket then
        if signatures = [] then .null else .object (bucketEntries signatures)
      else inSlot value slot := by
  obtain ⟨members, rfl, named⟩ := mapping
  have fresh : Table.get? members unknownBucket = none :=
    Table.get?_eq_none_iff.mpr fun member => (named _ member).2 rfl
  by_cases empty : signatures = []
  · rw [empty, withBucket_nil]
    split
    · rename_i bucket
      rw [bucket, inSlot, fresh]
      rfl
    · rfl
  · rw [withBucket_object empty, if_neg empty]
    cases slot with
    | item i => rfl
    | member name =>
        simp only [inSlot, Table.get?_cons, Slot.member.injEq, eq_comm (a := unknownBucket)]
        split
        · rfl
        · rfl

/-- Outside the bucket, a leaf of an output is a leaf of the content. -/
theorem valueAt_withBucket {value : Value} (mapping : Mapping value) (signatures : List String)
    (outside : position.head? ≠ some (.member unknownBucket))
    (leaf : IsLeaf (valueAt (withBucket signatures value) position)) :
    valueAt (withBucket signatures value) position = valueAt value position := by
  cases position with
  | nil =>
      obtain ⟨members, rfl, _⟩ := mapping
      by_cases empty : signatures = []
      · rw [empty, withBucket_nil]
      · rw [withBucket_object empty] at leaf
        cases leaf.1
  | cons slot rest =>
      have elsewhere : slot ≠ .member unknownBucket := fun equal => outside (by rw [equal]; rfl)
      rw [valueAt_cons, valueAt_cons, inSlot_withBucket mapping, if_neg elsewhere]

/-- Every leaf of an output outside the bucket lies at or under the place of a registered
key, and the key's own value has it there.  Every leaf of a report lies at or under the
place of a key that was listed as untranslated, and the base language's value of the key,
or else its text, has an equal one there.  The base language has no report. -/
theorem every_leaf_has_a_source (store : LocaleStore) (base : String)
    (expansions : List (String × List String)) (operations : List Operation) :
    (∀ entry ∈ ((ofStore store base expansions).run operations).outputs,
      ∀ position, IsLeaf (valueAt entry.2 position) →
        position.head? ≠ some (.member unknownBucket) →
        ∃ key ∈ registeredKeys expansions operations, accepts key = true ∧
          ∃ back, Under entry.2 (segments key) position back ∧
            valueAt entry.2 position = valueAt (store.fallback base entry.1 key) back) ∧
      (∀ entry ∈ ((ofStore store base expansions).run operations).untranslated,
        ∀ position, IsLeaf (valueAt entry.2 position) →
          ∃ key outcome,
            (key, outcome) ∈ (ofStore store base expansions).outcomes operations ∧
            entry.1 ∈ outcome.untranslated ∧
            ∃ back, Under entry.2 (segments key) position back ∧
              (valueAt entry.2 position).same
                (valueAt ((store.baseValue? base key).getD (.string key)) back) = true) ∧
      ∀ entry ∈ ((ofStore store base expansions).run operations).untranslated,
        entry.1 ≠ base := by
  refine ⟨?_, ?_, ?_⟩
  · intro entry member position leaf outside
    obtain ⟨input, loaded, equal⟩ := outputs_eq_localeAfter member
    have clean : (localeAfter store base (registeredKeys expansions operations) entry.1
        input).Clean := clean_localeAfter _
    have content := valueAt_withBucket clean.output
      (recordedSignatures expansions operations) outside (equal ▸ leaf)
    rw [← equal] at content
    obtain ⟨first, key, second, keys, added, back, along, source⟩ :=
      leaf_of_output loaded _ (content ▸ leaf)
    refine ⟨key, by simp [keys], (mem_added.mp added).1, back, along.under leaf, ?_⟩
    rw [content, source]
  · intro entry member position leaf
    obtain ⟨input, loaded, held⟩ := untranslated_eq_localeAfter member
    obtain ⟨first, key, second, keys, listed, back, along, source⟩ :=
      leaf_of_report loaded _ held leaf
    obtain ⟨_, _, stored, _, lacks⟩ := mem_untranslated.mp listed
    refine ⟨key, outcomeAfter store base first key, ?_, listed, back, along.under leaf, ?_⟩
    · rw [outcomes_ofStore, keys]
      exact mem_outcomesAfter
    · rw [source] at leaf ⊢
      exact same_source stored lacks leaf
  · intro entry member
    obtain ⟨input, loaded, held⟩ := untranslated_eq_localeAfter member
    obtain ⟨first, key, second, keys, listed⟩ := listed_of_report loaded
      (registeredKeys expansions operations) (by rw [held]; simp)
    exact ne_base_of_untranslated listed

/-- A store whose base language has a title and one of two steps. -/
def titleStore : LocaleStore :=
  .ofLocales
    [("en", .object [("title", .string "Title"), ("steps", .array [.string "One"])]),
      ("fr", .object [])]

theorem title_has_a_source :
    ∃ entry ∈ ((ofStore titleStore "en" []).run
        [.key "steps", .key "title", .key "steps[1]"]).untranslated,
      entry.1 = "fr" ∧ ∃ key outcome,
        (key, outcome) ∈ (ofStore titleStore "en" []).outcomes
          [.key "steps", .key "title", .key "steps[1]"] ∧
        "fr" ∈ outcome.untranslated ∧
        ∃ back, Under entry.2 (segments key) [.member "steps", .item 0] back ∧
          (valueAt entry.2 [.member "steps", .item 0]).same
            (valueAt ((titleStore.baseValue? "en" key).getD (.string key)) back) = true := by
  have named : "fr" ∈ (((ofStore titleStore "en" []).run
      [.key "steps", .key "title", .key "steps[1]"]).untranslated).map Prod.fst := by
    decide +kernel
  have leaves : ∀ entry ∈ ((ofStore titleStore "en" []).run
        [.key "steps", .key "title", .key "steps[1]"]).untranslated,
      IsLeaf (valueAt entry.2 [.member "steps", .item 0]) := by
    decide +kernel
  obtain ⟨entry, member, french⟩ := List.mem_map.mp named
  obtain ⟨key, outcome, answered, listed, source⟩ :=
    (every_leaf_has_a_source titleStore "en" []
      [.key "steps", .key "title", .key "steps[1]"]).2.1 entry member
      [.member "steps", .item 0] (leaves entry member)
  rw [french] at listed
  exact ⟨entry, member, french, key, outcome, answered, listed, source⟩

end Phrasebook.Catalog
