import Phrasebook.Proofs.Catalog.Content
import Phrasebook.Proofs.KeyPath.Ahead

/-!
# Merging again

The outputs of a run, taken as the locales of a new store, come out of the same run
unchanged.  The new run may get there faster, since a key can bring a whole subtree that
the old run put together from many keys, but it is ahead on the same way all the time.
-/

namespace Phrasebook.Catalog

open Json KeyPath

variable {first second : Value} {value replayed : String → Value} {keys : List String}

/-- Merging for each key what is there in the end leads to the same end. -/
theorem mergeAll_eq_of_ahead (mapping : Mapping first)
    (accepted : ∀ key ∈ keys, accepts key = true)
    (values : ∀ key ∈ keys, (value key).isTruthy = true)
    (ahead : Ahead first second (mergeAll first value keys))
    (replays : ∀ key ∈ keys,
      (reach (mergeAll first value keys) (segments key)).isTruthy = true →
        replayed key = reach (mergeAll first value keys) (segments key)) :
    mergeAll second replayed keys = mergeAll first value keys := by
  induction keys generalizing first second with
  | nil => exact ahead.eq_last rfl
  | cons key rest ih =>
      rw [mergeAll_cons] at ahead replays ⊢
      have acceptedKey := accepted key List.mem_cons_self
      have grows := grows_mergeAll (merge first (segments key) (value key)) value rest
      have step : Ahead (merge first (segments key) (value key))
          (merge second (segments key) (replayed key))
          (mergeAll (merge first (segments key) (value key)) value rest) := by
        by_cases blocked : Blocked first (segments key)
        · rw [merge_of_blocked blocked] at ahead ⊢
          rw [merge_of_blocked (ahead.blocked blocked)]
          exact ahead
        · have taken := isTruthy_merge (fun _ => mapping.isContainer) blocked
            (values key List.mem_cons_self)
          have present := (grows (segments key)).truthy taken
          rw [replays key List.mem_cons_self present]
          exact ahead.merge grows present
      rw [mergeAll_cons]
      exact ih (mapping.merge acceptedKey _)
        (fun other member => accepted other (List.mem_cons_of_mem _ member))
        (fun other member => values other (List.mem_cons_of_mem _ member)) step
        fun other member => replays other (List.mem_cons_of_mem _ member)

variable (store : LocaleStore) (base : String) (expansions : List (String × List String))
variable (operations : List Operation)

/-- The store that the outputs of a run make. -/
def remerged : LocaleStore :=
  .ofLocales ((ofStore store base expansions).run operations).outputs

theorem locales_remerged :
    (remerged store base expansions operations).locales =
      ((ofStore store base expansions).run operations).outputs := by
  apply Table.sorted_of_increasing
  rw [outputs_run, Table.Increasing, List.pairwise_map]
  exact store.increasing

theorem get?_remerged (locale : String) :
    (remerged store base expansions operations).get? locale =
      (store.get? locale).map fun _ =>
        withBucket (recordedSignatures expansions operations)
          (content store base expansions operations locale) := by
  rw [LocaleStore.get?, locales_remerged, get?_outputs_run]

theorem content_remerged {locale : String} {input : Value}
    (loaded : store.get? locale = some input) :
    content (remerged store base expansions operations) base expansions operations locale =
      content store base expansions operations locale := by
  apply mergeAll_eq_of_ahead mapping_empty accepts_of_mem
  · intro key member
    exact isTruthy_fallback (accepts_of_mem key member)
  · have mapping : Mapping (content store base expansions operations locale) :=
      mapping_content
    obtain ⟨members, object, _⟩ := mapping
    rw [← content, object]
    exact Ahead.empty_object members
  · intro key member present
    rw [← content] at present ⊢
    have found : truthy? (content store base expansions operations locale) key =
        some (reach (content store base expansions operations locale) (segments key)) :=
      (truthy?_eq_some_iff mapping_content.plain
        (segments_ne_nil (accepts_of_mem key member))).mpr ⟨rfl, present⟩
    simp [LocaleStore.fallback, get?_remerged, loaded,
      truthy?_withBucket mapping_content (accepts_of_mem key member), found]

/-- Running the same operations on the outputs of a run changes none of them. -/
theorem remerge_is_fixpoint :
    ((ofStore (.ofLocales ((ofStore store base expansions).run operations).outputs)
        base expansions).run operations).outputs =
      ((ofStore store base expansions).run operations).outputs := by
  rw [← remerged]
  apply Table.ext
  · rw [names_outputs_run, LocaleStore.names, locales_remerged]
  · rw [names_outputs_run]
    exact (remerged store base expansions operations).increasing.nodup
  · intro locale
    rw [get?_outputs_run, get?_outputs_run, get?_remerged]
    cases loaded : store.get? locale with
    | none => rfl
    | some input =>
        rw [Option.map_some, Option.map_some,
          content_remerged store base expansions operations loaded]

end Phrasebook.Catalog
