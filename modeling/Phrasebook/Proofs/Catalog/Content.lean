import Phrasebook.Proofs.Catalog.Run

/-!
# The content of an output

The content of a locale's output is what merging the accepted keys, one after the
other, makes of an empty object.  It only grows, so what holds of a key right after it
was merged holds at the end: it has a translation, or its path is blocked.
-/

namespace Phrasebook.Catalog

open Json KeyPath

variable {output : Value} {value : String → Value} {key : String} {keys : List String}

/-- The output once a value was merged for each of some keys. -/
def mergeAll (output : Value) (value : String → Value) (keys : List String) : Value :=
  keys.foldl (fun output key => merge output (segments key) (value key)) output

@[simp] theorem mergeAll_nil (output : Value) (value : String → Value) :
    mergeAll output value [] = output :=
  rfl

@[simp] theorem mergeAll_cons (output : Value) (value : String → Value) (key : String)
    (rest : List String) :
    mergeAll output value (key :: rest) =
      mergeAll (merge output (segments key) (value key)) value rest :=
  rfl

theorem mergeAll_append (output : Value) (value : String → Value)
    (first second : List String) :
    mergeAll output value (first ++ second) =
      mergeAll (mergeAll output value first) value second :=
  List.foldl_append ..

theorem grows_mergeAll (output : Value) (value : String → Value) (keys : List String) :
    Grows output (mergeAll output value keys) := by
  induction keys generalizing output with
  | nil => exact Grows.refl output
  | cons key rest ih => exact (Grows.merge output (segments key) (value key)).trans (ih _)

theorem Mapping.mergeAll (mapping : Mapping output)
    (accepted : ∀ key ∈ keys, accepts key = true) :
    Mapping (mergeAll output value keys) := by
  induction keys generalizing output with
  | nil => exact mapping
  | cons key rest ih =>
      exact ih (mapping.merge (accepted key List.mem_cons_self) _)
        fun other member => accepted other (List.mem_cons_of_mem _ member)

/-- A merged key has a translation in the end, unless its path is blocked. -/
theorem truthy_or_blocked_mergeAll (mapping : Mapping output)
    (accepted : ∀ key ∈ keys, accepts key = true)
    (truthy : ∀ key ∈ keys, (value key).isTruthy = true) (member : key ∈ keys) :
    (reach (mergeAll output value keys) (segments key)).isTruthy = true ∨
      Blocked (mergeAll output value keys) (segments key) := by
  obtain ⟨before, rest, rfl⟩ := List.append_of_mem member
  rw [mergeAll_append, mergeAll_cons]
  have container : (mergeAll output value before).isContainer = true :=
    (mapping.mergeAll fun other member =>
      accepted other (List.mem_append_left _ member)).isContainer
  have grows := grows_mergeAll
    (merge (mergeAll output value before) (segments key) (value key)) value rest
  rcases truthy_or_blocked_merge (fun _ => container) (truthy key member) with
    taken | blocked
  · exact .inl ((grows (segments key)).truthy taken)
  · exact .inr (blocked.grows grows)

/-- The accepted keys that operations register, in order. -/
def acceptedKeys (expansions : List (String × List String))
    (operations : List Operation) : List String :=
  (registeredKeys expansions operations).filter accepts

theorem accepts_of_mem {expansions : List (String × List String)}
    {operations : List Operation} :
    ∀ key ∈ acceptedKeys expansions operations, accepts key = true :=
  fun _ member => (List.mem_filter.mp member).2

theorem output_registerAll {locale : LocaleMerge} (clean : locale.Clean) (base : String)
    (baseValue? : String → Option Value) (keys : List String) :
    (locale.registerAll base baseValue? keys).output =
      mergeAll locale.output (fun key => locale.valueFor (baseValue? key) key)
        (keys.filter accepts) := by
  induction keys using List.reverseRecOn with
  | nil => rfl
  | append_singleton earlier key ih =>
      rw [LocaleMerge.registerAll_append, List.filter_append, mergeAll_append, ← ih]
      cases accepted : accepts key with
      | true =>
          rw [LocaleMerge.registerAll_singleton accepted,
            LocaleMerge.output_register (clean.registerAll earlier) accepted]
          simp [accepted, LocaleMerge.valueFor]
      | false =>
          rw [LocaleMerge.registerAll_of_not_accepts accepted]
          simp [accepted]

section
variable {store : LocaleStore} {base locale : String} {input : Value}
variable {expansions : List (String × List String)} {operations : List Operation}

/-- The content of a locale at the end of a run. -/
def content (store : LocaleStore) (base : String)
    (expansions : List (String × List String)) (operations : List Operation)
    (locale : String) : Value :=
  mergeAll (.object []) (store.fallback base locale) (acceptedKeys expansions operations)

theorem mapping_content : Mapping (content store base expansions operations locale) :=
  mapping_empty.mergeAll accepts_of_mem

/-- What an accepted key gets counts as a translation. -/
theorem isTruthy_fallback (accepted : accepts key = true) :
    (store.fallback base locale key).isTruthy = true := by
  unfold LocaleStore.fallback
  cases own : (store.get? locale).bind fun input => truthy? input key with
  | some value =>
      obtain ⟨input, _, found⟩ := Option.bind_eq_some_iff.mp own
      exact (Option.filter_eq_some_iff.mp found).2
  | none =>
      cases shared : store.baseValue? base key with
      | some value =>
          obtain ⟨input, _, found⟩ := Option.bind_eq_some_iff.mp shared
          exact (Option.filter_eq_some_iff.mp found).2
      | none => exact isTruthy_string_key accepted

theorem output_start (loaded : store.get? locale = some input) (keys : List String) :
    ((LocaleMerge.start locale input).registerAll base (store.baseValue? base) keys).output =
      mergeAll (.object []) (store.fallback base locale) (keys.filter accepts) := by
  rw [output_registerAll (LocaleMerge.clean_start locale input)]
  simp only [LocaleMerge.start, LocaleMerge.valueFor]
  congr 1
  funext key
  simp [LocaleStore.fallback, loaded]

theorem output_finalLocale {locale : String} {input : Value}
    (loaded : store.get? locale = some input) :
    (finalLocale store base expansions operations locale input).output =
      withBucket (recordedSignatures expansions operations)
        (content store base expansions operations locale) := by
  rw [finalLocale, LocaleMerge.bucketed]
  simp only [output_start loaded]
  rfl

/-- The output of a locale at the end of a run is its content beside the bucket. -/
theorem get?_outputs_run (store : LocaleStore) (base : String)
    (expansions : List (String × List String)) (operations : List Operation)
    (locale : String) :
    Table.get? ((ofStore store base expansions).run operations).outputs locale =
      (store.get? locale).map fun _ =>
        withBucket (recordedSignatures expansions operations)
          (content store base expansions operations locale) := by
  rw [get?_outputs_finalLocale]
  cases loaded : store.get? locale with
  | none => rfl
  | some input =>
      rw [Option.map_some, Option.map_some, output_finalLocale loaded]

/-- A run neither adds nor drops a locale. -/
theorem names_outputs_run (store : LocaleStore) (base : String)
    (expansions : List (String × List String)) (operations : List Operation) :
    Table.names ((ofStore store base expansions).run operations).outputs = store.names := by
  rw [outputs_run, Table.names, List.map_map]
  rfl

theorem get?_of_mem_outputs {output : Value}
    (member : (locale, output) ∈ ((ofStore store base expansions).run operations).outputs) :
    Table.get? ((ofStore store base expansions).run operations).outputs locale =
      some output := by
  apply Table.get?_of_mem _ member
  rw [names_outputs_run]
  exact store.increasing.nodup

theorem outputs_eq_content {entry : String × Value}
    (member : entry ∈ ((ofStore store base expansions).run operations).outputs) :
    entry.2 = withBucket (recordedSignatures expansions operations)
      (content store base expansions operations entry.1) := by
  have found := get?_of_mem_outputs member
  rw [get?_outputs_run] at found
  obtain ⟨input, _, equal⟩ := Option.map_eq_some_iff.mp found
  exact equal.symm

/-- Every accepted key of a run has a translation in every output, unless its path is
blocked there. -/
theorem truthy_or_blocked_outputs {output : Value} (accepted : accepts key = true)
    (registered : key ∈ registeredKeys expansions operations)
    (found : Table.get? ((ofStore store base expansions).run operations).outputs locale =
      some output) :
    (truthy? output key).isSome ∨ Blocked output (segments key) := by
  rw [get?_outputs_run] at found
  obtain ⟨input, _, rfl⟩ := Option.map_eq_some_iff.mp found
  rw [truthy?_withBucket mapping_content accepted,
    blocked_withBucket mapping_content accepted,
    isSome_truthy?_iff mapping_content.plain (segments_ne_nil accepted)]
  apply truthy_or_blocked_mergeAll mapping_empty accepts_of_mem
  · intro key member
    exact isTruthy_fallback (accepts_of_mem key member)
  · exact List.mem_filter.mpr ⟨registered, accepted⟩

/-- The translation is the value that is read at the key. -/
theorem get?_or_blocked_outputs {output : Value} (accepted : accepts key = true)
    (registered : key ∈ registeredKeys expansions operations)
    (found : Table.get? ((ofStore store base expansions).run operations).outputs locale =
      some output) :
    (∃ value, get? output key = some value ∧ value.isTruthy = true) ∨
      Blocked output (segments key) := by
  rcases truthy_or_blocked_outputs accepted registered found with taken | blocked
  · obtain ⟨value, resolves⟩ := Option.isSome_iff_exists.mp taken
    obtain ⟨reads, truthy⟩ := Option.filter_eq_some_iff.mp resolves
    exact .inl ⟨value, reads, truthy⟩
  · exact .inr blocked

end
end Phrasebook.Catalog
