import Phrasebook.Proofs.Catalog.Run

/-!
# Outcomes

A run answers for every key it registers, directly or by an expansion, which locales got
the key and which of these lack a translation.  The answer depends on the keys registered
before, in each locale on its own, and never on the recorded signatures.
-/

namespace Phrasebook.Catalog

open Json KeyPath

/-- What registering keys one after the other answers for each of them. -/
def keyOutcomes (catalog : Catalog) : List String → List (String × KeyOutcome)
  | [] => []
  | key :: rest => (key, (catalog.addKey key).2) :: (catalog.addKey key).1.keyOutcomes rest

/-- What a run answers for each key it registers, directly or by an expansion. -/
def outcomes (catalog : Catalog) : List Operation → List (String × KeyOutcome)
  | [] => []
  | operation :: rest =>
      catalog.keyOutcomes (operation.keys catalog.expansions) ++
        (catalog.apply operation).outcomes rest

/-- A locale of a store after some keys were registered. -/
def localeAfter (store : LocaleStore) (base : String) (keys : List String) (name : String)
    (input : Value) : LocaleMerge :=
  (LocaleMerge.start name input).registerAll base (store.baseValue? base) keys

/-- What registering a key answers after some other keys. -/
def outcomeAfter (store : LocaleStore) (base : String) (earlier : List String)
    (key : String) : KeyOutcome :=
  if accepts key then
    let after := store.locales.map fun (name, input) =>
      localeAfter store base earlier name input
    let fresh := after.filter fun locale => !locale.has key
    let lacking := fresh.filter fun locale =>
      locale.lacks base (store.baseValue? base key) key
    ⟨fresh.map LocaleMerge.name, lacking.map LocaleMerge.name⟩
  else ⟨[], []⟩

/-- What registering keys answers for each of them after some other keys. -/
def outcomesAfter (store : LocaleStore) (base : String) (earlier : List String) :
    List String → List (String × KeyOutcome)
  | [] => []
  | key :: rest =>
      (key, outcomeAfter store base earlier key) ::
        outcomesAfter store base (earlier ++ [key]) rest

variable {store : LocaleStore} {base locale key : String} {input : Value}
variable {expansions : List (String × List String)} {operations : List Operation}
variable {earlier keys : List String} {outcome : KeyOutcome}
variable {before after : List (String × KeyOutcome)}

theorem clean_localeAfter (keys : List String) :
    (localeAfter store base keys locale input).Clean :=
  (LocaleMerge.clean_start locale input).registerAll keys

/-- Adding a key to the catalog of a run answers by the keys registered so far. -/
theorem addKey_run (store : LocaleStore) (base : String)
    (expansions : List (String × List String)) (operations : List Operation) (key : String) :
    (((ofStore store base expansions).run operations).addKey key).2 =
      outcomeAfter store base (registeredKeys expansions operations) key := by
  have held : ((ofStore store base expansions).run operations).base = base := by
    obtain ⟨dirty, equal⟩ := run_ofStore store base expansions operations
    rw [equal]
    rfl
  unfold addKey outcomeAfter
  split
  · rename_i accepted
    have has (name : String) (input : Value) :
        (finalLocale store base expansions operations name input).has key =
          (localeAfter store base (registeredKeys expansions operations) name input).has key :=
      LocaleMerge.has_bucketed (clean_localeAfter _) accepted _
    simp only [locales_run, baseValue?_run, held, List.filter_map, List.map_map,
      Function.comp_def, has]
    rfl
  · rfl

theorem mem_map_localeAfter {keep : LocaleMerge → Bool} :
    locale ∈ ((store.locales.map fun (name, input) =>
        localeAfter store base earlier name input).filter keep).map LocaleMerge.name ↔
      ∃ input, store.get? locale = some input ∧
        keep (localeAfter store base earlier locale input) = true := by
  rw [List.mem_map]
  constructor
  · rintro ⟨after, member, rfl⟩
    obtain ⟨listed, kept⟩ := List.mem_filter.mp member
    obtain ⟨⟨name, input⟩, stored, rfl⟩ := List.mem_map.mp listed
    have named : (localeAfter store base earlier name input).name = name :=
      LocaleMerge.name_registerAll earlier
    rw [named]
    exact ⟨input, Table.get?_of_mem store.increasing.nodup stored, kept⟩
  · rintro ⟨input, loaded, kept⟩
    refine ⟨localeAfter store base earlier locale input, ?_,
      LocaleMerge.name_registerAll earlier⟩
    apply List.mem_filter.mpr
    exact ⟨List.mem_map.mpr ⟨(locale, input), Table.mem_of_get? loaded, rfl⟩, kept⟩

/-- A locale gets a key that can be registered, unless its output has the key. -/
theorem mem_added :
    locale ∈ (outcomeAfter store base earlier key).added ↔
      accepts key = true ∧ ∃ input, store.get? locale = some input ∧
        (localeAfter store base earlier locale input).has key = false := by
  unfold outcomeAfter
  split
  · rename_i accepted
    simp only [mem_map_localeAfter, accepted, true_and, Bool.not_eq_true']
  · rename_i refused
    simp [refused]

theorem lacks_localeAfter {baseValue : Option Value} :
    (localeAfter store base earlier locale input).lacks base baseValue key =
      (LocaleMerge.start locale input).lacks base baseValue key := by
  simp only [LocaleMerge.lacks, localeAfter, LocaleMerge.name_registerAll,
    LocaleMerge.input_registerAll]

theorem valueFor_localeAfter {baseValue : Option Value} :
    (localeAfter store base earlier locale input).valueFor baseValue key =
      (LocaleMerge.start locale input).valueFor baseValue key := by
  simp only [LocaleMerge.valueFor, localeAfter, LocaleMerge.input_registerAll]

/-- A locale that got a key is listed if it lacks a translation of the key. -/
theorem mem_untranslated :
    locale ∈ (outcomeAfter store base earlier key).untranslated ↔
      accepts key = true ∧ ∃ input, store.get? locale = some input ∧
        (localeAfter store base earlier locale input).has key = false ∧
        (LocaleMerge.start locale input).lacks base (store.baseValue? base key) key = true := by
  unfold outcomeAfter
  split
  · rename_i accepted
    simp only [List.filter_filter, mem_map_localeAfter, accepted, true_and, Bool.and_eq_true,
      Bool.not_eq_true', lacks_localeAfter]
    exact exists_congr fun input => and_congr_right fun _ => and_comm
  · rename_i refused
    simp [refused]

theorem localeAfter_append (accepted : accepts key = true) :
    localeAfter store base (earlier ++ [key]) locale input =
      (localeAfter store base earlier locale input).register base
        (store.baseValue? base key) key := by
  rw [localeAfter, LocaleMerge.registerAll_append, LocaleMerge.registerAll_singleton accepted]
  rfl

theorem localeAfter_append_of_not_accepts (refused : accepts key = false) :
    localeAfter store base (earlier ++ [key]) locale input =
      localeAfter store base earlier locale input := by
  rw [localeAfter, LocaleMerge.registerAll_append,
    LocaleMerge.registerAll_of_not_accepts refused]
  rfl

/-- The next key is written into the output of a locale that gets it. -/
theorem output_localeAfter_append (loaded : store.get? locale = some input)
    (earlier : List String) (key : String) :
    (localeAfter store base (earlier ++ [key]) locale input).output =
      if locale ∈ (outcomeAfter store base earlier key).added then
        write (localeAfter store base earlier locale input).output (segments key)
          (store.fallback base locale key)
      else (localeAfter store base earlier locale input).output := by
  simp only [mem_added, loaded, Option.some.injEq, exists_eq_left']
  cases accepted : accepts key with
  | false => simp [localeAfter_append_of_not_accepts accepted]
  | true =>
      have clean : (localeAfter store base earlier locale input).Clean :=
        clean_localeAfter earlier
      have has := Bool.eq_iff_iff.mpr (LocaleMerge.has_iff clean accepted)
      rw [localeAfter_append accepted, LocaleMerge.output_register clean accepted,
        valueFor_localeAfter, valueFor_start loaded, merge, ← has]
      cases (localeAfter store base earlier locale input).has key <;> simp

/-- It is written into the report of a locale that is listed. -/
theorem report_localeAfter_append (loaded : store.get? locale = some input)
    (earlier : List String) (key : String) :
    (localeAfter store base (earlier ++ [key]) locale input).report =
      if locale ∈ (outcomeAfter store base earlier key).untranslated then
        some (write ((localeAfter store base earlier locale input).report.getD (.object []))
          (segments key) (store.fallback base locale key))
      else (localeAfter store base earlier locale input).report := by
  simp only [mem_untranslated, loaded, Option.some.injEq, exists_eq_left']
  cases accepted : accepts key with
  | false => simp [localeAfter_append_of_not_accepts accepted]
  | true =>
      have clean : (localeAfter store base earlier locale input).Clean :=
        clean_localeAfter earlier
      have has := Bool.eq_iff_iff.mpr (LocaleMerge.has_iff clean accepted)
      rw [localeAfter_append accepted, LocaleMerge.report_register clean accepted,
        valueFor_localeAfter, valueFor_start loaded, lacks_localeAfter, ← has]
      cases (localeAfter store base earlier locale input).has key <;> simp

/-- What the report of a locale is built into. -/
def reportAfter (store : LocaleStore) (base : String) (keys : List String) (name : String)
    (input : Value) : Value :=
  (localeAfter store base keys name input).report.getD (.object [])

theorem reportAfter_append (loaded : store.get? locale = some input)
    (earlier : List String) (key : String) :
    reportAfter store base (earlier ++ [key]) locale input =
      if locale ∈ (outcomeAfter store base earlier key).untranslated then
        write (reportAfter store base earlier locale input) (segments key)
          (store.fallback base locale key)
      else reportAfter store base earlier locale input := by
  rw [reportAfter, report_localeAfter_append loaded]
  split
  · rfl
  · rfl

/-- A locale that is listed gets the key. -/
theorem added_of_untranslated
    (listed : locale ∈ (outcomeAfter store base earlier key).untranslated) :
    locale ∈ (outcomeAfter store base earlier key).added := by
  obtain ⟨accepted, input, loaded, fresh, _⟩ := mem_untranslated.mp listed
  exact mem_added.mpr ⟨accepted, input, loaded, fresh⟩

/-- What a locale gets is not in its output before. -/
theorem vacant_of_added (loaded : store.get? locale = some input)
    (added : locale ∈ (outcomeAfter store base earlier key).added) :
    ¬ (reach (localeAfter store base earlier locale input).output
      (segments key)).isTruthy = true := by
  obtain ⟨accepted, found, held, fresh⟩ := mem_added.mp added
  obtain rfl : input = found := Option.some.inj (loaded.symm.trans held)
  rw [← LocaleMerge.has_iff (clean_localeAfter earlier) accepted, fresh]
  decide

/-- A locale has a report once it was listed. -/
theorem report_of_listed (loaded : store.get? locale = some input) {first : List String}
    (listed : locale ∈ (outcomeAfter store base first key).untranslated)
    (second : List String) :
    (localeAfter store base (first ++ key :: second) locale input).report ≠ none := by
  induction second using List.reverseRecOn with
  | nil =>
      rw [report_localeAfter_append loaded, if_pos listed]
      exact Option.some_ne_none _
  | append_singleton second last ih =>
      have split : first ++ key :: (second ++ [last]) = (first ++ key :: second) ++ [last] := by
        simp
      rw [split, report_localeAfter_append loaded]
      split
      · exact Option.some_ne_none _
      · exact ih

/-! ## All keys -/

@[simp] theorem map_fst_outcomesAfter (store : LocaleStore) (base : String)
    (earlier keys : List String) :
    (outcomesAfter store base earlier keys).map Prod.fst = keys := by
  induction keys generalizing earlier with
  | nil => rfl
  | cons key rest ih => rw [outcomesAfter, List.map_cons, ih]

theorem outcomesAfter_append (store : LocaleStore) (base : String)
    (earlier first second : List String) :
    outcomesAfter store base earlier (first ++ second) =
      outcomesAfter store base earlier first ++
        outcomesAfter store base (earlier ++ first) second := by
  induction first generalizing earlier with
  | nil => simp [outcomesAfter]
  | cons key rest ih => simp [outcomesAfter, ih]

/-- The answers before and after one of them are those for the keys before and after. -/
theorem outcomesAfter_eq_append
    (split : outcomesAfter store base earlier keys = before ++ (key, outcome) :: after) :
    keys = before.map Prod.fst ++ key :: after.map Prod.fst ∧
      outcome = outcomeAfter store base (earlier ++ before.map Prod.fst) key ∧
      after = outcomesAfter store base (earlier ++ before.map Prod.fst ++ [key])
        (after.map Prod.fst) := by
  have named : keys = before.map Prod.fst ++ key :: after.map Prod.fst := by
    rw [← map_fst_outcomesAfter store base earlier keys, split]
    simp
  refine ⟨named, ?_⟩
  rw [named, outcomesAfter_append] at split
  have sameLength :
      (outcomesAfter store base earlier (before.map Prod.fst)).length = before.length := by
    rw [← List.length_map Prod.fst, map_fst_outcomesAfter, List.length_map]
  obtain ⟨_, rest⟩ := List.append_inj split sameLength
  rw [outcomesAfter] at rest
  obtain ⟨head, tail⟩ := List.cons.inj rest
  exact ⟨(Prod.mk.inj head).2.symm, tail.symm⟩

theorem mem_outcomesAfter {first second : List String} :
    (key, outcomeAfter store base first key) ∈
      outcomesAfter store base [] (first ++ key :: second) := by
  rw [outcomesAfter_append]
  apply List.mem_append_right
  exact List.mem_cons_self

theorem accepts_of_added {answer : String × KeyOutcome}
    (member : answer ∈ outcomesAfter store base earlier keys)
    (added : locale ∈ answer.2.added) : accepts answer.1 = true := by
  induction keys generalizing earlier with
  | nil => cases member
  | cons key rest ih =>
      rcases List.mem_cons.mp member with rfl | later
      · exact (mem_added.mp added).1
      · exact ih later

theorem registeredKeys_append (first second : List Operation) :
    registeredKeys expansions (first ++ second) =
      registeredKeys expansions first ++ registeredKeys expansions second :=
  List.flatMap_append

theorem keyOutcomes_run (store : LocaleStore) (base : String)
    (expansions : List (String × List String)) (operations : List Operation)
    (keys : List String) :
    ((ofStore store base expansions).run operations).keyOutcomes keys =
      outcomesAfter store base (registeredKeys expansions operations) keys := by
  induction keys generalizing operations with
  | nil => rfl
  | cons key rest ih =>
      have step : (((ofStore store base expansions).run operations).addKey key).1 =
          (ofStore store base expansions).run (operations ++ [.key key]) := by
        rw [run_append_singleton, apply]
      rw [keyOutcomes, addKey_run, step, ih, registeredKeys_append]
      rfl

theorem outcomes_run (store : LocaleStore) (base : String)
    (expansions : List (String × List String)) (operations more : List Operation) :
    ((ofStore store base expansions).run operations).outcomes more =
      outcomesAfter store base (registeredKeys expansions operations)
        (registeredKeys expansions more) := by
  induction more generalizing operations with
  | nil => rfl
  | cons operation rest ih =>
      have keys : registeredKeys expansions (operations ++ [operation]) =
          registeredKeys expansions operations ++ operation.keys expansions := by
        simp [registeredKeys]
      rw [outcomes, expansions_run, keyOutcomes_run, ← run_append_singleton, ih, keys,
        ← outcomesAfter_append]
      rfl

/-- A run answers key by key, each time by the keys registered before. -/
theorem outcomes_ofStore (store : LocaleStore) (base : String)
    (expansions : List (String × List String)) (operations : List Operation) :
    (ofStore store base expansions).outcomes operations =
      outcomesAfter store base [] (registeredKeys expansions operations) :=
  outcomes_run store base expansions [] operations

end Phrasebook.Catalog
