import Phrasebook.Proofs.Catalog.Bucket

/-!
# Runs of a catalog

A run applies operations to the catalog of a store.  It never looks from one locale
at another, except for the base language's input, which does not change.  So a run is
one run per locale, and there it comes down to two lists: the keys it registers, which
make the content and the report, and the signatures it records, which make the bucket.
-/

namespace Phrasebook

open Json KeyPath

/-- The base language's translation of a key. -/
def LocaleStore.baseValue? (store : LocaleStore) (base key : String) : Option Value :=
  (store.get? base).bind fun input => truthy? input key

/-- What a locale has for a key: the first that counts as a translation of its own
value and the base language's, else the text of the key. -/
def LocaleStore.fallback (store : LocaleStore) (base locale key : String) : Value :=
  (((store.get? locale).bind fun input => truthy? input key).or
    (store.baseValue? base key)).getD (.string key)

namespace Catalog

/-- One call on a catalog. -/
inductive Operation where
  | key (key : String)
  | unknown (signature : String)
  deriving DecidableEq, Repr

/-- The keys an operation registers, directly or by a known expansion. -/
def Operation.keys (expansions : List (String × List String)) : Operation → List String
  | .key own => [own]
  | .unknown signature => (Table.get? expansions signature).getD []

/-- The signature an operation records, if no expansion is known for it. -/
def Operation.signatures (expansions : List (String × List String)) :
    Operation → List String
  | .key _ => []
  | .unknown signature =>
      match Table.get? expansions signature with
      | some _ => []
      | none => [signature]

/-- The catalog after one operation. -/
def apply (catalog : Catalog) : Operation → Catalog
  | .key key => (catalog.addKey key).1
  | .unknown signature => (catalog.addUnknown signature).1

/-- The catalog after operations, one after the other. -/
def run (catalog : Catalog) (operations : List Operation) : Catalog :=
  operations.foldl apply catalog

/-- All keys that operations register, in order. -/
def registeredKeys (expansions : List (String × List String))
    (operations : List Operation) : List String :=
  operations.flatMap (Operation.keys expansions)

/-- All signatures that operations record, in order. -/
def recordedSignatures (expansions : List (String × List String))
    (operations : List Operation) : List String :=
  operations.flatMap (Operation.signatures expansions)

end Catalog

namespace LocaleMerge

open Catalog

variable {locale : LocaleMerge} {base key : String} {baseValue : Option Value}
variable {baseValue? : String → Option Value}

/-- Merge the accepted ones among some keys. -/
def registerAll (locale : LocaleMerge) (base : String)
    (baseValue? : String → Option Value) (keys : List String) : LocaleMerge :=
  (keys.filter accepts).foldl
    (fun locale key => locale.register base (baseValue? key) key) locale

/-- The locale with signatures recorded beside its content. -/
def bucketed (signatures : List String) (locale : LocaleMerge) : LocaleMerge :=
  { locale with output := withBucket signatures locale.output }

/-- Output and report are made of accepted keys. -/
structure Clean (locale : LocaleMerge) : Prop where
  output : Mapping locale.output
  report : ∀ report, locale.report = some report → Mapping report

theorem clean_start (name : String) (input : Value) : Clean (start name input) :=
  ⟨mapping_empty, by simp [start]⟩

@[simp] theorem name_register :
    (locale.register base baseValue key).name = locale.name := by
  unfold register
  split <;> rfl

@[simp] theorem input_register :
    (locale.register base baseValue key).input = locale.input := by
  unfold register
  split <;> rfl

theorem has_iff (clean : Clean locale) (accepted : accepts key = true) :
    locale.has key = true ↔ (reach locale.output (segments key)).isTruthy = true :=
  isSome_truthy?_iff clean.output.plain (segments_ne_nil accepted)

/-- Registering a key merges its value into the output. -/
theorem output_register (clean : Clean locale) (accepted : accepts key = true) :
    (locale.register base baseValue key).output =
      merge locale.output (segments key) (locale.valueFor baseValue key) := by
  unfold register merge
  by_cases taken : (reach locale.output (segments key)).isTruthy
  · rw [if_pos ((has_iff clean accepted).mpr taken), if_pos taken]
  · rw [if_neg (fun has => taken ((has_iff clean accepted).mp has)), if_neg taken]
    exact Mapping.set_eq_write accepted _ _

/-- The report takes a key only when the output takes it, and only if the locale
lacks it. -/
theorem report_register (clean : Clean locale) (accepted : accepts key = true) :
    (locale.register base baseValue key).report =
      if !(reach locale.output (segments key)).isTruthy &&
          locale.lacks base baseValue key then
        some (write (locale.report.getD (.object [])) (segments key)
          (locale.valueFor baseValue key))
      else locale.report := by
  unfold register
  by_cases taken : (reach locale.output (segments key)).isTruthy
  · rw [if_pos ((has_iff clean accepted).mpr taken), taken]
    rfl
  · rw [if_neg (fun has => taken ((has_iff clean accepted).mp has))]
    simp only [add, taken, Bool.not_false, Bool.true_and, Mapping.set_eq_write accepted]

theorem Clean.mapping_report (clean : Clean locale) :
    Mapping (locale.report.getD (.object [])) := by
  cases found : locale.report with
  | none => exact mapping_empty
  | some report => exact clean.report report found

theorem Clean.register (clean : Clean locale) (accepted : accepts key = true) :
    Clean (locale.register base baseValue key) where
  output := by
    rw [output_register clean accepted]
    exact clean.output.merge accepted _
  report := by
    intro report equal
    rw [report_register clean accepted] at equal
    split at equal
    · rw [← Option.some.inj equal]
      exact clean.mapping_report.write accepted _
    · exact clean.report report equal

@[simp] theorem registerAll_nil : locale.registerAll base baseValue? [] = locale :=
  rfl

theorem registerAll_append (first second : List String) :
    locale.registerAll base baseValue? (first ++ second) =
      (locale.registerAll base baseValue? first).registerAll base baseValue? second := by
  simp [registerAll, List.foldl_append]

theorem registerAll_singleton (accepted : accepts key = true) :
    locale.registerAll base baseValue? [key] =
      locale.register base (baseValue? key) key := by
  simp [registerAll, accepted]

theorem registerAll_of_not_accepts (refused : accepts key = false) :
    locale.registerAll base baseValue? [key] = locale := by
  simp [registerAll, refused]

/-- What registering an accepted key in two locales preserves is preserved by registering
all of them. -/
theorem registerAll_induction₂ {motive : LocaleMerge → LocaleMerge → Prop}
    {other : LocaleMerge} (keys : List String) (start : motive locale other)
    (step : ∀ locale other key, key ∈ keys → accepts key = true → motive locale other →
      motive (locale.register base (baseValue? key) key)
        (other.register base (baseValue? key) key)) :
    motive (locale.registerAll base baseValue? keys)
      (other.registerAll base baseValue? keys) := by
  induction keys using List.reverseRecOn with
  | nil => exact start
  | append_singleton earlier key ih =>
      have earlierHolds := ih fun locale other key member =>
        step locale other key (List.mem_append_left _ member)
      rw [registerAll_append, registerAll_append]
      cases accepted : accepts key with
      | true =>
          rw [registerAll_singleton accepted, registerAll_singleton accepted]
          exact step _ _ key (by simp) accepted earlierHolds
      | false =>
          rw [registerAll_of_not_accepts accepted, registerAll_of_not_accepts accepted]
          exact earlierHolds

/-- What every accepted key preserves is preserved by all of them. -/
theorem registerAll_induction {motive : LocaleMerge → Prop} (keys : List String)
    (start : motive locale)
    (step : ∀ locale key, key ∈ keys → accepts key = true → motive locale →
      motive (locale.register base (baseValue? key) key)) :
    motive (locale.registerAll base baseValue? keys) :=
  @registerAll_induction₂ locale base baseValue? (fun locale _ => motive locale) locale keys
    start fun locale _ key => step locale key

@[simp] theorem name_registerAll (keys : List String) :
    (locale.registerAll base baseValue? keys).name = locale.name :=
  registerAll_induction (motive := fun other => other.name = locale.name) keys rfl
    fun _ _ _ _ same => name_register.trans same

@[simp] theorem input_registerAll (keys : List String) :
    (locale.registerAll base baseValue? keys).input = locale.input :=
  registerAll_induction (motive := fun other => other.input = locale.input) keys rfl
    fun _ _ _ _ same => input_register.trans same

theorem Clean.registerAll (clean : Clean locale) (keys : List String) :
    Clean (locale.registerAll base baseValue? keys) :=
  registerAll_induction keys clean fun _ _ _ accepted clean => clean.register accepted

theorem has_bucketed (clean : Clean locale) (accepted : accepts key = true)
    (signatures : List String) : (locale.bucketed signatures).has key = locale.has key := by
  rw [has, has, bucketed, truthy?_withBucket clean.output accepted]

/-- A bucket beside the content makes no difference to registering a key. -/
theorem register_bucketed (clean : Clean locale) (accepted : accepts key = true)
    (signatures : List String) :
    (locale.bucketed signatures).register base baseValue key =
      (locale.register base baseValue key).bucketed signatures := by
  unfold register
  rw [has_bucketed clean accepted]
  split
  · rfl
  · simp only [add, bucketed, set_withBucket clean.output accepted]
    rfl

theorem registerAll_bucketed (clean : Clean locale) (signatures keys : List String) :
    (locale.bucketed signatures).registerAll base baseValue? keys =
      (locale.registerAll base baseValue? keys).bucketed signatures := by
  refine (registerAll_induction₂ (motive := fun beside locale =>
    beside = locale.bucketed signatures ∧ Clean locale) keys ⟨rfl, clean⟩ ?_).1
  rintro _ locale key _ accepted ⟨rfl, clean⟩
  exact ⟨register_bucketed clean accepted signatures, clean.register accepted⟩

end LocaleMerge

/-! ## All locales -/

namespace Catalog

variable {store : LocaleStore} {base : String} {expansions : List (String × List String)}

/-- A catalog that differs only in what was merged into its locales. -/
def withLocales (catalog : Catalog) (locales : List LocaleMerge) (dirty : Bool) :
    Catalog :=
  { catalog with locales, dirty }

/-- The translations that the locales of a catalog came with. -/
def inputs (catalog : Catalog) : List (String × Value) :=
  catalog.locales.map fun locale => (locale.name, locale.input)

@[simp] theorem inputs_ofStore (store : LocaleStore) (base : String)
    (expansions : List (String × List String)) :
    (ofStore store base expansions).inputs = store.locales := by
  simp [inputs, ofStore, LocaleMerge.start, Function.comp_def]

theorem inputs_withLocales (catalog : Catalog) (image : LocaleMerge → LocaleMerge)
    (dirty : Bool) (keepsName : ∀ locale, (image locale).name = locale.name)
    (keepsInput : ∀ locale, (image locale).input = locale.input) :
    (catalog.withLocales (catalog.locales.map image) dirty).inputs = catalog.inputs := by
  simp [inputs, withLocales, keepsName, keepsInput, Function.comp_def]

/-- The base language's translations are among the inputs. -/
theorem baseValue?_eq (catalog : Catalog) (key : String) :
    catalog.baseValue? key =
      (Table.get? catalog.inputs catalog.base).bind fun input => truthy? input key := by
  have search (locales : List LocaleMerge) (name : String) :
      (locales.find? fun locale => locale.name = name).map LocaleMerge.input =
        Table.get? (locales.map fun locale => (locale.name, locale.input)) name := by
    induction locales with
    | nil => rfl
    | cons locale rest ih =>
        by_cases equal : locale.name = name
        · simp [Table.get?, equal]
        · simpa [Table.get?, equal] using ih
  exact congrArg (fun input => input.bind fun input => truthy? input key)
    (search catalog.locales catalog.base)

theorem baseValue?_withLocales (catalog : Catalog) (image : LocaleMerge → LocaleMerge)
    (dirty : Bool) (keepsName : ∀ locale, (image locale).name = locale.name)
    (keepsInput : ∀ locale, (image locale).input = locale.input) :
    (catalog.withLocales (catalog.locales.map image) dirty).baseValue? =
      catalog.baseValue? := by
  funext key
  rw [baseValue?_eq, baseValue?_eq, inputs_withLocales catalog image dirty keepsName keepsInput]
  rfl

/-- Adding a key merges it into every locale. -/
theorem addKey_eq (catalog : Catalog) (key : String) :
    ∃ dirty, (catalog.addKey key).1 =
      catalog.withLocales
        (catalog.locales.map fun locale =>
          locale.registerAll catalog.base catalog.baseValue? [key]) dirty := by
  unfold addKey
  split
  · rename_i accepted
    simp only [LocaleMerge.registerAll_singleton accepted]
    exact ⟨_, rfl⟩
  · rename_i refused
    refine ⟨catalog.dirty, ?_⟩
    simp [LocaleMerge.registerAll_of_not_accepts (by simpa using refused), withLocales]

theorem addKeys_eq (catalog : Catalog) (keys : List String) :
    ∃ dirty, catalog.addKeys keys =
      catalog.withLocales
        (catalog.locales.map fun locale =>
          locale.registerAll catalog.base catalog.baseValue? keys) dirty := by
  induction keys using List.reverseRecOn with
  | nil => exact ⟨catalog.dirty, by simp [addKeys, withLocales]⟩
  | append_singleton earlier key ih =>
      obtain ⟨dirty, earlierEq⟩ := ih
      obtain ⟨dirty', lastEq⟩ := addKey_eq (catalog.addKeys earlier) key
      refine ⟨dirty', ?_⟩
      have split : catalog.addKeys (earlier ++ [key]) =
          ((catalog.addKeys earlier).addKey key).1 := by
        simp [addKeys, List.foldl_append]
      rw [split, lastEq, earlierEq, baseValue?_withLocales _ _ _ (by simp) (by simp)]
      simp [withLocales, LocaleMerge.registerAll_append, Function.comp_def]

/-- Recording a signature changes nothing but the output. -/
theorem recordUnknown_eq (locale : LocaleMerge) (signature : String) :
    ∃ output, recordUnknown locale signature = { locale with output } := by
  unfold recordUnknown
  split
  · split
    · exact ⟨locale.output, rfl⟩
    · exact ⟨_, rfl⟩
  · exact ⟨locale.output, rfl⟩

/-- No operation changes what the locales came with or the known expansions. -/
theorem inputs_apply (catalog : Catalog) (operation : Operation) :
    (catalog.apply operation).inputs = catalog.inputs ∧
      (catalog.apply operation).expansions = catalog.expansions := by
  cases operation with
  | key key =>
      obtain ⟨dirty, equal⟩ := catalog.addKey_eq key
      simp only [apply, equal]
      exact ⟨inputs_withLocales _ _ _ (by simp) (by simp), rfl⟩
  | unknown signature =>
      simp only [apply, addUnknown]
      split
      · rename_i keys known
        obtain ⟨dirty, equal⟩ := catalog.addKeys_eq keys
        simp only [equal]
        exact ⟨inputs_withLocales _ _ _ (by simp) (by simp), rfl⟩
      · refine ⟨inputs_withLocales catalog (recordUnknown · signature) _ ?_ ?_, rfl⟩
        · intro locale
          obtain ⟨output, equal⟩ := recordUnknown_eq locale signature
          rw [equal]
        · intro locale
          obtain ⟨output, equal⟩ := recordUnknown_eq locale signature
          rw [equal]

/-- One operation on a catalog whose locales hold some content and a bucket. -/
theorem apply_bucketed (catalog : Catalog) (locales : List LocaleMerge)
    (clean : ∀ locale ∈ locales, locale.Clean) (signatures : List String)
    (held : catalog.locales = locales.map (LocaleMerge.bucketed signatures))
    (operation : Operation) :
    ∃ dirty, catalog.apply operation =
      catalog.withLocales
        (locales.map fun locale =>
          (locale.registerAll catalog.base catalog.baseValue?
              (operation.keys catalog.expansions)).bucketed
            (signatures ++ operation.signatures catalog.expansions)) dirty := by
  have registered (keys : List String) :
      (catalog.locales.map fun locale =>
        locale.registerAll catalog.base catalog.baseValue? keys) =
      locales.map fun locale =>
        (locale.registerAll catalog.base catalog.baseValue? keys).bucketed signatures := by
    rw [held, List.map_map]
    apply List.map_congr_left
    intro locale member
    exact LocaleMerge.registerAll_bucketed (clean locale member) signatures keys
  cases operation with
  | key key =>
      obtain ⟨dirty, equal⟩ := catalog.addKey_eq key
      refine ⟨dirty, ?_⟩
      simp only [apply, equal, Operation.keys, Operation.signatures, registered,
        List.append_nil]
  | unknown signature =>
      cases known : Table.get? catalog.expansions signature with
      | some keys =>
          obtain ⟨dirty, equal⟩ := catalog.addKeys_eq keys
          refine ⟨dirty, ?_⟩
          simp only [apply, addUnknown, known, equal, Operation.keys,
            Operation.signatures, registered, Option.getD_some, List.append_nil]
      | none =>
          refine ⟨(catalog.apply (.unknown signature)).dirty, ?_⟩
          simp only [apply, addUnknown, known, Operation.keys, Operation.signatures,
            Option.getD_none, LocaleMerge.registerAll_nil, withLocales]
          congr 1
          rw [held, List.map_map]
          apply List.map_congr_left
          intro locale member
          exact recordUnknown_withBucket locale (clean locale member).output signatures
            signature

theorem run_append_singleton (catalog : Catalog) (earlier : List Operation)
    (last : Operation) :
    catalog.run (earlier ++ [last]) = (catalog.run earlier).apply last := by
  rw [run, List.foldl_append]
  rfl

/-- A run comes down, in every locale, to the keys it registers and the signatures it
records. -/
theorem run_bucketed (catalog : Catalog) (locales : List LocaleMerge)
    (clean : ∀ locale ∈ locales, locale.Clean)
    (held : catalog.locales = locales) (operations : List Operation) :
    ∃ dirty, catalog.run operations =
      catalog.withLocales
        (locales.map fun locale =>
          (locale.registerAll catalog.base catalog.baseValue?
              (registeredKeys catalog.expansions operations)).bucketed
            (recordedSignatures catalog.expansions operations)) dirty := by
  induction operations using List.reverseRecOn with
  | nil =>
      refine ⟨catalog.dirty, ?_⟩
      subst held
      simp [run, registeredKeys, recordedSignatures, withLocales, LocaleMerge.bucketed]
  | append_singleton earlier operation ih =>
      obtain ⟨dirty, earlierEq⟩ := ih
      have sameBase : (catalog.run earlier).baseValue? = catalog.baseValue? := by
        rw [earlierEq, ← held]
        exact baseValue?_withLocales _ _ _ (by simp [LocaleMerge.bucketed])
          (by simp [LocaleMerge.bucketed])
      obtain ⟨dirty', lastEq⟩ := apply_bucketed (catalog.run earlier)
        (locales.map fun locale => locale.registerAll catalog.base catalog.baseValue?
          (registeredKeys catalog.expansions earlier))
        (by
          intro locale member
          obtain ⟨start, startMember, rfl⟩ := List.mem_map.mp member
          exact (clean start startMember).registerAll _)
        (recordedSignatures catalog.expansions earlier)
        (by simp [earlierEq, withLocales, Function.comp_def]) operation
      refine ⟨dirty', ?_⟩
      rw [run_append_singleton, lastEq, sameBase, earlierEq]
      simp [withLocales, registeredKeys, recordedSignatures,
        LocaleMerge.registerAll_append, Function.comp_def]

theorem baseValue?_ofStore (store : LocaleStore) (base : String)
    (expansions : List (String × List String)) :
    (ofStore store base expansions).baseValue? = store.baseValue? base := by
  funext key
  rw [baseValue?_eq, inputs_ofStore]
  rfl

theorem valueFor_start {locale : String} {input : Value}
    (loaded : store.get? locale = some input) (key : String) :
    (LocaleMerge.start locale input).valueFor (store.baseValue? base key) key =
      store.fallback base locale key := by
  simp [LocaleMerge.valueFor, LocaleMerge.start, LocaleStore.fallback, loaded]

/-- What a run makes of one locale of a store. -/
def finalLocale (store : LocaleStore) (base : String)
    (expansions : List (String × List String)) (operations : List Operation)
    (name : String) (input : Value) : LocaleMerge :=
  ((LocaleMerge.start name input).registerAll base (store.baseValue? base)
      (registeredKeys expansions operations)).bucketed
    (recordedSignatures expansions operations)

@[simp] theorem name_finalLocale (name : String) (input : Value)
    (operations : List Operation) :
    (finalLocale store base expansions operations name input).name = name :=
  LocaleMerge.name_registerAll _

@[simp] theorem input_finalLocale (name : String) (input : Value)
    (operations : List Operation) :
    (finalLocale store base expansions operations name input).input = input :=
  LocaleMerge.input_registerAll _

/-- A run on the catalog of a store changes its locales alone. -/
theorem run_ofStore (store : LocaleStore) (base : String)
    (expansions : List (String × List String)) (operations : List Operation) :
    ∃ dirty, (ofStore store base expansions).run operations =
      (ofStore store base expansions).withLocales
        (store.locales.map fun entry =>
          finalLocale store base expansions operations entry.1 entry.2) dirty := by
  obtain ⟨dirty, equal⟩ := run_bucketed (ofStore store base expansions)
    (ofStore store base expansions).locales
    (by
      intro locale member
      obtain ⟨entry, _, rfl⟩ := List.mem_map.mp member
      exact LocaleMerge.clean_start entry.1 entry.2)
    rfl operations
  refine ⟨dirty, ?_⟩
  rw [equal, baseValue?_ofStore]
  simp [withLocales, ofStore, finalLocale, Function.comp_def]

@[simp] theorem expansions_run (store : LocaleStore) (base : String)
    (expansions : List (String × List String)) (operations : List Operation) :
    ((ofStore store base expansions).run operations).expansions = expansions := by
  obtain ⟨dirty, equal⟩ := run_ofStore store base expansions operations
  rw [equal]
  rfl

/-- The locales at the end of a run on the catalog of a store. -/
theorem locales_run (store : LocaleStore) (base : String)
    (expansions : List (String × List String)) (operations : List Operation) :
    ((ofStore store base expansions).run operations).locales =
      store.locales.map fun entry =>
        finalLocale store base expansions operations entry.1 entry.2 := by
  obtain ⟨dirty, equal⟩ := run_ofStore store base expansions operations
  rw [equal]
  rfl

/-- The outputs at the end of a run, locale by locale. -/
theorem outputs_run (store : LocaleStore) (base : String)
    (expansions : List (String × List String)) (operations : List Operation) :
    ((ofStore store base expansions).run operations).outputs =
      store.locales.map fun entry =>
        (entry.1, (finalLocale store base expansions operations entry.1 entry.2).output) := by
  rw [outputs, locales_run, List.map_map]
  simp only [Function.comp_def, name_finalLocale]

theorem baseValue?_run (store : LocaleStore) (base : String)
    (expansions : List (String × List String)) (operations : List Operation) :
    ((ofStore store base expansions).run operations).baseValue? = store.baseValue? base := by
  have inputs : ((ofStore store base expansions).run operations).inputs = store.locales := by
    rw [Catalog.inputs, locales_run, List.map_map]
    simp [Function.comp_def]
  obtain ⟨dirty, equal⟩ := run_ofStore store base expansions operations
  funext key
  rw [baseValue?_eq, inputs, equal]
  rfl

/-- What lookup finds in the outputs and in the report at the end of a run. -/
theorem get?_outputs_finalLocale (store : LocaleStore) (base : String)
    (expansions : List (String × List String)) (operations : List Operation)
    (locale : String) :
    Table.get? ((ofStore store base expansions).run operations).outputs locale =
      (store.get? locale).map fun input =>
        (finalLocale store base expansions operations locale input).output := by
  rw [outputs_run, Table.get?_map _ fun name input =>
    (finalLocale store base expansions operations name input).output]
  rfl

theorem get?_untranslated_finalLocale (store : LocaleStore) (base : String)
    (expansions : List (String × List String)) (operations : List Operation)
    (locale : String) :
    Table.get? ((ofStore store base expansions).run operations).untranslated locale =
      (store.get? locale).bind fun input =>
        (finalLocale store base expansions operations locale input).report := by
  rw [untranslated, locales_run, List.filterMap_map]
  simp only [Function.comp_def, name_finalLocale]
  exact Table.get?_filterMap store.increasing.nodup
    (fun name input => (finalLocale store base expansions operations name input).report) locale

end Catalog
end Phrasebook
