import Phrasebook.Proofs.Catalog.Dirty
import Phrasebook.Proofs.Catalog.Outcomes
import Phrasebook.Proofs.Catalog.Signatures

/-!
# Repeated operations

An operation that was made before finds its signature recorded, and each of its keys in the
output or blocked there.  So making it again changes no output.  But a key that is blocked is
missing each time: the answer names it as added, and a locale that lacks it has its value
written into the report once more.
-/

namespace Phrasebook

open Json KeyPath Catalog

namespace LocaleMerge

variable {locale : LocaleMerge} {base key : String} {baseValue : Option Value}

/-- Whether the output has no place for a key that can be registered. -/
def blocks (locale : LocaleMerge) (key : String) : Bool :=
  accepts key && decide (Blocked locale.output (segments key))

/-- Whether a key without a place in the output counts as untranslated. -/
def relists (locale : LocaleMerge) (base : String) (baseValue : Option Value)
    (key : String) : Bool :=
  locale.blocks key && locale.lacks base baseValue key

/-- The locale with the value of such a key written into its report. -/
def relist (locale : LocaleMerge) (base : String) (baseValue : Option Value)
    (key : String) : LocaleMerge :=
  if locale.relists base baseValue key then
    { locale with
      report := some (set (locale.report.getD (.object [])) key
        (locale.valueFor baseValue key)) }
  else locale

@[simp] theorem name_relist : (locale.relist base baseValue key).name = locale.name := by
  unfold relist
  split <;> rfl

@[simp] theorem input_relist : (locale.relist base baseValue key).input = locale.input := by
  unfold relist
  split <;> rfl

@[simp] theorem output_relist : (locale.relist base baseValue key).output = locale.output := by
  unfold relist
  split <;> rfl

/-- An output that has no place for a key has members. -/
theorem output_ne_of_blocks (blocks : locale.blocks key = true) :
    locale.output ≠ .object [] := by
  intro empty
  simp only [LocaleMerge.blocks, empty, Bool.and_eq_true, decide_eq_true_eq] at blocks
  exact not_blocked_empty _ blocks.2

/-- What a key finds that was registered before: no member in its way, and a translation or
a blocked path. -/
structure Settles (locale : LocaleMerge) (key : String) : Prop where
  plain : Plain locale.output
  accepted : accepts key = true
  settled : locale.has key = true ∨ Blocked locale.output (segments key)

/-- A key that was registered before is missing where it has no place. -/
theorem Settles.has (settles : locale.Settles key) :
    (!locale.has key) = locale.blocks key := by
  cases has : locale.has key with
  | true =>
      have free : ¬ Blocked locale.output (segments key) := by
        intro blocked
        rw [LocaleMerge.has, truthy?,
          get?_of_plain settles.plain (segments_ne_nil settles.accepted),
          follow?_of_blocked blocked] at has
        cases has
      simp [blocks, free]
  | false =>
      have blocked := settles.settled.resolve_left (by simp [has])
      simp [blocks, settles.accepted, blocked]

/-- Registering a key again rewrites the report at most. -/
theorem Settles.register (settles : locale.Settles key) (base : String)
    (baseValue : Option Value) :
    locale.register base baseValue key = locale.relist base baseValue key := by
  have missing := settles.has
  unfold LocaleMerge.register relist relists
  rw [← missing]
  cases has : locale.has key with
  | true => simp
  | false =>
      have blocked := settles.settled.resolve_left (by simp [has])
      have accepted := settles.accepted
      have unchanged : set locale.output key (locale.valueFor baseValue key) = locale.output := by
        rw [set_eq_write (segments_ne_nil accepted), write_of_blocked blocked]
      simp only [add, unchanged, Bool.not_false, Bool.true_and, Bool.false_eq_true, if_false]
      split <;> rfl

end LocaleMerge

namespace Catalog

variable {store : LocaleStore} {base key : String} {locale : LocaleMerge}
variable {expansions : List (String × List String)} {operations : List Operation}

/-- The locales whose output has no place for a key. -/
def blockedIn (catalog : Catalog) (key : String) : List String :=
  (catalog.locales.filter fun locale => locale.blocks key).map LocaleMerge.name

/-- The locales among them that lack the key. -/
def relistedIn (catalog : Catalog) (key : String) : List String :=
  (catalog.locales.filter fun locale =>
    locale.relists catalog.base (catalog.baseValue? key) key).map LocaleMerge.name

/-- The catalog with the values of keys written into the reports of the locales that lack
them and have no place for them. -/
def relist (catalog : Catalog) (keys : List String) : Catalog :=
  catalog.withLocales
    (catalog.locales.map fun locale =>
      keys.foldl (fun locale key =>
        locale.relist catalog.base (catalog.baseValue? key) key) locale)
    catalog.dirty

@[simp] theorem relist_nil (catalog : Catalog) : catalog.relist [] = catalog := by
  simp [relist, withLocales]

theorem relist_cons (catalog : Catalog) (key : String) (rest : List String) :
    (catalog.relist [key]).relist rest = catalog.relist (key :: rest) := by
  have sameBase : (catalog.relist [key]).baseValue? = catalog.baseValue? :=
    baseValue?_withLocales catalog _ catalog.dirty (by simp) (by simp)
  rw [relist, sameBase]
  simp [relist, withLocales, Function.comp_def]

theorem outputs_relist (catalog : Catalog) (keys : List String) :
    (catalog.relist keys).outputs = catalog.outputs := by
  induction keys generalizing catalog with
  | nil => rw [relist_nil]
  | cons key rest ih =>
      rw [← relist_cons, ih]
      simp [relist, withLocales, outputs, Function.comp_def]

/-- Where no locale lacks a key without a place, nothing is rewritten. -/
theorem relist_of_none (catalog : Catalog) {keys : List String}
    (unlisted : ∀ key ∈ keys, catalog.relistedIn key = []) : catalog.relist keys = catalog := by
  induction keys with
  | nil => exact relist_nil catalog
  | cons key rest ih =>
      have head : catalog.relist [key] = catalog := by
        have same : ∀ locale ∈ catalog.locales,
            locale.relist catalog.base (catalog.baseValue? key) key = locale := by
          intro locale member
          have here := unlisted key List.mem_cons_self
          simp only [relistedIn, List.map_eq_nil_iff, List.filter_eq_nil_iff] at here
          exact if_neg (here locale member)
        simp only [relist, List.foldl_cons, List.foldl_nil, List.map_congr_left same,
          List.map_id']
        rfl
      rw [← relist_cons, head]
      exact ih fun other member => unlisted other (List.mem_cons_of_mem _ member)

/-- A key that cannot be registered is blocked nowhere. -/
theorem blockedIn_of_not_accepts (refused : accepts key = false) (catalog : Catalog) :
    catalog.blockedIn key = [] ∧ catalog.relistedIn key = [] := by
  simp [blockedIn, relistedIn, LocaleMerge.relists, LocaleMerge.blocks, refused]

theorem output_eq_content
    (member : locale ∈ ((ofStore store base expansions).run operations).locales) :
    locale.output = withBucket (recordedSignatures expansions operations)
      (content store base expansions operations locale.name) := by
  have present : (locale.name, locale.output) ∈
      ((ofStore store base expansions).run operations).outputs :=
    List.mem_map_of_mem member
  exact outputs_eq_content present

/-- The locales of a run settle every key that was registered. -/
theorem settles_run (registered : key ∈ registeredKeys expansions operations)
    (accepted : accepts key = true)
    (member : locale ∈ ((ofStore store base expansions).run operations).locales) :
    locale.Settles key where
  plain := by
    rw [output_eq_content member]
    exact plain_withBucket mapping_content _
  accepted := accepted
  settled :=
    truthy_or_blocked_outputs accepted registered
      (get?_of_mem_outputs (List.mem_map_of_mem member))

/-- Adding a key again answers with the locales that have no place for it, and rewrites the
reports of those that lack it. -/
theorem addKey_of_registered (registered : key ∈ registeredKeys expansions operations) :
    let catalog := (ofStore store base expansions).run operations
    catalog.addKey key =
      (catalog.relist [key], ⟨catalog.blockedIn key, catalog.relistedIn key⟩) := by
  intro catalog
  cases accepted : accepts key with
  | false =>
      obtain ⟨placed, unlisted⟩ := blockedIn_of_not_accepts accepted catalog
      rw [placed, unlisted, catalog.relist_of_none (by simpa using unlisted), addKey, accepted]
      rfl
  | true =>
      have settled (locale : LocaleMerge) (member : locale ∈ catalog.locales) :
          locale.Settles key :=
        settles_run registered accepted member
      have fresh : (catalog.locales.filter fun locale => !locale.has key) =
          catalog.locales.filter fun locale => locale.blocks key :=
        List.filter_congr fun locale member => (settled locale member).has
      have lacking : ((catalog.locales.filter fun locale => locale.blocks key).filter
            fun locale => locale.lacks catalog.base (catalog.baseValue? key) key) =
          catalog.locales.filter fun locale =>
            locale.relists catalog.base (catalog.baseValue? key) key := by
        rw [List.filter_filter]
        exact List.filter_congr fun locale _ => Bool.and_comm _ _
      have relisted : (catalog.locales.map fun locale =>
            locale.register catalog.base (catalog.baseValue? key) key) =
          catalog.locales.map fun locale =>
            locale.relist catalog.base (catalog.baseValue? key) key :=
        List.map_congr_left fun locale member => (settled locale member).register _ _
      -- What blocks the key is in the output, so the flag was set before.
      have dirty : (catalog.dirty ||
          !(catalog.locales.filter fun locale => locale.blocks key).isEmpty) = catalog.dirty := by
        have flagged : Flagged catalog := (flagged_ofStore store base expansions).run operations
        simp only [Bool.or_eq_left_iff_imp, Bool.not_eq_true', List.isEmpty_eq_false_iff]
        intro present
        obtain ⟨locale, member⟩ := List.exists_mem_of_ne_nil _ present
        obtain ⟨held, blocks⟩ := List.mem_filter.mp member
        exact flagged.dirty.mpr ⟨locale, held, LocaleMerge.output_ne_of_blocks blocks⟩
      simp only [addKey, accepted, if_true, fresh, relisted, dirty, lacking]
      rfl

/-- So it is with one such key after the other. -/
theorem addKeys_of_registered {keys : List String}
    (registered : ∀ key ∈ keys, key ∈ registeredKeys expansions operations) :
    ((ofStore store base expansions).run operations).addKeys keys =
      ((ofStore store base expansions).run operations).relist keys := by
  induction keys generalizing operations with
  | nil => rw [relist_nil, addKeys, List.foldl_nil]
  | cons key rest ih =>
      have head : ((ofStore store base expansions).run operations).addKey key = _ :=
        addKey_of_registered (registered key List.mem_cons_self)
      have longer : ((ofStore store base expansions).run operations).relist [key] =
          (ofStore store base expansions).run (operations ++ [.key key]) := by
        rw [run_append_singleton, apply, head]
      rw [← relist_cons, longer, addKeys, List.foldl_cons, head, longer]
      apply ih
      intro other member
      rw [registeredKeys_append, List.mem_append]
      exact .inl (registered other (List.mem_cons_of_mem _ member))

/-- Where its signature is recorded, a call without a known expansion changes nothing. -/
theorem addUnknown_of_recorded {signature : String}
    (recorded : signature ∈ recordedSignatures expansions operations) :
    (((ofStore store base expansions).run operations).addUnknown signature).1 =
      (ofStore store base expansions).run operations := by
  generalize same : (ofStore store base expansions).run operations = catalog
  have flagged : Flagged catalog := by
    rw [← same]
    exact (flagged_ofStore store base expansions).run operations
  have unexpanded : Table.get? catalog.expansions signature = none := by
    rw [← same, expansions_run]
    exact (mem_recordedSignatures.mp recorded).2
  have known (locale : LocaleMerge) (member : locale ∈ catalog.locales) :
      takesUnknown locale.output signature = false := by
    obtain ⟨members, object⟩ := flagged.objects locale member
    have has : bucketHas locale.output signature = true := by
      rw [← same] at member
      rw [output_eq_content member, bucketHas_withBucket mapping_content]
      exact decide_eq_true recorded
    rw [object] at has ⊢
    rw [takesUnknown, has]
    rfl
  have kept : catalog.locales.map (recordUnknown · signature) = catalog.locales := by
    rw [List.map_congr_left fun locale member =>
      (touches_recordUnknown (flagged.objects locale member) signature).kept (known locale member)]
    exact List.map_id' _
  have none : catalog.locales.any (fun locale => takesUnknown locale.output signature) = false := by
    simpa using known
  simp only [addUnknown, unexpanded, kept, none, Bool.or_false]

/-- Making an operation again comes down to the reports that are rewritten. -/
theorem apply_of_made {operation : Operation} (made : operation ∈ operations) :
    ((ofStore store base expansions).run operations).apply operation =
      ((ofStore store base expansions).run operations).relist (operation.keys expansions) := by
  have registered (key : String) (member : key ∈ operation.keys expansions) :
      key ∈ registeredKeys expansions operations :=
    List.mem_flatMap.mpr ⟨operation, made, member⟩
  cases operation with
  | key key => rw [apply, addKey_of_registered (registered key List.mem_cons_self)]; rfl
  | unknown signature =>
      cases known : Table.get? expansions signature with
      | some keys =>
          rw [Operation.keys, known, Option.getD_some] at registered ⊢
          rw [← addKeys_of_registered registered]
          simp only [apply, addUnknown, expansions_run, known]
      | none =>
          rw [Operation.keys, known, Option.getD_none, relist_nil]
          exact addUnknown_of_recorded (mem_recordedSignatures.mpr ⟨made, known⟩)

end Catalog
end Phrasebook
