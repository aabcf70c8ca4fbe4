import Phrasebook.Proofs.Catalog.Run

/-!
# The dirty flag

A catalog is dirty once something was merged into the output of one of its locales.  An
operation sets the flag if it changes a locale, and changing a locale leaves members in
its output, even where the path of a key is blocked: what blocks it is in the output.
-/

namespace Phrasebook.Catalog

open Json KeyPath

variable {catalog : Catalog} {locale : LocaleMerge} {key signature : String}

/-- The flag of a catalog is set if the output of some locale has members.  A locale with a
report has such an output. -/
structure Flagged (catalog : Catalog) : Prop where
  objects : ∀ locale ∈ catalog.locales, ∃ members, locale.output = .object members
  dirty : catalog.dirty = true ↔ ∃ locale ∈ catalog.locales, locale.output ≠ .object []
  report : ∀ locale ∈ catalog.locales, locale.report ≠ none → locale.output ≠ .object []

theorem flagged_ofStore (store : LocaleStore) (base : String)
    (expansions : List (String × List String)) :
    Flagged (ofStore store base expansions) where
  objects := by
    intro locale member
    obtain ⟨entry, _, rfl⟩ := List.mem_map.mp member
    exact ⟨[], rfl⟩
  dirty := by
    constructor
    · intro dirty
      cases dirty
    · rintro ⟨locale, member, touched⟩
      obtain ⟨entry, _, rfl⟩ := List.mem_map.mp member
      exact absurd rfl touched
  report := by
    intro locale member reported
    obtain ⟨entry, _, rfl⟩ := List.mem_map.mp member
    exact absurd rfl reported

/-- What holds of a change of one locale: it leaves members in the output, or it is none. -/
structure Touches (image : LocaleMerge → LocaleMerge) (changed : LocaleMerge → Bool)
    (locale : LocaleMerge) : Prop where
  touched : changed locale = true →
    ∃ members, (image locale).output = .object members ∧ members ≠ []
  kept : changed locale = false → image locale = locale

theorem Touches.members {image : LocaleMerge → LocaleMerge} {changed : LocaleMerge → Bool}
    (touches : Touches image changed locale) (isChanged : changed locale = true) :
    (image locale).output ≠ .object [] := by
  obtain ⟨members, equal, present⟩ := touches.touched isChanged
  rw [equal]
  exact fun same => present (Value.object.inj same)

/-- A step that changes some locales, and sets the flag if it changes any, keeps the flag
right. -/
theorem Flagged.step {image : LocaleMerge → LocaleMerge} {changed : LocaleMerge → Bool}
    (flagged : Flagged catalog)
    (touches : ∀ locale ∈ catalog.locales, Touches image changed locale) :
    Flagged (catalog.withLocales (catalog.locales.map image)
      (catalog.dirty || catalog.locales.any changed)) where
  objects := by
    intro later member
    obtain ⟨locale, held, rfl⟩ := List.mem_map.mp member
    cases isChanged : changed locale with
    | true =>
        obtain ⟨members, equal, _⟩ := (touches locale held).touched isChanged
        exact ⟨members, equal⟩
    | false =>
        rw [(touches locale held).kept isChanged]
        exact flagged.objects locale held
  dirty := by
    simp only [withLocales, Bool.or_eq_true, List.any_eq_true]
    constructor
    · rintro (dirty | ⟨locale, held, isChanged⟩)
      · obtain ⟨locale, held, touched⟩ := flagged.dirty.mp dirty
        refine ⟨image locale, List.mem_map_of_mem held, ?_⟩
        cases isChanged : changed locale with
        | true => exact (touches locale held).members isChanged
        | false => rwa [(touches locale held).kept isChanged]
      · exact ⟨image locale, List.mem_map_of_mem held,
          (touches locale held).members isChanged⟩
    · rintro ⟨later, member, touched⟩
      obtain ⟨locale, held, rfl⟩ := List.mem_map.mp member
      cases isChanged : changed locale with
      | true => exact .inr ⟨locale, held, isChanged⟩
      | false =>
          rw [(touches locale held).kept isChanged] at touched
          exact .inl (flagged.dirty.mpr ⟨locale, held, touched⟩)
  report := by
    intro later member reported
    obtain ⟨locale, held, rfl⟩ := List.mem_map.mp member
    cases isChanged : changed locale with
    | true => exact (touches locale held).members isChanged
    | false =>
        rw [(touches locale held).kept isChanged] at reported ⊢
        exact flagged.report locale held reported

theorem touches_register (object : ∃ members, locale.output = .object members)
    (accepted : accepts key = true) (base : String) (baseValue : Option Value) :
    Touches (fun locale => locale.register base baseValue key) (fun locale => !locale.has key)
      locale where
  touched := by
    intro missing
    obtain ⟨members, equal⟩ := object
    obtain ⟨segment, rest, path, _⟩ := accepts_iff.mp accepted
    have lacking : ¬ locale.has key = true := by simpa using missing
    refine ⟨_, ?_, Table.put_ne_nil members segment
      (write (prepared rest (below (.object members) segment)) rest
        (locale.valueFor baseValue key))⟩
    rw [LocaleMerge.register, if_neg lacking, LocaleMerge.add, Mapping.set_eq_write accepted,
      equal, path, write_cons, fill_object]
  kept := by
    intro present
    have has : locale.has key = true := by simpa using present
    rw [LocaleMerge.register, if_pos has]

theorem touches_recordUnknown (object : ∃ members, locale.output = .object members)
    (signature : String) :
    Touches (recordUnknown · signature) (fun locale => takesUnknown locale.output signature)
      locale := by
  obtain ⟨members, equal⟩ := object
  constructor
  · intro missing
    have lacking : ¬ bucketHas locale.output signature = true := by
      simpa [takesUnknown, equal] using missing
    refine ⟨insertUnknown members signature, ?_, ?_⟩
    · unfold recordUnknown
      rw [equal] at lacking ⊢
      exact congrArg LocaleMerge.output (if_neg lacking)
    · unfold insertUnknown
      split
      · exact Table.put_ne_nil _ _ _
      · simp
  · intro present
    have has : bucketHas locale.output signature = true := by
      simpa [takesUnknown, equal] using present
    unfold recordUnknown
    rw [equal] at has ⊢
    exact if_pos has

theorem Flagged.addKey (flagged : Flagged catalog) (key : String) :
    Flagged (catalog.addKey key).1 := by
  unfold Catalog.addKey
  split
  · rename_i accepted
    have fresh : (!(catalog.locales.filter fun locale => !locale.has key).isEmpty) =
        catalog.locales.any fun locale => !locale.has key := by
      rw [Bool.eq_iff_iff]
      simp [List.filter_eq_nil_iff]
    simp only [fresh]
    apply flagged.step
    intro locale member
    exact touches_register (flagged.objects locale member) accepted _ _
  · exact flagged

theorem Flagged.addKeys (flagged : Flagged catalog) (keys : List String) :
    Flagged (catalog.addKeys keys) := by
  induction keys generalizing catalog with
  | nil => exact flagged
  | cons key rest ih => exact ih (flagged.addKey key)

theorem Flagged.apply (flagged : Flagged catalog) (operation : Operation) :
    Flagged (catalog.apply operation) := by
  cases operation with
  | key key => exact flagged.addKey key
  | unknown signature =>
      cases known : Table.get? catalog.expansions signature with
      | some keys =>
          simp only [Catalog.apply, addUnknown, known]
          exact flagged.addKeys keys
      | none =>
          simp only [Catalog.apply, addUnknown, known]
          apply flagged.step
          intro locale member
          exact touches_recordUnknown (flagged.objects locale member) signature

/-- After every run the flag of a catalog is right. -/
theorem Flagged.run (flagged : Flagged catalog) (operations : List Operation) :
    Flagged (catalog.run operations) := by
  induction operations generalizing catalog with
  | nil => exact flagged
  | cons operation rest ih => exact ih (flagged.apply operation)

/-- A catalog is clean if all its outputs are empty. -/
theorem Flagged.clean_iff (flagged : Flagged catalog) :
    catalog.dirty = false ↔ ∀ entry ∈ catalog.outputs, entry.2 = .object [] := by
  rw [← not_iff_not, Bool.not_eq_false, flagged.dirty]
  simp [outputs]

/-- A catalog with a report is dirty. -/
theorem Flagged.dirty_of_untranslated (flagged : Flagged catalog)
    (reported : catalog.untranslated ≠ []) : catalog.dirty = true := by
  obtain ⟨entry, member⟩ := List.exists_mem_of_ne_nil _ reported
  obtain ⟨locale, member, image⟩ := List.mem_filterMap.mp member
  apply flagged.dirty.mpr
  refine ⟨locale, member, flagged.report locale member ?_⟩
  intro none
  rw [none] at image
  cases image

end Phrasebook.Catalog
