import Phrasebook.Proofs.Catalog.Order

/-!
# Independent keys

When the keys of a run are independent, each of them gets what it would get alone: its
place is free until its turn comes, and no other key disturbs it afterwards, neither in
the output nor in the report.  And the order of the operations does not matter.
-/

namespace Phrasebook

open Json KeyPath Catalog

variable {value new : Value} {path away : List String}

/-- Whether a locale other than the base has no translation of its own for a key, or the
very one of the base language. -/
def LocaleStore.Lacks (store : LocaleStore) (base locale key : String) : Prop :=
  locale ≠ base ∧
    ∀ input own, store.get? locale = some input → truthy? input key = some own →
      ∃ shared, store.baseValue? base key = some shared ∧ own.same shared = true

namespace KeyPath

/-- Nothing is at the end of the path, and nothing blocks it. -/
structure Free (value : Value) (path : List String) : Prop where
  vacant : reach value path = .null
  unblocked : ¬ Blocked value path

theorem free_empty (proper : path ≠ []) : Free (.object []) path := by
  obtain ⟨segment, rest, rfl⟩ := List.exists_cons_of_ne_nil proper
  constructor
  · rw [reach_cons]
    exact reach_null rest
  · rw [blocked_cons]
    rintro (⟨_, noSlot⟩ | blocked)
    · simp [slot?] at noSlot
    · exact absurd blocked.isContainer (by simp [Value.isContainer])

theorem Free.write (free : Free value path) (apart : Apart path away) (new : Value) :
    Free (write value away new) path where
  vacant := (apart.reach_write value new).trans free.vacant
  unblocked := fun blocked => free.unblocked ((apart.blocked_write value new).mp blocked)

theorem Free.merge (free : Free value path) (apart : Apart path away) (new : Value) :
    Free (merge value away new) path where
  vacant := (apart.reach_merge value new).trans free.vacant
  unblocked := fun blocked => free.unblocked ((apart.blocked_merge value new).mp blocked)

end KeyPath

namespace LocaleMerge

variable {locale : LocaleMerge} {base key other : String}
variable {baseValue : Option Value} {baseValue? : String → Option Value}
variable {keys : List String} {reported : Bool}

/-- The places of a key are free. -/
structure Fresh (locale : LocaleMerge) (key : String) : Prop where
  output : Free locale.output (segments key)
  report : Free (locale.report.getD (.object [])) (segments key)

/-- A key has its value, in the report only if it counts as untranslated. -/
structure Settled (locale : LocaleMerge) (key : String) (value : Value) (reported : Bool) :
    Prop where
  output : reach locale.output (segments key) = value
  report : reach (locale.report.getD (.object [])) (segments key) =
    if reported then value else .null

theorem fresh_start (accepted : accepts key = true) (name : String) (input : Value) :
    Fresh (start name input) key :=
  ⟨free_empty (segments_ne_nil accepted), free_empty (segments_ne_nil accepted)⟩

/-- Registering a key apart leaves the places free. -/
theorem Fresh.register (fresh : Fresh locale key) (clean : Clean locale)
    (accepted : accepts other = true) (apart : Apart (segments key) (segments other)) :
    Fresh (locale.register base baseValue other) key where
  output := by
    rw [output_register clean accepted]
    exact fresh.output.merge apart _
  report := by
    rw [report_register clean accepted]
    split
    · exact fresh.report.write apart _
    · exact fresh.report

/-- Registering the key itself settles it. -/
theorem Fresh.settles (fresh : Fresh locale key) (clean : Clean locale)
    (accepted : accepts key = true) :
    Settled (locale.register base baseValue key) key (locale.valueFor baseValue key)
      (locale.lacks base baseValue key) where
  output := by
    rw [output_register clean accepted,
      merge_of_vacant (by rw [fresh.output.vacant]; decide)]
    exact reach_write (fun _ => clean.output.isContainer) fresh.output.unblocked _
  report := by
    rw [report_register clean accepted, fresh.output.vacant]
    cases locale.lacks base baseValue key with
    | true =>
        exact reach_write (fun _ => clean.mapping_report.isContainer)
          fresh.report.unblocked _
    | false => exact fresh.report.vacant

/-- A settled key stays so when a key apart, or the key itself, is registered. -/
theorem Settled.register (settled : Settled locale key value reported)
    (truthy : value.isTruthy = true) (clean : Clean locale) (accepted : accepts other = true)
    (apart : key ≠ other → Apart (segments key) (segments other)) :
    Settled (locale.register base baseValue other) key value reported := by
  by_cases same : key = other
  · subst same
    have has : locale.has key = true := by
      rw [has_iff clean accepted, settled.output, truthy]
    rwa [LocaleMerge.register, if_pos has]
  · constructor
    · rw [output_register clean accepted, (apart same).reach_merge, settled.output]
    · rw [report_register clean accepted]
      split
      · exact ((apart same).reach_write _ _).trans settled.report
      · exact settled.report

/-- A translation in the report is what its path leads to there. -/
theorem truthy?_report_iff (clean : Clean locale) (accepted : accepts key = true) :
    (∃ report, locale.report = some report ∧ truthy? report key = some value) ↔
      reach (locale.report.getD (.object [])) (segments key) = value ∧
        value.isTruthy = true := by
  have present := segments_ne_nil accepted
  cases found : locale.report with
  | none =>
      rw [Option.getD_none, (free_empty present).vacant]
      constructor
      · rintro ⟨report, absent, _⟩
        cases absent
      · rintro ⟨rfl, falsy⟩
        cases falsy
  | some report =>
      rw [Option.getD_some, ← truthy?_eq_some_iff (clean.report report found).plain present]
      constructor
      · rintro ⟨_, ⟨rfl⟩, reads⟩
        exact reads
      · exact fun reads => ⟨report, rfl, reads⟩

/-- Among independent keys every accepted one is settled in the end. -/
theorem settled_registerAll (independent : Independent keys) (member : key ∈ keys)
    (accepted : accepts key = true) (name : String) (input : Value)
    (truthy : ((start name input).valueFor (baseValue? key) key).isTruthy = true) :
    Settled ((start name input).registerAll base baseValue? keys) key
      ((start name input).valueFor (baseValue? key) key)
      ((start name input).lacks base (baseValue? key) key) := by
  obtain ⟨before, rest, rfl, first⟩ := List.eq_append_cons_of_mem member
  have apart (other : String) (member : other ∈ before ++ key :: rest)
      (acceptedOther : accepts other = true) (different : key ≠ other) :
      Apart (segments key) (segments other) :=
    independent key (by simp) other member accepted acceptedOther different
  have fresh : ((start name input).registerAll base baseValue? before).Clean ∧
      Fresh ((start name input).registerAll base baseValue? before) key := by
    apply registerAll_induction (motive := fun locale => locale.Clean ∧ Fresh locale key)
    · exact ⟨clean_start name input, fresh_start accepted name input⟩
    · rintro locale other member acceptedOther ⟨clean, fresh⟩
      have different : key ≠ other := fun equal => first (equal ▸ member)
      exact ⟨clean.register acceptedOther, fresh.register clean acceptedOther
        (apart other (List.mem_append_left _ member) acceptedOther different)⟩
  have sameValue : ((start name input).registerAll base baseValue? before).valueFor
      (baseValue? key) key = (start name input).valueFor (baseValue? key) key := by
    simp only [valueFor, input_registerAll]
  have sameLack : ((start name input).registerAll base baseValue? before).lacks base
      (baseValue? key) key = (start name input).lacks base (baseValue? key) key := by
    simp only [lacks, name_registerAll, input_registerAll]
  have settled : Settled (((start name input).registerAll base baseValue? before).register
      base (baseValue? key) key) key _ _ := fresh.2.settles fresh.1 accepted
  rw [sameValue, sameLack] at settled
  rw [registerAll_append, registerAll_cons, registerAll_singleton accepted]
  refine (registerAll_induction (motive := fun locale => locale.Clean ∧
    Settled locale key ((start name input).valueFor (baseValue? key) key)
      ((start name input).lacks base (baseValue? key) key)) rest
    ⟨fresh.1.register accepted, settled⟩ ?_).2
  rintro locale other member acceptedOther ⟨clean, settled⟩
  exact ⟨clean.register acceptedOther, settled.register truthy clean acceptedOther
    (apart other (by simp [member]) acceptedOther)⟩

end LocaleMerge

/-! ## All keys in all locales -/

namespace Catalog

variable {store : LocaleStore} {base locale key : String} {input : Value}
variable {expansions : List (String × List String)} {operations : List Operation}

theorem lacks_start (loaded : store.get? locale = some input) (key : String) :
    (LocaleMerge.start locale input).lacks base (store.baseValue? base key) key = true ↔
      store.Lacks base locale key := by
  rw [LocaleMerge.lacks, LocaleStore.Lacks, Bool.and_eq_true, decide_eq_true_iff]
  refine and_congr Iff.rfl ?_
  dsimp only [LocaleMerge.start]
  cases found : truthy? input key with
  | none =>
      refine ⟨fun _ other own held translated => ?_, fun _ => rfl⟩
      rw [loaded, Option.some.injEq] at held
      rw [← held, found] at translated
      cases translated
  | some own =>
      rw [Option.any_eq_true]
      constructor
      · intro shares other translation held translated
        rw [loaded, Option.some.injEq] at held
        rw [← held, found, Option.some.injEq] at translated
        rwa [← translated]
      · intro shares
        exact shares input own loaded found

/-- What a run of independent keys makes of one of them in a locale. -/
theorem settled_finalLocale (independent : Independent (registeredKeys expansions operations))
    (registered : key ∈ registeredKeys expansions operations) (accepted : accepts key = true)
    (loaded : store.get? locale = some input) :
    LocaleMerge.Settled
      ((LocaleMerge.start locale input).registerAll base (store.baseValue? base)
        (registeredKeys expansions operations))
      key (store.fallback base locale key)
      ((LocaleMerge.start locale input).lacks base (store.baseValue? base key) key) := by
  rw [← valueFor_start loaded]
  apply LocaleMerge.settled_registerAll independent registered accepted
  rw [valueFor_start loaded]
  exact isTruthy_fallback accepted

/-- Every key gets the specified value in every locale, and the report has it just where
it counts as untranslated. -/
theorem merged_as_specified (independent : Independent (registeredKeys expansions operations))
    (registered : key ∈ registeredKeys expansions operations) (accepted : accepts key = true)
    (loaded : store.get? locale = some input) :
    ∃ output,
      Table.get? ((ofStore store base expansions).run operations).outputs locale =
          some output ∧
        get? output key = some (store.fallback base locale key) ∧
        ∀ value,
          (∃ report,
              Table.get? ((ofStore store base expansions).run operations).untranslated locale =
                some report ∧ truthy? report key = some value) ↔
            store.Lacks base locale key ∧ get? output key = some value := by
  have present := segments_ne_nil accepted
  have truthy : (store.fallback base locale key).isTruthy = true := isTruthy_fallback accepted
  have settled : LocaleMerge.Settled _ key (store.fallback base locale key) _ :=
    settled_finalLocale independent registered accepted loaded
  have clean : LocaleMerge.Clean ((LocaleMerge.start locale input).registerAll base
      (store.baseValue? base) (registeredKeys expansions operations)) :=
    (LocaleMerge.clean_start locale input).registerAll _
  have reads : get? (finalLocale store base expansions operations locale input).output key =
      some (store.fallback base locale key) := by
    rw [finalLocale, LocaleMerge.bucketed, get?_withBucket clean.output accepted,
      get?_eq_some_iff clean.output.plain present (ne_null_of_isTruthy truthy)]
    exact settled.output
  refine ⟨_, by rw [get?_outputs_finalLocale, loaded, Option.map_some], reads, fun value => ?_⟩
  rw [reads, get?_untranslated_finalLocale, loaded, Option.bind_some, Option.some.injEq,
    ← lacks_start loaded]
  refine (LocaleMerge.truthy?_report_iff clean accepted).trans ?_
  rw [settled.report]
  cases (LocaleMerge.start locale input).lacks base (store.baseValue? base key) key with
  | true =>
      refine ⟨fun both => ⟨rfl, both.1⟩, fun both => ⟨both.2, ?_⟩⟩
      rwa [← both.2]
  | false =>
      refine ⟨?_, fun both => absurd both.1 (by decide)⟩
      rintro ⟨rfl, falsy⟩
      cases falsy

/-- Independent keys are merged as specified, and every order of the operations makes the
same outputs and reports, but for the order of object members. -/
theorem independent_keys_merge_as_specified (store : LocaleStore) (base : String)
    (independent : Independent (registeredKeys expansions operations)) :
    (∀ key ∈ registeredKeys expansions operations, accepts key = true →
        ∀ locale input, store.get? locale = some input →
          ∃ output,
            Table.get? ((ofStore store base expansions).run operations).outputs locale =
                some output ∧
              get? output key = some (store.fallback base locale key) ∧
              ∀ value,
                (∃ report,
                    Table.get? ((ofStore store base expansions).run operations).untranslated
                        locale = some report ∧ truthy? report key = some value) ↔
                  store.Lacks base locale key ∧ get? output key = some value) ∧
      ∀ permuted : List Operation, operations.Perm permuted →
        ReorderedTables ((ofStore store base expansions).run operations).outputs
            ((ofStore store base expansions).run permuted).outputs ∧
          ReorderedTables ((ofStore store base expansions).run operations).untranslated
            ((ofStore store base expansions).run permuted).untranslated := by
  constructor
  · intro key registered accepted locale input loaded
    exact merged_as_specified independent registered accepted loaded
  · intro permuted perm
    have alike := run_perm perm independent store base
    exact ⟨reorderedTables_outputs alike, reorderedTables_untranslated alike⟩

/-- A store whose base language has a title and two steps. -/
def stepsStore : LocaleStore :=
  .ofLocales
    [("en", .object
        [("title", .string "Title"), ("steps", .array [.string "One", .string "Two"])]),
      ("fr", .object [("title", .string "Titre")])]

theorem steps_merge_as_specified :
    Independent (registeredKeys [] [.key "steps.0", .key "title", .key "steps[1]"]) ∧
      (∃ output,
        Table.get? ((ofStore stepsStore "en" []).run
            [.key "steps.0", .key "title", .key "steps[1]"]).outputs "fr" = some output ∧
          get? output "steps[1]" = some (.string "Two")) ∧
      ReorderedTables
        ((ofStore stepsStore "en" []).run
          [.key "steps.0", .key "title", .key "steps[1]"]).outputs
        ((ofStore stepsStore "en" []).run
          [.key "steps[1]", .key "steps.0", .key "title"]).outputs := by
  have independent : Independent
      (registeredKeys [] [.key "steps.0", .key "title", .key "steps[1]"]) := by
    decide +kernel
  obtain ⟨specified, anyOrder⟩ :=
    independent_keys_merge_as_specified stepsStore "en" independent
  obtain ⟨output, found, reads, _⟩ :=
    specified "steps[1]" (by decide +kernel) (by decide +kernel) "fr" _ rfl
  exact ⟨independent, ⟨output, found, reads⟩, (anyOrder _ (by decide +kernel)).1⟩

end Catalog
end Phrasebook
