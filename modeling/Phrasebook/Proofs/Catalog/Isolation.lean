import Phrasebook.Proofs.Catalog.Outcomes

/-!
# Locales on their own

What a run makes of a locale, and what it answers about it, depends on the translations of this
locale and of the base language.  The other locales do not matter: with the same operations, two
stores that agree on the locale and on the base language agree on the locale in the end.
-/

namespace Phrasebook.Catalog

open Json

variable {store other : LocaleStore} {base locale key : String} {input : Value}
variable {expansions : List (String × List String)} {operations : List Operation}
variable {earlier keys : List String}

section
variable (sameBase : store.get? base = other.get? base)
include sameBase

theorem baseValue?_congr : store.baseValue? base = other.baseValue? base := by
  funext key
  rw [LocaleStore.baseValue?, LocaleStore.baseValue?, sameBase]

theorem finalLocale_congr :
    finalLocale store base expansions operations locale input =
      finalLocale other base expansions operations locale input := by
  rw [finalLocale, finalLocale, baseValue?_congr sameBase]

theorem localeAfter_congr :
    localeAfter store base keys locale input = localeAfter other base keys locale input := by
  rw [localeAfter, localeAfter, baseValue?_congr sameBase]

variable (same : store.get? locale = other.get? locale)
include same

theorem mem_added_congr :
    locale ∈ (outcomeAfter store base earlier key).added ↔
      locale ∈ (outcomeAfter other base earlier key).added := by
  simp only [mem_added, localeAfter_congr sameBase, same]

theorem mem_untranslated_congr :
    locale ∈ (outcomeAfter store base earlier key).untranslated ↔
      locale ∈ (outcomeAfter other base earlier key).untranslated := by
  simp only [mem_untranslated, localeAfter_congr sameBase, baseValue?_congr sameBase, same]

end

/-- What answers say about one locale: for each key, whether the locale got it and whether it
lacks a translation of it. -/
def answersFor (locale : String) (answers : List (String × KeyOutcome)) :
    List (String × Bool × Bool) :=
  answers.map fun (key, outcome) =>
    (key, decide (locale ∈ outcome.added), decide (locale ∈ outcome.untranslated))

theorem answersFor_outcomesAfter_congr (sameBase : store.get? base = other.get? base)
    (same : store.get? locale = other.get? locale) (earlier keys : List String) :
    answersFor locale (outcomesAfter store base earlier keys) =
      answersFor locale (outcomesAfter other base earlier keys) := by
  induction keys generalizing earlier with
  | nil => rfl
  | cons key rest ih =>
      have later := ih (earlier ++ [key])
      simp only [answersFor, outcomesAfter, List.map_cons] at later ⊢
      rw [later]
      simp only [mem_added_congr sameBase same, mem_untranslated_congr sameBase same]

/-- Two stores that have a locale with the same translations, and agree on the base language, give
the locale the same output and the same report, or none, after the same operations.  On the way
they have answered the same about it. -/
theorem locales_do_not_influence_each_other (base : String)
    (expansions : List (String × List String)) (operations : List Operation)
    (held : store.get? locale = some input) (held' : other.get? locale = some input)
    (sameBase : store.get? base = other.get? base) :
    let first := (ofStore store base expansions).run operations
    let second := (ofStore other base expansions).run operations
    (∃ output, Table.get? first.outputs locale = some output ∧
        Table.get? second.outputs locale = some output) ∧
      Table.get? first.untranslated locale = Table.get? second.untranslated locale ∧
      answersFor locale ((ofStore store base expansions).outcomes operations) =
        answersFor locale ((ofStore other base expansions).outcomes operations) := by
  intro first second
  refine ⟨⟨(finalLocale store base expansions operations locale input).output, ?_, ?_⟩, ?_, ?_⟩
  · rw [get?_outputs_finalLocale, held, Option.map_some]
  · rw [get?_outputs_finalLocale, held', Option.map_some, finalLocale_congr sameBase]
  · rw [get?_untranslated_finalLocale, get?_untranslated_finalLocale, held, held',
      Option.bind_some, Option.bind_some, finalLocale_congr sameBase]
  · rw [outcomes_ofStore, outcomes_ofStore]
    exact answersFor_outcomesAfter_congr sameBase (held.trans held'.symm) [] _

/-- Two stores that have the same translations for French and for English, the base language.  The
first has no other locale. -/
def frenchStore : LocaleStore :=
  .ofLocales
    [("en", .object [("home", .string "Home"), ("title", .string "Title")]),
      ("fr", .object [("home", .string "Accueil")])]

@[inherit_doc frenchStore]
def crowdedStore : LocaleStore :=
  .ofLocales
    [("de", .object [("home", .array []), ("title", .string "Titel")]),
      ("en", .object [("home", .string "Home"), ("title", .string "Title")]),
      ("fr", .object [("home", .string "Accueil")]), ("ja", .null)]

theorem french_is_not_influenced :
    let operations := [Operation.key "home", .key "title", .unknown "t(page)", .key "title.sub"]
    let first := (ofStore frenchStore "en" []).run operations
    let second := (ofStore crowdedStore "en" []).run operations
    (∃ output, Table.get? first.outputs "fr" = some output ∧
        Table.get? second.outputs "fr" = some output) ∧
      Table.get? first.untranslated "fr" = Table.get? second.untranslated "fr" := by
  intro operations first second
  have held : frenchStore.get? "fr" = some (.object [("home", .string "Accueil")]) := rfl
  have held' : crowdedStore.get? "fr" = some (.object [("home", .string "Accueil")]) := rfl
  have sameBase : frenchStore.get? "en" = crowdedStore.get? "en" := rfl
  obtain ⟨outputs, reports, _⟩ :=
    locales_do_not_influence_each_other "en" [] operations held held' sameBase
  exact ⟨outputs, reports⟩

end Phrasebook.Catalog
