import Phrasebook.Proofs.Catalog.Provenance
import Phrasebook.Proofs.Catalog.Retention
import Phrasebook.Proofs.KeyPath.SideBySide

/-!
# Outputs and reports

A listed key is written into the output of its locale and into the report, and from then
on the two go their own ways: the output gets all keys to come, the report only those that
are listed.  They agree on a key in the end if the keys to come treat it alike in both,
and neither of the two blocks its path.
-/

namespace Phrasebook.Catalog

open Json KeyPath

variable {store : LocaleStore} {base locale key other : String} {input value : Value}
variable {expansions : List (String × List String)} {operations : List Operation}
variable {before after : List (String × KeyOutcome)} {outcome : KeyOutcome}
variable {signatures earlier keys : List String}

/-- What a locale got by some answers, and what of this its report got. -/
def additionsOf (store : LocaleStore) (base locale : String)
    (answers : List (String × KeyOutcome)) : List Addition :=
  (answers.filter fun answer => locale ∈ answer.2.added).map fun answer =>
    ⟨segments answer.1, store.fallback base locale answer.1,
      locale ∈ answer.2.untranslated⟩

theorem additionsOf_cons_of_added (added : locale ∈ outcome.added) :
    additionsOf store base locale ((key, outcome) :: after) =
      ⟨segments key, store.fallback base locale key, locale ∈ outcome.untranslated⟩ ::
        additionsOf store base locale after := by
  rw [additionsOf, List.filter_cons_of_pos (by simpa using added)]
  rfl

theorem additionsOf_cons_of_not_added (refused : locale ∉ outcome.added) :
    additionsOf store base locale ((key, outcome) :: after) =
      additionsOf store base locale after := by
  rw [additionsOf, List.filter_cons_of_neg (by simpa using refused)]
  rfl

/-- The output and the report of a locale are built side by side. -/
theorem sideBySide (loaded : store.get? locale = some input) (earlier keys : List String) :
    SideBySide (localeAfter store base earlier locale input).output
      (reportAfter store base earlier locale input)
      (additionsOf store base locale (outcomesAfter store base earlier keys))
      (localeAfter store base (earlier ++ keys) locale input).output
      (reportAfter store base (earlier ++ keys) locale input) := by
  induction keys generalizing earlier with
  | nil =>
      rw [List.append_nil]
      exact .done _ _
  | cons key rest ih =>
      have more := ih (earlier ++ [key])
      rw [List.append_assoc, List.singleton_append, output_localeAfter_append loaded,
        reportAfter_append loaded] at more
      rw [outcomesAfter]
      by_cases added : locale ∈ (outcomeAfter store base earlier key).added
      · rw [if_pos added] at more
        rw [additionsOf_cons_of_added added]
        apply SideBySide.step (vacant_of_added loaded added)
        simpa only [Addition.apply, decide_eq_true_eq] using more
      · have unlisted : locale ∉ (outcomeAfter store base earlier key).untranslated :=
          fun listed => added (added_of_untranslated listed)
        rw [if_neg added, if_neg unlisted] at more
        rwa [additionsOf_cons_of_not_added added]

/-- Where a key was listed, output and report have it alike in the end, if neither blocks
its path and all that the locale got later meets it in both together. -/
theorem agree_of_listed (loaded : store.get? locale = some input) {first : List String}
    (listed : locale ∈ (outcomeAfter store base first key).untranslated)
    (second : List String)
    (together : ∀ addition ∈
        additionsOf store base locale (outcomesAfter store base (first ++ [key]) second),
      Together (localeAfter store base (first ++ key :: second) locale input).output
        (reportAfter store base (first ++ key :: second) locale input) (segments key) addition)
    (free : ¬ Blocked (localeAfter store base (first ++ key :: second) locale input).output
      (segments key))
    (freeReport : ¬ Blocked (reportAfter store base (first ++ key :: second) locale input)
      (segments key)) :
    reach (reportAfter store base (first ++ key :: second) locale input) (segments key) =
        reach (localeAfter store base (first ++ key :: second) locale input).output
          (segments key) ∧
      (reach (localeAfter store base (first ++ key :: second) locale input).output
        (segments key)).isTruthy = true := by
  have accepted := (mem_untranslated.mp listed).1
  have clean : (localeAfter store base first locale input).Clean := clean_localeAfter first
  have sides := @sideBySide store base locale input loaded (first ++ [key]) second
  rw [List.append_assoc, List.singleton_append, output_localeAfter_append loaded,
    reportAfter_append loaded, if_pos (added_of_untranslated listed), if_pos listed] at sides
  exact sides.agree_of_written (segments_ne_nil accepted) clean.output.isContainer
    clean.mapping_report.isContainer (isTruthy_fallback accepted) free freeReport together

theorem meets_withBucket (mapping : Mapping value) (accepted : accepts key = true)
    (acceptedOther : accepts other = true) (signatures : List String) :
    Meets (withBucket signatures value) (segments key) (segments other) ↔
      Meets value (segments key) (segments other) := by
  rw [Meets, Meets, route_segments_withBucket mapping accepted,
    route_segments_withBucket mapping acceptedOther]

theorem get?_eq_none_of_blocked (plain : Plain value) (present : segments key ≠ [])
    (blocked : Blocked value (segments key)) : get? value key = none := by
  rw [get?_of_plain plain present, follow?_of_blocked blocked]

/-- What is known of the keys that a locale got holds of what it got by them. -/
theorem together_of_meeting {report : Value} (mapping : Mapping value)
    (accepted : accepts key = true) (signatures : List String)
    (acceptedLater : ∀ later ∈ after, locale ∈ later.2.added → accepts later.1 = true)
    (meeting : ∀ later ∈ after, locale ∈ later.2.added →
      (Meets (withBucket signatures value) (segments key) (segments later.1) ↔
        Meets report (segments key) (segments later.1) ∧ locale ∈ later.2.untranslated)) :
    ∀ addition ∈ additionsOf store base locale after,
      Together value report (segments key) addition := by
  intro addition member
  obtain ⟨later, kept, rfl⟩ := List.mem_map.mp member
  obtain ⟨laterMember, added⟩ := List.mem_filter.mp kept
  have gets : locale ∈ later.2.added := by simpa using added
  have here := meeting later laterMember gets
  rw [meets_withBucket mapping accepted (acceptedLater later laterMember gets)] at here
  simpa [Together] using here

/-- A locale that was listed for a key has a report in the end.  If every key that the
locale got later meets the listed one in the output exactly if it does so in the report and
was listed itself, then report and output have the same value for the key exactly if
neither of them blocks its path. -/
theorem report_agrees_iff (store : LocaleStore) (base : String)
    (expansions : List (String × List String)) (operations : List Operation)
    (answered : (ofStore store base expansions).outcomes operations =
      before ++ (key, outcome) :: after)
    (listed : locale ∈ outcome.untranslated) :
    ∃ output report,
      Table.get? ((ofStore store base expansions).run operations).outputs locale =
          some output ∧
        Table.get? ((ofStore store base expansions).run operations).untranslated locale =
          some report ∧
        ((∀ later ∈ after, locale ∈ later.2.added →
            (Meets output (segments key) (segments later.1) ↔
              Meets report (segments key) (segments later.1) ∧
                locale ∈ later.2.untranslated)) →
          ((∃ value, get? report key = some value ∧ get? output key = some value) ↔
            ¬ Blocked output (segments key) ∧ ¬ Blocked report (segments key))) := by
  rw [outcomes_ofStore] at answered
  obtain ⟨keys, rfl, laterAnswers⟩ := outcomesAfter_eq_append answered
  rw [List.nil_append] at listed laterAnswers
  obtain ⟨accepted, input, loaded, _, _⟩ := mem_untranslated.mp listed
  have present := segments_ne_nil accepted
  have clean : (localeAfter store base (registeredKeys expansions operations) locale
      input).Clean := clean_localeAfter _
  obtain ⟨report, held⟩ := Option.ne_none_iff_exists'.mp
    (report_of_listed loaded listed (after.map Prod.fst))
  rw [← keys] at held
  have sameReport : reportAfter store base (registeredKeys expansions operations) locale
      input = report := by
    rw [reportAfter, held, Option.getD_some]
  have mapping : Mapping report := clean.report report held
  refine ⟨withBucket (recordedSignatures expansions operations)
    (localeAfter store base (registeredKeys expansions operations) locale input).output, report,
    by rw [get?_outputs_finalLocale, loaded]; rfl, ?_, ?_⟩
  · rw [get?_untranslated_finalLocale, loaded, Option.bind_some]
    exact held
  intro meeting
  rw [get?_withBucket clean.output accepted, blocked_withBucket clean.output accepted]
  constructor
  · rintro ⟨value, inReport, inOutput⟩
    constructor
    · intro blocked
      rw [get?_eq_none_of_blocked clean.output.plain present blocked] at inOutput
      cases inOutput
    · intro blocked
      rw [get?_eq_none_of_blocked mapping.plain present blocked] at inReport
      cases inReport
  · rintro ⟨free, freeReport⟩
    have acceptedLater : ∀ later ∈ after, locale ∈ later.2.added → accepts later.1 = true := by
      intro later member added
      rw [laterAnswers] at member
      exact accepts_of_added member added
    have together := @together_of_meeting store base locale key _ after report clean.output
      accepted _ acceptedLater meeting
    rw [laterAnswers] at together
    rw [keys] at together free
    rw [← sameReport, keys] at together freeReport
    obtain ⟨same, truthy⟩ := agree_of_listed loaded listed _ together free freeReport
    rw [← keys] at same truthy
    rw [sameReport] at same
    refine ⟨_, ?_, (get?_eq_some_iff clean.output.plain present
      (ne_null_of_isTruthy truthy)).mpr rfl⟩
    rw [get?_eq_some_iff mapping.plain present (ne_null_of_isTruthy truthy)]
    exact same

theorem title_agrees :
    ∃ output report,
      Table.get? ((ofStore titleStore "en" []).run
          [.key "steps", .key "title", .key "steps[1]"]).outputs "fr" = some output ∧
        Table.get? ((ofStore titleStore "en" []).run
          [.key "steps", .key "title", .key "steps[1]"]).untranslated "fr" = some report ∧
        ∃ value, get? report "title" = some value ∧ get? output "title" = some value := by
  have answered : (ofStore titleStore "en" []).outcomes
      [.key "steps", .key "title", .key "steps[1]"] =
      [("steps", ⟨["en", "fr"], ["fr"]⟩)] ++
        ("title", ⟨["en", "fr"], ["fr"]⟩) :: [("steps[1]", ⟨["en", "fr"], ["fr"]⟩)] := by
    decide +kernel
  have listed : "fr" ∈ (KeyOutcome.mk ["en", "fr"] ["fr"]).untranslated := by decide
  have free : ∀ output ∈ Table.get? ((ofStore titleStore "en" []).run
      [.key "steps", .key "title", .key "steps[1]"]).outputs "fr",
      ¬ Meets output (segments "title") (segments "steps[1]") ∧
        ¬ Blocked output (segments "title") := by
    decide +kernel
  have freeReport : ∀ report ∈ Table.get? ((ofStore titleStore "en" []).run
      [.key "steps", .key "title", .key "steps[1]"]).untranslated "fr",
      ¬ Meets report (segments "title") (segments "steps[1]") ∧
        ¬ Blocked report (segments "title") := by
    decide +kernel
  obtain ⟨output, report, found, foundReport, agrees⟩ :=
    report_agrees_iff titleStore "en" [] [.key "steps", .key "title", .key "steps[1]"]
      answered listed
  refine ⟨output, report, found, foundReport, (agrees ?_).mpr ?_⟩
  · intro later member _
    rw [List.mem_singleton.mp member]
    exact iff_of_false (free output found).1 fun both => (freeReport report foundReport).1 both.1
  · exact ⟨(free output found).2, (freeReport report foundReport).2⟩

/-- A store with a locale that has translated some keys of each group. -/
def partialStore : LocaleStore :=
  .ofLocales
    [("en", .object []),
      ("fr", .object
        [("list", .object [("0", .string "Zéro")]),
          ("a.b", .string "B"),
          ("menu", .object [("name", .string "Nom")])])]

/-- Keys of each group: translated before untranslated, after it, and both mixed. -/
def partialOperations : List Operation :=
  [.key "list.0", .key "list.name", .key "a", .key "a.b", .key "menu.name", .key "menu.0",
    .key "menu.foo"]

/-- The output may block the path of a listed key, a translated key may lead beyond it, and
the report may block its path. -/
theorem reports_disagree :
    (∀ key ∈ ["list.name", "a", "menu.foo"],
      (key, ⟨["en", "fr"], ["fr"]⟩) ∈
        (ofStore partialStore "en" []).outcomes partialOperations) ∧
      ((Table.get? ((ofStore partialStore "en" []).run partialOperations).outputs "fr").map
        fun output => ((get? output "list.name").isSome,
          (get? output "a").map Value.isContainer,
          (get? output "menu.foo").isSome)) = some (false, some true, true) ∧
      ((Table.get? ((ofStore partialStore "en" []).run partialOperations).untranslated "fr").map
        fun report => ((get? report "list.name").isSome,
          (get? report "a").map Value.isContainer,
          (get? report "menu.foo").isSome)) = some (true, some false, false) := by
  decide +kernel

end Phrasebook.Catalog
