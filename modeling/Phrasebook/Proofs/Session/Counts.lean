import Mathlib.Data.List.Dedup
import Phrasebook.Proofs.Catalog.Provenance
import Phrasebook.Proofs.Session.Log

/-!
# Counts of untranslated keys

A session counts, for every locale, how often a literal key was listed as untranslated.
That is the number of distinct keys listed as long as no key is listed by an expansion
alone and none is listed again.  A key is listed again only where its path is blocked: the
output does not take it, so it is missing each time.
-/

namespace Phrasebook

open Json KeyPath

namespace Catalog

variable {store : LocaleStore} {base locale key : String} {input : Value}
variable {expansions : List (String × List String)} {earlier keys : List String}

theorem grows_localeAfter (loaded : store.get? locale = some input) (base : String)
    (earlier more : List String) :
    Grows (localeAfter store base earlier locale input).output
      (localeAfter store base (earlier ++ more) locale input).output := by
  rw [localeAfter, localeAfter, output_start loaded, output_start loaded, List.filter_append,
    mergeAll_append]
  exact fun path => grows_mergeAll _ _ _ path

/-- A registered key that an output does not have is blocked there. -/
theorem blocked_of_missing (loaded : store.get? locale = some input)
    (accepted : accepts key = true) (registered : key ∈ keys)
    (missing : ¬ (reach (localeAfter store base keys locale input).output
      (segments key)).isTruthy = true) :
    Blocked (localeAfter store base keys locale input).output (segments key) := by
  rw [localeAfter, output_start loaded] at missing ⊢
  apply Or.resolve_left _ missing
  apply truthy_or_blocked_mergeAll mapping_empty
  · intro other member
    exact (List.mem_filter.mp member).2
  · intro other member
    exact isTruthy_fallback (List.mem_filter.mp member).2
  · exact List.mem_filter.mpr ⟨registered, accepted⟩

end Catalog

namespace Session

open Catalog

variable {store : LocaleStore} {base locale key : String} {input : Value}

theorem listings_subset (answers : List (String × KeyOutcome)) (locale : String) :
    listings answers locale ⊆ answers.map Prod.fst :=
  (List.filter_sublist.map _).subset

theorem listings_filter_subset (made : List Registration) (keep : Registration → Bool)
    (locale : String) :
    listings (answersOf (made.filter keep)) locale ⊆ listings (answersOf made) locale := by
  intro key member
  simp only [listings, answersOf, List.mem_map, List.mem_filter, List.mem_flatMap] at member ⊢
  obtain ⟨answer, ⟨⟨registration, kept, answered⟩, listed⟩, same⟩ := member
  exact ⟨answer, ⟨⟨registration, kept.1, answered⟩, listed⟩, same⟩

/-- Only keys that can be registered are listed. -/
theorem accepts_of_listed {earlier keys : List String}
    (listed : key ∈ listings (outcomesAfter store base earlier keys) locale) :
    accepts key = true := by
  induction keys generalizing earlier with
  | nil => simp [outcomesAfter, listings] at listed
  | cons first rest ih =>
      rw [outcomesAfter, ← List.singleton_append, listings_append, List.mem_append] at listed
      rcases listed with head | later
      · simp only [listings, List.mem_map, List.mem_filter, List.mem_singleton] at head
        obtain ⟨answer, ⟨rfl, untranslated⟩, rfl⟩ := head
        exact (mem_untranslated.mp (of_decide_eq_true untranslated)).1
      · exact ih later

/-- A key that is listed a second time is blocked in the output. -/
theorem blocked_of_listed_again (loaded : store.get? locale = some input) (keys : List String)
    (again : 2 ≤ (listings (outcomesAfter store base [] keys) locale).count key) :
    Blocked (localeAfter store base keys locale input).output (segments key) := by
  induction keys using List.reverseRecOn with
  | nil => simp [outcomesAfter, listings] at again
  | append_singleton earlier last ih =>
      have grows := grows_localeAfter loaded base earlier [last]
      have split : listings (outcomesAfter store base [] (earlier ++ [last])) locale =
          listings (outcomesAfter store base [] earlier) locale ++
            if locale ∈ (outcomeAfter store base earlier last).untranslated then [last]
            else [] := by
        rw [outcomesAfter_append, listings_append, List.nil_append]
        by_cases listed : locale ∈ (outcomeAfter store base earlier last).untranslated
        · simp [outcomesAfter, listings, listed]
        · simp [outcomesAfter, listings, listed]
      rw [split, List.count_append] at again
      by_cases before : 2 ≤ (listings (outcomesAfter store base [] earlier) locale).count key
      · exact (ih before).grows grows
      · -- It was listed once before, and the last answer lists it again.
        have listed : locale ∈ (outcomeAfter store base earlier last).untranslated := by
          by_contra unlisted
          rw [if_neg unlisted, List.count_nil] at again
          omega
        rw [if_pos listed] at again
        have same : last = key := by
          by_contra different
          rw [List.count_singleton, beq_eq_false_iff_ne.mpr different] at again
          simp only [Bool.false_eq_true, if_false] at again
          omega
        subst same
        rw [List.count_singleton_self] at again
        have once : last ∈ listings (outcomesAfter store base [] earlier) locale :=
          List.count_pos_iff.mp (by omega)
        have registered : last ∈ earlier := by
          have named := listings_subset _ _ once
          rwa [map_fst_outcomesAfter] at named
        have accepted := accepts_of_listed once
        have vacant := vacant_of_added loaded (added_of_untranslated listed)
        exact (blocked_of_missing loaded accepted registered vacant).grows grows

/-- Of distinct names, those of a list are as many as the list has distinct names. -/
theorem length_filter_mem {names listed : List String} (distinct : names.Nodup)
    (named : listed ⊆ names) :
    (names.filter (· ∈ listed)).length = listed.dedup.length := by
  apply List.Perm.length_eq
  apply (List.perm_ext_iff_of_nodup (distinct.filter _) (List.nodup_dedup listed)).mpr
  intro name
  simp only [List.mem_filter, decide_eq_true_eq, List.mem_dedup, and_iff_right_iff_imp]
  exact fun member => named member

/-- The count of a locale is the number of times that a literal key was listed for it.  It is
the number of distinct keys listed, by whatever call, exactly if as many keys are listed by
expansions alone as literal keys are listed again.  No key is listed again but one that is
blocked in the output. -/
theorem untranslated_counts_are_listings (options : Options) (tree : FileTree)
    (actions : List Action) (locale : String) :
    let first : Setting := ⟨start options, tree⟩
    let session := (first.run actions).session
    let made := first.log actions
    let counted := (Table.get? session.untranslatedCounts locale).getD 0
    let direct := listings (answersOf (made.filter Registration.isDirect)) locale
    let listed := session.keys.filter (· ∈ listings (answersOf made) locale)
    counted = direct.length ∧
      (counted = listed.length ↔
        (listed.filter (· ∉ direct)).length = direct.length - direct.dedup.length) ∧
      ∀ output, (locale, output) ∈ session.outputs →
        ∀ key, 2 ≤ (listings (answersOf made) locale).count key →
          Blocked output (segments key) := by
  intro first session made counted direct listed
  have account : Account options made session := account_run options tree actions
  have exact : counted = direct.length := account.counts locale
  refine ⟨exact, ?_, ?_⟩
  · have distinct : session.keys.Nodup := by
      refine account.sorted.imp ?_
      intro left right less equal
      exact String.lt_irrefl _ (equal ▸ less)
    have within : direct ⊆ listings (answersOf made) locale := listings_filter_subset ..
    have named : direct ⊆ session.keys := by
      intro key member
      exact (account.keys key).mpr (listings_subset _ _ (within member))
    have parts : listed.length =
        (listed.filter (· ∈ direct)).length + (listed.filter (· ∉ direct)).length := by
      simpa using List.length_eq_length_filter_add (l := listed) (· ∈ direct)
    have literal : listed.filter (· ∈ direct) = session.keys.filter (· ∈ direct) := by
      rw [List.filter_filter]
      apply List.filter_congr
      intro key _
      by_cases member : key ∈ direct
      · simp [member, within member]
      · simp [member]
    rw [literal, length_filter_mem distinct named] at parts
    have fewer : direct.dedup.length ≤ direct.length := direct.dedup_sublist.length_le
    omega
  · intro output present key again
    cases held : session.catalog with
    | none => simp [outputs, held] at present
    | some catalog =>
        obtain ⟨store, final, merged, outputs, _⟩ := account.held held
        rw [Session.outputs, held, Option.map_some, Option.getD_some, outputs, merged.catalog]
          at present
        obtain ⟨input, loaded, equal⟩ := outputs_eq_localeAfter present
        dsimp only at loaded equal
        subst equal
        rw [merged.answers, firstCatalog, outcomes_ofStore] at again
        have once := List.count_pos_iff.mp (Nat.lt_of_lt_of_le Nat.zero_lt_two again)
        apply (blocked_withBucket (clean_localeAfter _).output (accepts_of_listed once) _).mpr
        exact blocked_of_listed_again loaded _ again

/-- Calls for a name below an array, one of them repeated. -/
def listCalls : List Action :=
  [literalCall "list.0", literalCall "list.name", literalCall "list.name"]

theorem list_name_is_listed_again :
    let first : Setting := ⟨start bareOptions, pairTree⟩
    let session := (first.run listCalls).session
    let listed := listings (answersOf (first.log listCalls)) "fr"
    ∃ output, ("fr", output) ∈ session.outputs ∧ 2 ≤ listed.count "list.name" ∧
      Blocked output (segments "list.name") := by
  intro first session listed
  have french : "fr" ∈ Table.names session.outputs := by decide +kernel
  obtain ⟨entry, present, named⟩ := List.mem_map.mp french
  have again : 2 ≤ listed.count "list.name" := by decide +kernel
  obtain ⟨_, _, blocked⟩ :=
    untranslated_counts_are_listings bareOptions pairTree listCalls "fr"
  refine ⟨entry.2, ?_, again, blocked entry.2 ?_ "list.name" again⟩
  · rwa [← named]
  · rwa [← named]

/-- A key that only an expansion lists is not counted, and one that is listed again is
counted again. -/
theorem counts_differ_from_listed_keys :
    let options := { bareOptions with unknownKeys := [("t(page)", ["nav.home"])] }
    let first : Setting := ⟨start options, pairTree⟩
    let counted (actions : List Action) :=
      (Table.get? (first.run actions).session.untranslatedCounts "fr").getD 0
    let listed (actions : List Action) :=
      (first.run actions).session.keys.filter
        (· ∈ listings (answersOf (first.log actions)) "fr")
    (counted [unknownCall "t(page)"] = 0 ∧ listed [unknownCall "t(page)"] = ["nav.home"]) ∧
      (counted listCalls = 3 ∧ listed listCalls = ["list.0", "list.name"]) := by
  decide +kernel

end Session
end Phrasebook
