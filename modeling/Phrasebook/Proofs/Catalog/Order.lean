import Mathlib.Data.List.Forall2
import Phrasebook.Proofs.Catalog.Content
import Phrasebook.Proofs.KeyPath.Apart

/-!
# The order of operations

Keys are independent when the paths of any two of them are apart.  Registering them in
another order then makes the same locales, but for the order of object members: swapping
two neighbours changes no more than that, and all that comes later cannot tell.
-/

namespace Phrasebook

open Json KeyPath Catalog

/-- Keys of which any two accepted ones are apart. -/
def Catalog.Independent (keys : List String) : Prop :=
  ∀ key ∈ keys, ∀ other ∈ keys, accepts key = true → accepts other = true → key ≠ other →
    Apart (segments key) (segments other)

instance (keys : List String) : Decidable (Independent keys) :=
  inferInstanceAs (Decidable (∀ key ∈ keys, ∀ other ∈ keys, accepts key = true →
    accepts other = true → key ≠ other → Apart (segments key) (segments other)))

/-- Tables of the same names in the same order, with values that differ in the order of
object members only. -/
def ReorderedTables (tables others : List (String × Value)) : Prop :=
  List.Forall₂ (fun entry other => other.1 = entry.1 ∧ Reordered entry.2 other.2) tables
    others

namespace LocaleMerge

variable {locale one other third : LocaleMerge} {base key next : String}
variable {baseValue nextValue : Option Value} {baseValue? : String → Option Value}
variable {keys others : List String}

@[simp] theorem valueFor_register :
    (locale.register base baseValue key).valueFor nextValue next =
      locale.valueFor nextValue next := by
  simp only [valueFor, input_register]

@[simp] theorem lacks_register :
    (locale.register base baseValue key).lacks base nextValue next =
      locale.lacks base nextValue next := by
  simp only [lacks, name_register, input_register]

theorem registerAll_cons (key : String) (rest : List String) :
    locale.registerAll base baseValue? (key :: rest) =
      (locale.registerAll base baseValue? [key]).registerAll base baseValue? rest :=
  registerAll_append [key] rest

/-- Locales that differ in the order of object members only. -/
structure Alike (one other : LocaleMerge) : Prop where
  name : other.name = one.name
  input : other.input = one.input
  output : Reordered one.output other.output
  report : Option.Rel Reordered one.report other.report

theorem rel_refl (report : Option Value) : Option.Rel Reordered report report := by
  cases report with
  | none => exact .none
  | some report => exact .some (.refl report)

theorem reordered_report (report : Option.Rel Reordered one.report other.report) :
    Reordered (one.report.getD (.object [])) (other.report.getD (.object [])) := by
  cases first : one.report <;> cases second : other.report <;>
    simp only [first, second] at report ⊢
  case none.none => exact .refl _
  case some.some =>
    cases report with
    | some reordered => exact reordered
  all_goals cases report

namespace Alike

theorem refl (locale : LocaleMerge) : Alike locale locale where
  name := rfl
  input := rfl
  output := .refl _
  report := rel_refl _

theorem trans (first : Alike one other) (second : Alike other third) : Alike one third where
  name := second.name.trans first.name
  input := second.input.trans first.input
  output := first.output.trans second.output
  report := by
    have left := first.report
    have right := second.report
    revert left right
    generalize one.report = a, other.report = b, third.report = c
    intro left right
    cases left with
    | none => exact right
    | some left =>
        cases right with
        | some right => exact .some (left.trans right)

theorem register (alike : Alike one other) (clean : Clean one) (cleanOther : Clean other)
    (accepted : accepts key = true) :
    Alike (one.register base baseValue key) (other.register base baseValue key) := by
  have sameValue : other.valueFor baseValue key = one.valueFor baseValue key := by
    simp only [valueFor, alike.input]
  have sameLack : other.lacks base baseValue key = one.lacks base baseValue key := by
    simp only [lacks, alike.name, alike.input]
  have sameTruth := (alike.output.reach (segments key)).isTruthy
  refine ⟨?_, ?_, ?_, ?_⟩
  · rw [name_register, name_register, alike.name]
  · rw [input_register, input_register, alike.input]
  · rw [output_register clean accepted, output_register cleanOther accepted, sameValue]
    exact alike.output.merge _ _
  · rw [report_register clean accepted, report_register cleanOther accepted, sameValue,
      sameLack, sameTruth]
    split
    · exact .some ((reordered_report alike.report).write _ _)
    · exact alike.report

theorem registerAll (alike : Alike one other) (clean : Clean one) (cleanOther : Clean other)
    (keys : List String) :
    Alike (one.registerAll base baseValue? keys) (other.registerAll base baseValue? keys) := by
  refine (registerAll_induction₂ (motive := fun one other =>
    Alike one other ∧ Clean one ∧ Clean other) keys ⟨alike, clean, cleanOther⟩ ?_).1
  rintro one other key _ accepted ⟨alike, clean, cleanOther⟩
  exact ⟨alike.register clean cleanOther accepted, clean.register accepted,
    cleanOther.register accepted⟩

end Alike

/-- Keys that are apart can be registered in either order. -/
theorem register_comm (clean : Clean locale) (accepted : accepts key = true)
    (acceptedNext : accepts next = true) (apart : Apart (segments key) (segments next)) :
    Alike ((locale.register base baseValue key).register base nextValue next)
      ((locale.register base nextValue next).register base baseValue key) := by
  have cleanKey : Clean (locale.register base baseValue key) := clean.register accepted
  have cleanNext : Clean (locale.register base nextValue next) := clean.register acceptedNext
  refine ⟨by simp, by simp, ?_, ?_⟩
  · rw [output_register cleanKey acceptedNext, output_register cleanNext accepted,
      output_register clean accepted, output_register clean acceptedNext, valueFor_register,
      valueFor_register]
    exact apart.merge_comm ..
  · rw [report_register cleanKey acceptedNext, report_register cleanNext accepted,
      report_register clean accepted, report_register clean acceptedNext,
      output_register clean accepted, output_register clean acceptedNext,
      apart.reach_merge, apart.symm.reach_merge, valueFor_register, valueFor_register,
      lacks_register, lacks_register]
    -- Whether the report takes either key does not depend on the other one.
    generalize (!(reach locale.output (segments key)).isTruthy &&
      locale.lacks base baseValue key) = takes
    generalize (!(reach locale.output (segments next)).isTruthy &&
      locale.lacks base nextValue next) = takesNext
    cases takes <;> cases takesNext <;>
      simp only [Bool.false_eq_true, if_true, if_false, Option.getD_some]
    · exact rel_refl _
    · exact .some (.refl _)
    · exact .some (.refl _)
    · exact .some (apart.write_comm ..)

theorem registerAll_pair (clean : Clean locale)
    (independent : accepts key = true → accepts next = true → key ≠ next →
      Apart (segments key) (segments next)) :
    Alike (locale.registerAll base baseValue? [key, next])
      (locale.registerAll base baseValue? [next, key]) := by
  by_cases equal : key = next
  · rw [equal]
    exact .refl _
  · rw [registerAll_cons key [next], registerAll_cons next [key]]
    cases accepted : accepts key with
    | false =>
        rw [registerAll_of_not_accepts accepted, registerAll_of_not_accepts accepted]
        exact .refl _
    | true =>
        cases acceptedNext : accepts next with
        | false =>
            rw [registerAll_of_not_accepts acceptedNext,
              registerAll_of_not_accepts acceptedNext]
            exact .refl _
        | true =>
            simp only [registerAll_singleton accepted, registerAll_singleton acceptedNext]
            exact register_comm clean accepted acceptedNext
              (independent accepted acceptedNext equal)

/-- Independent keys can be registered in any order. -/
theorem registerAll_perm (perm : keys.Perm others) (independent : Independent keys)
    (clean : Clean locale) :
    Alike (locale.registerAll base baseValue? keys)
      (locale.registerAll base baseValue? others) := by
  induction perm generalizing locale with
  | nil => exact .refl _
  | @cons key keys others perm ih =>
      rw [registerAll_cons key keys, registerAll_cons key others]
      apply ih _ (clean.registerAll [key])
      intro one member other memberOther
      exact independent one (List.mem_cons_of_mem _ member) other
        (List.mem_cons_of_mem _ memberOther)
  | swap key next rest =>
      have split (key next : String) :
          locale.registerAll base baseValue? (key :: next :: rest) =
            (locale.registerAll base baseValue? [key, next]).registerAll base baseValue?
              rest := registerAll_append [key, next] rest
      rw [split next key, split key next]
      apply Alike.registerAll _ (clean.registerAll _) (clean.registerAll _)
      apply registerAll_pair clean
      exact independent next (by simp) key (by simp)
  | trans perm _ first second =>
      refine (first independent clean).trans (second ?_ clean)
      intro one member other memberOther
      exact independent one (perm.mem_iff.mpr member) other (perm.mem_iff.mpr memberOther)

end LocaleMerge

namespace Catalog

variable {signatures others : List String} {value other : Value}

/-- Reordered objects stay so behind one more member. -/
theorem reordered_cons (entry : String × Value) (reordered : Reordered value other) :
    ∀ members, value = .object members → ∃ more, other = .object more ∧
      Reordered (.object (entry :: members)) (.object (entry :: more)) := by
  induction reordered with
  | refl value =>
      intro members equal
      exact ⟨members, equal, .refl _⟩
  | trans _ _ left right =>
      intro members equal
      obtain ⟨middle, equal, first⟩ := left members equal
      obtain ⟨more, equal, second⟩ := right middle equal
      exact ⟨more, equal, first.trans second⟩
  | swap front back different =>
      rintro _ ⟨rfl⟩
      exact ⟨_, rfl, .swap (entry :: front) back different⟩
  | member front back name inner =>
      rintro _ ⟨rfl⟩
      exact ⟨_, rfl, .member (entry :: front) back name inner⟩
  | item front back inner =>
      intro members equal
      cases equal

/-- Members that record some signatures, one after the other. -/
def recordAll (members : List (String × Value)) (signatures : List String) :
    List (String × Value) :=
  signatures.foldl (fun members signature => Table.put members signature (.string signature))
    members

theorem bucketEntries_eq_recordAll (signatures : List String) :
    bucketEntries signatures = recordAll [] signatures := by
  rw [bucketEntries, Table.ofEntries, List.foldl_map, recordAll]

theorem reordered_recordAll {members more : List (String × Value)}
    (reordered : Reordered (.object members) (.object more)) (signatures : List String) :
    Reordered (.object (recordAll members signatures)) (.object (recordAll more signatures)) := by
  induction signatures generalizing members more with
  | nil => exact reordered
  | cons signature rest ih => exact ih (reordered.fill signature (.string signature))

theorem recordAll_perm (perm : signatures.Perm others) (members : List (String × Value)) :
    Reordered (.object (recordAll members signatures)) (.object (recordAll members others)) := by
  induction perm generalizing members with
  | nil => exact .refl _
  | cons signature perm ih => exact ih _
  | swap first second rest =>
      by_cases equal : first = second
      · rw [equal]
        exact .refl _
      · have different : slot? (.object members) second ≠ slot? (.object members) first := by
          simpa [slot?] using Ne.symm equal
        exact reordered_recordAll (fill_comm different (.string second) (.string first)) rest
  | trans _ _ first second => exact (first members).trans (second members)

/-- Outputs are reordered when their contents are and the signatures are permuted. -/
theorem reordered_withBucket (mapping : Mapping value) (reordered : Reordered value other)
    (perm : signatures.Perm others) :
    Reordered (withBucket signatures value) (withBucket others other) := by
  obtain ⟨members, rfl, named⟩ := mapping
  by_cases empty : signatures = []
  · subst empty
    rw [List.nil_perm.mp perm]
    exact reordered
  · have emptyOthers : others ≠ [] := fun equal => empty (List.perm_nil.mp (equal ▸ perm))
    obtain ⟨more, rfl, behind⟩ :=
      reordered_cons (unknownBucket, .object (bucketEntries others)) reordered members rfl
    rw [withBucket_object empty, withBucket_object emptyOthers]
    have bucket : Reordered (.object (bucketEntries signatures))
        (.object (bucketEntries others)) := by
      rw [bucketEntries_eq_recordAll, bucketEntries_eq_recordAll]
      exact recordAll_perm perm []
    exact (Reordered.member [] members unknownBucket bucket).trans behind

/-! ## All locales -/

variable {operations permuted : List Operation} {expansions : List (String × List String)}

theorem alike_bucketed {one other : LocaleMerge} (alike : LocaleMerge.Alike one other)
    (clean : one.Clean) (perm : signatures.Perm others) :
    LocaleMerge.Alike (one.bucketed signatures) (other.bucketed others) where
  name := alike.name
  input := alike.input
  output := reordered_withBucket clean.output alike.output perm
  report := alike.report

theorem alike_finalLocale (perm : operations.Perm permuted)
    (independent : Independent (registeredKeys expansions operations)) (store : LocaleStore)
    (base name : String) (input : Value) :
    LocaleMerge.Alike (finalLocale store base expansions operations name input)
      (finalLocale store base expansions permuted name input) := by
  have clean := LocaleMerge.clean_start name input
  apply alike_bucketed
  · exact LocaleMerge.registerAll_perm (perm.flatMap_right _) independent clean
  · exact clean.registerAll _
  · exact perm.flatMap_right _

theorem reorderedTables_outputs {locales others : List LocaleMerge}
    (alike : List.Forall₂ LocaleMerge.Alike locales others) :
    ReorderedTables (locales.map fun locale => (locale.name, locale.output))
      (others.map fun locale => (locale.name, locale.output)) := by
  induction alike with
  | nil => exact .nil
  | cons first _ ih => exact .cons ⟨first.name, first.output⟩ ih

theorem reorderedTables_untranslated {locales others : List LocaleMerge}
    (alike : List.Forall₂ LocaleMerge.Alike locales others) :
    ReorderedTables
      (locales.filterMap fun locale => locale.report.map fun report => (locale.name, report))
      (others.filterMap fun locale => locale.report.map fun report => (locale.name, report)) := by
  induction alike with
  | nil => exact .nil
  | @cons one other _ _ first _ ih =>
      have report := first.report
      rw [List.filterMap_cons, List.filterMap_cons]
      cases left : one.report <;> cases right : other.report <;>
        simp only [left, right] at report ⊢
      case none.none => exact ih
      case some.some =>
        cases report with
        | some reordered => exact .cons ⟨first.name, reordered⟩ ih
      all_goals cases report

/-- Independent operations can be run in any order. -/
theorem run_perm (perm : operations.Perm permuted)
    (independent : Independent (registeredKeys expansions operations)) (store : LocaleStore)
    (base : String) :
    List.Forall₂ LocaleMerge.Alike ((ofStore store base expansions).run operations).locales
      ((ofStore store base expansions).run permuted).locales := by
  rw [locales_run, locales_run, List.forall₂_map_left_iff, List.forall₂_map_right_iff,
    List.forall₂_same]
  intro entry member
  exact alike_finalLocale perm independent store base entry.1 entry.2

end Catalog
end Phrasebook
