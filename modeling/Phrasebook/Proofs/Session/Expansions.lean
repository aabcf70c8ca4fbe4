import Phrasebook.Proofs.Locales.Resolving
import Phrasebook.Proofs.Session.Log

/-!
# Which expansion applies

A call without a literal key is expanded into the keys configured for its text, or else into
those that the first of the locales lists.  A session that is loaded does so as long as it lasts.
-/

namespace Phrasebook

open Json

namespace Session

variable {store : LocaleStore} {configured : List (String × List String)}
variable {signature : String} {keys : List String}

/-- The keys a signature is expanded into: those configured for it, or else those of the first
locale that lists any. -/
def Expands (store : LocaleStore) (configured : List (String × List String))
    (signature : String) (keys : List String) : Prop :=
  Table.get? configured signature = some keys ∨
    Table.get? configured signature = none ∧ store.FirstLists signature keys

theorem get?_expansionsOf_eq_some_iff (distinct : store.Distinct)
    (nodup : (Table.names configured).Nodup) :
    Table.get? (expansionsOf store configured) signature = some keys ↔
      Expands store configured signature keys := by
  rw [expansionsOf, Table.get?_foldl_insert nodup, Option.or_eq_some_iff,
    LocaleStore.get?_resolvedUnknowns_eq_some_iff distinct]
  rfl

/-- A catalog expands a call just if it has an expansion for its text. -/
theorem addUnknown_eq_expanded_iff {catalog : Catalog} :
    catalog.addUnknown signature = (catalog.addKeys keys, .expanded keys) ↔
      Table.get? catalog.expansions signature = some keys := by
  unfold Catalog.addUnknown
  cases found : Table.get? catalog.expansions signature with
  | none => simp
  | some others =>
      simp only [Prod.mk.injEq, UnknownOutcome.expanded.injEq, Option.some.injEq]
      constructor
      · exact And.right
      · rintro rfl
        exact ⟨rfl, rfl⟩

/-- A signature is expanded into what is configured for it, else into what the first of the
locales lists that list anything, and else not at all.  A locale without an array for the
signature contributes nothing.  A session that has loaded its locales expands calls so, whatever
it did before and after. -/
theorem expansion_is_configured_or_first_listed (configured : List (String × List String))
    (nodup : (Table.names configured).Nodup) :
    (∀ store : LocaleStore, store.Distinct → ∀ signature keys,
      Table.get? (expansionsOf store configured) signature = some keys ↔
        Expands store configured signature keys) ∧
      (∀ (store other : LocaleStore) (locale signature : String),
        store.Distinct → other.Distinct →
        (∀ name ≠ locale, other.get? name = store.get? name) →
        (∀ value, store.get? locale = some value ∨ other.get? locale = some value →
          ¬ LocaleStore.HasArray value signature) →
        Table.get? (expansionsOf other configured) signature =
          Table.get? (expansionsOf store configured) signature) ∧
      ∀ (options : Options) (tree : FileTree) (actions : List Action) (catalog : Catalog),
        options.unknownKeys = configured →
        ((Setting.mk (start options) tree).run actions).session.catalog = some catalog →
        ∃ front store, front <+: actions ∧
          LocaleStore.load ((Setting.mk (start options) tree).run front).tree
            options.localesDir = .ok store ∧
          ∀ signature keys,
            catalog.addUnknown signature = (catalog.addKeys keys, .expanded keys) ↔
              Expands store configured signature keys := by
  refine ⟨fun store distinct signature keys => get?_expansionsOf_eq_some_iff distinct nodup,
    ?_, ?_⟩
  · intro store other locale signature distinct distinct' agree shapeless
    refine Option.ext fun keys => ?_
    rw [get?_expansionsOf_eq_some_iff distinct nodup,
      get?_expansionsOf_eq_some_iff distinct' nodup]
    refine or_congr_right (and_congr_right fun _ => ⟨?_, .of_agree agree shapeless⟩)
    exact .of_agree (fun name different => (agree name different).symm)
      fun value there => shapeless value there.symm
  · rintro options tree actions catalog rfl held
    have some : ((Setting.mk (start options) tree).run actions).session.catalog ≠ none := by
      simp [held]
    obtain ⟨front, action, back, store, rfl, _, loaded, keeps⟩ := exists_loading tree actions some
    obtain ⟨same, found, _, expansions⟩ := keeps back
    obtain rfl : same = catalog := Option.some.inj (found.symm.trans held)
    have advances := @advances_run ⟨start options, tree⟩ (Advances.start options)
      (front ++ action :: back)
    refine ⟨front, store, List.prefix_append .., loaded, fun signature keys => ?_⟩
    rw [addUnknown_eq_expanded_iff, expansions, advances.options]
    exact get?_expansionsOf_eq_some_iff (LocaleStore.distinct_of_load loaded) nodup

/-- The files of a project whose first locale has no bucket, whose second one has a list without a
key, and whose third one has usable lists. -/
def layeredTree : FileTree :=
  ⟨.dir [("locales", .dir [
    ("de.json", .file (.text "[]")),
    ("en.json", .file (.text
      "\x7b\"__UNKNOWN\":\x7b\"t(a)\":[1,\"\",null],\"t(c)\":\"t(c)\"\x7d\x7d")),
    ("fr.json", .file (.text
      "\x7b\"__UNKNOWN\":\x7b\"t(a)\":[\"one\",7,\"two\"],\"t(b)\":[\"x\"]\x7d\x7d"))])], []⟩

/-- The options of the project with an empty expansion. -/
def layeredOptions : Options :=
  { bareOptions with unknownKeys := [("t(b)", [])] }

/-- A store whose only locale is no object. -/
def arrayStore : LocaleStore :=
  ⟨[("de", .array [])], [], List.pairwise_singleton ..⟩

theorem list_without_keys_hides_nothing :
    let session := ((Setting.mk (start layeredOptions) layeredTree).run [.enter]).session
    (∃ catalog, session.catalog = some catalog ∧
      ∃ store, LocaleStore.load layeredTree ⟨"locales"⟩ = .ok store ∧
        store.FirstLists "t(a)" ["one", "two"] ∧
        catalog.addUnknown "t(a)" = (catalog.addKeys ["one", "two"], .expanded ["one", "two"]) ∧
        catalog.addUnknown "t(b)" = (catalog.addKeys [], .expanded []) ∧
        ∀ keys, ¬ Expands store layeredOptions.unknownKeys "t(c)" keys) ∧
      Expands arrayStore layeredOptions.unknownKeys "t(b)" [] ∧
      Table.get? (expansionsOf arrayStore layeredOptions.unknownKeys) "t(a)" =
        Table.get? (expansionsOf default layeredOptions.unknownKeys) "t(a)" := by
  intro session
  have nodup : (Table.names layeredOptions.unknownKeys).Nodup := by decide
  have distinct : arrayStore.Distinct := by
    rintro entry present
    obtain rfl := List.mem_singleton.mp present
    rfl
  obtain ⟨resolves, frame, expands⟩ :=
    expansion_is_configured_or_first_listed layeredOptions.unknownKeys nodup
  refine ⟨?_, (resolves arrayStore distinct "t(b)" []).mp (by decide +kernel), ?_⟩
  · have known : session.catalog.map (fun catalog => ["t(a)", "t(b)", "t(c)"].map
        (Table.get? catalog.expansions)) = some [some ["one", "two"], some [], none] := by
      decide +kernel
    obtain ⟨catalog, held, found⟩ := Option.map_eq_some_iff.mp known
    simp only [List.map_cons, List.map_nil, List.cons.injEq, and_true] at found
    obtain ⟨front, store, early, loaded, iff⟩ :=
      expands layeredOptions layeredTree [.enter] catalog rfl held
    -- Entering a session leaves the files as they are.
    have unchanged :
        ((Setting.mk (start layeredOptions) layeredTree).run front).tree = layeredTree := by
      rcases List.prefix_cons_iff.mp early with rfl | ⟨rest, rfl, short⟩
      · rfl
      · obtain rfl := List.prefix_nil.mp short
        rfl
    rw [unchanged] at loaded
    have first := addUnknown_eq_expanded_iff.mpr found.1
    refine ⟨catalog, held, store, loaded, ?_, first, addUnknown_eq_expanded_iff.mpr found.2.1, ?_⟩
    · exact (((iff "t(a)" _).mp first).resolve_left (by decide)).2
    · intro keys expanded
      have found' := addUnknown_eq_expanded_iff.mp ((iff "t(c)" keys).mpr expanded)
      rw [found.2.2] at found'
      cases found'
  · refine (frame arrayStore default "de" "t(a)" distinct (by rintro _ ⟨⟩) ?_ ?_).symm
    · intro name different
      exact (if_neg (Ne.symm different)).symm
    · rintro value (held | held)
      · obtain rfl : Value.array [] = value := Option.some.inj held
        rintro ⟨bucket, items, ⟨⟩, _⟩
      · cases held

end Session
end Phrasebook
