import Phrasebook.Proofs.Json.Exact
import Phrasebook.Proofs.Locales.Listing

/-!
# Keys that locales list for a signature

A locale lists keys for a signature if an array with at least one usable key stands under it in
the bucket.  Of the locales that list any, the first by name decides.  All others are passed
over, whatever they have in the place of the array.
-/

namespace Phrasebook

open Json

namespace LocaleStore

variable {store : LocaleStore} {value : Value} {signature : String} {keys : List String}

/-- Whether an item of a list is a key: a string that is not empty. -/
def isKey : Value → Bool
  | .string key => key ≠ ""
  | _ => false

/-- A locale lists keys for a signature.  They are the keys among the items of an array that
stands under the signature in the bucket, and there is at least one. -/
structure Lists (value : Value) (signature : String) (keys : List String) : Prop where
  nonempty : keys ≠ []
  array : ∃ bucket items, value.member? unknownBucket = some (.object bucket) ∧
    Table.get? bucket signature = some (.array items) ∧
    items.filter isKey = keys.map Value.string

/-- An array stands under a signature in the bucket of a locale. -/
def HasArray (value : Value) (signature : String) : Prop :=
  ∃ bucket items, value.member? unknownBucket = some (.object bucket) ∧
    Table.get? bucket signature = some (.array items)

theorem Lists.hasArray (lists : Lists value signature keys) : HasArray value signature := by
  obtain ⟨bucket, items, inside, found, _⟩ := lists.array
  exact ⟨bucket, items, inside, found⟩

/-- The first of the locales that list keys for a signature lists these. -/
def FirstLists (store : LocaleStore) (signature : String) (keys : List String) : Prop :=
  ∃ locale value, store.get? locale = some value ∧ Lists value signature keys ∧
    ∀ other < locale, ∀ value, store.get? other = some value →
      ∀ others, ¬ Lists value signature others

/-- The objects in the translations have distinct names. -/
def Distinct (store : LocaleStore) : Prop :=
  ∀ entry ∈ store.locales, entry.2.isDistinct = true

theorem map_string_listedKeys (items : List Value) :
    (listedKeys (.array items)).map Value.string = items.filter isKey := by
  induction items with
  | nil => rfl
  | cons item rest ih =>
      rw [listedKeys] at ih ⊢
      rw [List.filterMap_cons, List.filter_cons]
      cases item with
      | string key =>
          by_cases empty : key = ""
          · simp only [isKey, empty, if_true, ne_eq, not_true, decide_false]
            exact ih
          · simp only [isKey, empty, if_false, ne_eq, not_false_iff, decide_true, if_true,
              List.map_cons, ih]
      | _ => exact ih

theorem listedKeys_eq_iff (listed : keys ≠ []) {entry : Value} :
    listedKeys entry = keys ↔
      ∃ items, entry = .array items ∧ items.filter isKey = keys.map Value.string := by
  constructor
  · rintro rfl
    cases entry with
    | array items => exact ⟨items, rfl, (map_string_listedKeys items).symm⟩
    | _ => exact absurd rfl listed
  · rintro ⟨items, rfl, same⟩
    rw [← map_string_listedKeys] at same
    exact List.map_injective_iff.mpr (fun _ _ equal => Value.string.inj equal) same

/-- The keys that a locale lists for a signature. -/
def listed? (signature : String) (value : Value) : Option (List String) :=
  ((Table.get? (bucketOf value) signature).map listedKeys).filter (· ≠ [])

theorem get?_bucketOf_eq_some_iff {entry : Value} :
    Table.get? (bucketOf value) signature = some entry ↔
      ∃ bucket, value.member? unknownBucket = some (.object bucket) ∧
        Table.get? bucket signature = some entry := by
  unfold bucketOf
  split
  · rename_i bucket found
    simp [found]
  · rename_i other
    exact iff_of_false nofun fun ⟨bucket, inside, _⟩ => other bucket inside

theorem listed?_eq_some_iff : listed? signature value = some keys ↔ Lists value signature keys := by
  rw [listed?, Option.filter_eq_some_iff, Option.map_eq_some_iff]
  constructor
  · rintro ⟨⟨entry, found, listed⟩, some⟩
    have nonempty : keys ≠ [] := by simpa using some
    obtain ⟨bucket, inside, found⟩ := get?_bucketOf_eq_some_iff.mp found
    obtain ⟨items, rfl, same⟩ := (listedKeys_eq_iff nonempty).mp listed
    exact ⟨nonempty, bucket, items, inside, found, same⟩
  · rintro ⟨nonempty, bucket, items, inside, found, same⟩
    refine ⟨⟨.array items, get?_bucketOf_eq_some_iff.mpr ⟨bucket, inside, found⟩, ?_⟩, ?_⟩
    · exact (listedKeys_eq_iff nonempty).mpr ⟨items, rfl, same⟩
    · simpa using nonempty

theorem listed?_eq_none_iff :
    listed? signature value = none ↔ ∀ keys, ¬ Lists value signature keys := by
  simp only [← listed?_eq_some_iff]
  exact Option.eq_none_iff_forall_ne_some

/-- The names of a bucket are distinct if they are in the whole value. -/
theorem nodup_names_bucketOf (distinct : value.isDistinct = true) :
    (Table.names (bucketOf value)).Nodup := by
  unfold bucketOf
  split
  · rename_i bucket found
    cases value with
    | object members =>
        rw [Value.isDistinct, Bool.and_eq_true] at distinct
        have inner := distinctMembers_iff.mp distinct.2 _ (Table.mem_of_get? found)
        rw [Value.isDistinct, Bool.and_eq_true] at inner
        exact of_decide_eq_true inner.1
    | _ => cases found
  · exact List.nodup_nil

/-- Take in the keys of one bucket entry, if there are any and the signature is new. -/
def keepFirst (resolved : List (String × List String)) (entry : String × List String) :
    List (String × List String) :=
  if entry.2 = [] ∨ Table.contains resolved entry.1 then resolved
  else Table.insert resolved entry.1 entry.2

theorem get?_keepFirst (resolved : List (String × List String)) (entry : String × List String)
    (signature : String) :
    Table.get? (keepFirst resolved entry) signature =
      (Table.get? resolved signature).or
        (Table.get? ([entry].filter fun entry => entry.2 ≠ []) signature) := by
  obtain ⟨name, keys⟩ := entry
  unfold keepFirst
  dsimp only
  by_cases empty : keys = []
  · simp [empty]
  · cases known : Table.get? resolved name with
    | some old =>
        by_cases same : name = signature
        · subst same
          simp [Table.contains, known]
        · simp [Table.contains, known, empty, Table.get?_cons, same]
    | none =>
        simp only [Table.contains, known, empty, Option.isSome_none, Bool.false_eq_true, or_false,
          if_false, Table.get?_insert]
        by_cases same : name = signature
        · subst same
          simp [known, empty, Table.get?_cons]
        · simp [empty, Table.get?_cons, same]

/-- The first entry of a signature that has keys counts. -/
theorem get?_foldl_keepFirst (entries resolved : List (String × List String))
    (signature : String) :
    Table.get? (entries.foldl keepFirst resolved) signature =
      (Table.get? resolved signature).or
        (Table.get? (entries.filter fun entry => entry.2 ≠ []) signature) := by
  induction entries generalizing resolved with
  | nil => simp
  | cons entry rest ih =>
      rw [List.foldl_cons, ih, get?_keepFirst, Option.or_assoc, ← Table.get?_append,
        ← List.filter_append, List.singleton_append]

theorem get?_resolvedUnknowns (distinct : store.Distinct) (signature : String) :
    Table.get? store.resolvedUnknowns signature =
      store.locales.findSome? fun entry => listed? signature entry.2 := by
  -- The buckets are read in the order of the locales, so that the first entry that counts is
  -- that of the first locale; within one bucket there is at most one.
  have fold : store.resolvedUnknowns =
      (store.locales.flatMap fun entry =>
        (bucketOf entry.2).map fun entry => (entry.1, listedKeys entry.2)).foldl keepFirst [] := rfl
  rw [fold, get?_foldl_keepFirst, Table.get?_nil, Option.none_or, List.filter_flatMap]
  refine Table.get?_flatMap fun entry present => ?_
  have nodup := nodup_names_bucketOf (distinct entry present)
  rw [Table.get?_filter (by rwa [Table.names, List.map_map]) fun keys => keys ≠ [],
    Table.get?_map _ fun _ => listedKeys]
  rfl

/-- What the locales resolve is what the first of them lists. -/
theorem get?_resolvedUnknowns_eq_some_iff (distinct : store.Distinct) :
    Table.get? store.resolvedUnknowns signature = some keys ↔ store.FirstLists signature keys := by
  rw [get?_resolvedUnknowns distinct, store.increasing.findSome?_eq_some_iff]
  simp only [listed?_eq_some_iff, listed?_eq_none_iff]
  rfl

/-- A locale without an array for a signature may be there or not. -/
theorem FirstLists.of_agree {other : LocaleStore} {locale : String}
    (agree : ∀ name ≠ locale, other.get? name = store.get? name)
    (shapeless : ∀ value, store.get? locale = some value ∨ other.get? locale = some value →
      ¬ HasArray value signature)
    (first : store.FirstLists signature keys) : other.FirstLists signature keys := by
  obtain ⟨source, value, present, lists, before⟩ := first
  have different : source ≠ locale := by
    rintro rfl
    exact shapeless value (.inl present) lists.hasArray
  refine ⟨source, value, (agree source different).trans present, lists, ?_⟩
  intro name less held there others listed
  by_cases same : name = locale
  · subst same
    exact shapeless held (.inr there) listed.hasArray
  · rw [agree name same] at there
    exact before name less held there others listed

/-- The translations that are loaded have distinct names in each object. -/
theorem distinct_of_load {tree : FileTree} {dir : Path} (loaded : load tree dir = .ok store) :
    store.Distinct := by
  intro entry present
  obtain ⟨listing, listed⟩ := exists_ofListing_of_load loaded
  obtain ⟨later, added, same, _⟩ := exists_addEntries_of_ofListing listed
  rw [same] at present
  have found : later.get? entry.1 = some entry.2 := Table.get?_of_mem later.increasing.nodup present
  rcases source_of_addEntries added found with ⟨⟨⟩⟩ | ⟨file, _, _, read⟩
  obtain ⟨text, _, parsed⟩ := readLocale_eq_ok_iff.mp read
  exact isDistinct_of_parse parsed

end LocaleStore

end Phrasebook
