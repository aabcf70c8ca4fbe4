import Mathlib.Data.List.TakeWhile
import Phrasebook.Proofs.Catalog.Content
import Phrasebook.Proofs.KeyPath.Route

/-!
# Retention

A translation a locale came with is merged when its key is registered first, unless
something else is at its place by then.  From there on it stays, until another key leads
on beyond it.  Together with blocked paths these are all the ways a translation of its
own can fail to be in a locale's output.
-/

namespace Phrasebook.Catalog

open Json KeyPath

section
variable {output : Value} {value : String → Value} {key : String} {path : List String}

/-- A scalar at the end of a path outlives all keys that do not lead beyond it. -/
theorem reach_mergeAll_of_scalar (truthy : (reach output path).isTruthy = true)
    (scalar : (reach output path).isContainer = false) (keys : List String) :
    reach (mergeAll output value keys) path = reach output path ∨
      ∃ other ∈ keys, Beyond (mergeAll output value keys) path (segments other) := by
  induction keys generalizing output with
  | nil => exact .inl rfl
  | cons first rest ih =>
      rw [mergeAll_cons]
      rcases reach_merge_of_scalar truthy scalar (segments first) (value first) with
        same | beyond
      · rw [← same] at truthy scalar ⊢
        rcases ih truthy scalar with kept | ⟨other, member, beyond⟩
        · exact .inl kept
        · exact .inr ⟨other, List.mem_cons_of_mem _ member, beyond⟩
      · have grows := (Grows.merge output (segments first) (value first)).trans
          (grows_mergeAll _ value rest)
        exact .inr ⟨first, List.mem_cons_self,
          beyond.grows grows (ne_null_of_isTruthy truthy)⟩

/-- Where a scalar is in the end, no merged key leads beyond it. -/
theorem not_beyond_of_mergeAll (mapping : Mapping output) {keys : List String}
    (accepted : ∀ key ∈ keys, accepts key = true)
    (values : ∀ key ∈ keys, (value key).isTruthy = true)
    (truthy : (reach (mergeAll output value keys) path).isTruthy = true)
    (scalar : (reach (mergeAll output value keys) path).isContainer = false)
    {other : String} (member : other ∈ keys) :
    ¬ Beyond (mergeAll output value keys) path (segments other) := by
  intro beyond
  obtain ⟨vacant, free⟩ := open_of_beyond beyond scalar truthy
  rcases truthy_or_blocked_mergeAll mapping accepted values member with taken | blocked
  · rw [vacant] at taken
    simp [Value.isTruthy] at taken
  · exact free blocked

/-- A value at the end of a path was there from the beginning, if it is a scalar in the
end and no key led beyond it. -/
theorem reach_mergeAll_of_taken {keys : List String}
    (taken : (reach output path).isTruthy = true)
    (scalar : (reach (mergeAll output value keys) path).isContainer = false)
    (noneBeyond : ∀ other ∈ keys, ¬ Beyond (mergeAll output value keys) path (segments other)) :
    reach (mergeAll output value keys) path = reach output path := by
  have scalarBefore : (reach output path).isContainer = false := by
    by_contra container
    have kept := ((grows_mergeAll output value keys).reach path).isContainer
      (by simpa using container)
    rw [scalar] at kept
    cases kept
  rcases reach_mergeAll_of_scalar taken scalarBefore keys with
    kept | ⟨other, member, beyond⟩
  · exact kept
  · exact absurd beyond (noneBeyond other member)

/-- Merging a key gives it its value, unless its path is blocked or something else is at
its place. -/
theorem reach_merge_own (mapping : Mapping output)
    (own : (reach output (segments key)).isTruthy = true →
      reach output (segments key) = value key)
    (free : ¬ Blocked output (segments key)) :
    reach (merge output (segments key) (value key)) (segments key) = value key := by
  by_cases taken : (reach output (segments key)).isTruthy = true
  · rw [merge_of_truthy taken, own taken]
  · rw [merge_of_vacant taken]
    exact reach_write (fun _ => mapping.isContainer) free (value key)

/-- A key ends up with its scalar value if and only if nothing else was at its place
before it was merged, its path is not blocked, and no key leads beyond it. -/
theorem reach_mergeAll_eq_iff (mapping : Mapping output) {before rest : List String}
    (accepted : ∀ other ∈ before ++ key :: rest, accepts other = true)
    (values : ∀ other ∈ before ++ key :: rest, (value other).isTruthy = true)
    (scalar : (value key).isContainer = false) :
    reach (mergeAll output value (before ++ key :: rest)) (segments key) = value key ↔
      ((reach (mergeAll output value before) (segments key)).isTruthy = true →
          reach (mergeAll output value before) (segments key) = value key) ∧
        ¬ Blocked (mergeAll output value (before ++ key :: rest)) (segments key) ∧
        ∀ other ∈ before ++ key :: rest,
          ¬ Beyond (mergeAll output value (before ++ key :: rest)) (segments key)
            (segments other) := by
  have truthyKey : (value key).isTruthy = true := values key (by simp)
  have split : mergeAll output value (before ++ key :: rest) =
      mergeAll (mergeAll output value before) value (key :: rest) := mergeAll_append ..
  constructor
  · intro held
    have noneBeyond : ∀ other ∈ before ++ key :: rest,
        ¬ Beyond (mergeAll output value (before ++ key :: rest)) (segments key)
          (segments other) := by
      intro other member
      refine not_beyond_of_mergeAll mapping accepted values ?_ ?_ member
      · rwa [held]
      · rwa [held]
    refine ⟨?_, ?_, noneBeyond⟩
    · intro taken
      rw [split] at held noneBeyond
      rw [← held]
      refine (reach_mergeAll_of_taken taken (by rwa [held]) ?_).symm
      intro other member
      exact noneBeyond other (List.mem_append_right _ member)
    · intro blocked
      rw [← held, reach_of_blocked blocked] at truthyKey
      cases truthyKey
  · rintro ⟨own, free, noneBeyond⟩
    rw [split] at free noneBeyond ⊢
    have mappingBefore : Mapping (mergeAll output value before) :=
      mapping.mergeAll fun other member => accepted other (List.mem_append_left _ member)
    have merged : reach (merge (mergeAll output value before) (segments key) (value key))
        (segments key) = value key := by
      refine reach_merge_own mappingBefore own fun blocked => ?_
      exact free (blocked.grows (grows_mergeAll _ value (key :: rest)))
    rw [mergeAll_cons] at noneBeyond ⊢
    rcases reach_mergeAll_of_scalar (by rwa [merged]) (by rwa [merged]) rest with
      kept | ⟨other, member, beyond⟩
    · rw [kept, merged]
    · exact absurd beyond
        (noneBeyond other (List.mem_append_right _ (List.mem_cons_of_mem _ member)))

end

section
variable {store : LocaleStore} {base locale key : String}
variable {expansions : List (String × List String)} {operations : List Operation}
variable {input output earlier own value : Value}

/-- The keys that operations register before a key comes up for the first time. -/
def keysBefore (expansions : List (String × List String)) (operations : List Operation)
    (key : String) : List String :=
  (registeredKeys expansions operations).takeWhile (· ≠ key)

theorem registeredKeys_map_key (expansions : List (String × List String))
    (keys : List String) :
    registeredKeys expansions (keys.map .key) = keys := by
  induction keys with
  | nil => rfl
  | cons key rest ih =>
      rw [registeredKeys] at ih ⊢
      rw [List.map_cons, List.flatMap_cons, ih]
      rfl

theorem content_map_key (store : LocaleStore) (base : String)
    (expansions : List (String × List String)) (keys : List String) (locale : String) :
    content store base expansions (keys.map .key) locale =
      mergeAll (.object []) (store.fallback base locale) (keys.filter accepts) := by
  rw [content, acceptedKeys, registeredKeys_map_key]

theorem registeredKeys_eq_append (registered : key ∈ registeredKeys expansions operations) :
    ∃ rest, registeredKeys expansions operations =
      keysBefore expansions operations key ++ key :: rest := by
  have parts := List.takeWhile_append_dropWhile (p := (· ≠ key))
    (l := registeredKeys expansions operations)
  cases remaining : (registeredKeys expansions operations).dropWhile (· ≠ key) with
  | nil =>
      have all := List.dropWhile_eq_nil_iff.mp remaining key registered
      simp at all
  | cons first rest =>
      have head := List.head?_dropWhile_not (· ≠ key) (registeredKeys expansions operations)
      rw [remaining] at head parts
      obtain rfl : first = key := by simpa using head
      exact ⟨rest, parts.symm⟩

theorem keysBefore_append (registered : key ∈ registeredKeys expansions operations)
    (accepted : accepts key = true) :
    ∃ rest, acceptedKeys expansions operations =
      (keysBefore expansions operations key).filter accepts ++ key :: rest := by
  obtain ⟨rest, equal⟩ := registeredKeys_eq_append registered
  refine ⟨rest.filter accepts, ?_⟩
  rw [acceptedKeys, equal, List.filter_append, List.filter_cons_of_pos accepted]

/-- The bucket is on no route of an accepted key. -/
theorem route_withBucket (mapping : Mapping value) (signatures path : List String)
    (reserved : ∀ segment ∈ path.head?, segment ≠ unknownBucket) :
    route (withBucket signatures value) path = route value path := by
  cases signatures with
  | nil => rfl
  | cons signature rest =>
      cases path with
      | nil => rfl
      | cons segment path =>
          obtain ⟨members, rfl, named⟩ := mapping
          rw [route, route, below_withBucket (reserved segment rfl),
            withBucket_object (by simp)]
          rfl

theorem route_segments_withBucket (mapping : Mapping value) (accepted : accepts key = true)
    (signatures : List String) :
    route (withBucket signatures value) (segments key) = route value (segments key) := by
  obtain ⟨segment, path, equal, reserved⟩ := accepts_iff.mp accepted
  apply route_withBucket mapping
  simpa [equal] using reserved

theorem beyond_withBucket (mapping : Mapping value) (accepted : accepts key = true)
    {other : String} (acceptedOther : accepts other = true) (signatures : List String) :
    Beyond (withBucket signatures value) (segments key) (segments other) ↔
      Beyond value (segments key) (segments other) := by
  obtain ⟨head, tail, equalOther, reservedHead⟩ := accepts_iff.mp acceptedOther
  have sameKey := route_segments_withBucket mapping accepted signatures
  have sameFront {front back : List String} (split : segments other = front ++ back) :
      route (withBucket signatures value) front = route value front := by
    apply route_withBucket mapping
    intro name first
    cases front with
    | nil => simp at first
    | cons given others =>
        obtain ⟨rfl, _⟩ := List.cons.inj (equalOther.symm.trans split)
        simp only [List.head?_cons, Option.mem_def, Option.some.injEq] at first
        rwa [← first]
  constructor
  · rintro ⟨front, back, split, proper, same⟩
    exact ⟨front, back, split, proper, by rwa [← sameFront split, ← sameKey]⟩
  · rintro ⟨front, back, split, proper, same⟩
    exact ⟨front, back, split, proper, by rwa [sameFront split, sameKey]⟩

/-- A locale keeps its own scalar translation of a registered key if and only if nothing
else was at the key's place when the key came up, no array blocks its path, and no
registered key leads on beyond it. -/
theorem translation_is_kept_iff (loaded : store.get? locale = some input)
    (registered : key ∈ registeredKeys expansions operations)
    (accepted : accepts key = true) (translated : truthy? input key = some own)
    (scalar : own.isContainer = false) :
    ∃ earlier output,
      Table.get? ((ofStore store base expansions).run
          ((keysBefore expansions operations key).map .key)).outputs locale = some earlier ∧
        Table.get? ((ofStore store base expansions).run operations).outputs locale =
          some output ∧
        (get? output key = some own ↔
          (truthy? earlier key = none ∨ truthy? earlier key = some own) ∧
            ¬ Blocked output (segments key) ∧
            ∀ other ∈ registeredKeys expansions operations, accepts other = true →
              ¬ Beyond output (segments key) (segments other)) := by
  obtain ⟨rest, split⟩ := keysBefore_append registered accepted
  have valueOfKey : store.fallback base locale key = own := by
    simp [LocaleStore.fallback, loaded, translated]
  have truthy : own.isTruthy = true := (Option.filter_eq_some_iff.mp translated).2
  have held := @reach_mergeAll_eq_iff (.object []) (store.fallback base locale) key
    mapping_empty ((keysBefore expansions operations key).filter accepts) rest
    (split ▸ accepts_of_mem)
    (split ▸ fun other member => isTruthy_fallback (accepts_of_mem other member))
    (by rwa [valueOfKey])
  rw [← split, valueOfKey, ← content, ← content_map_key store base expansions] at held
  refine ⟨_, _, by rw [get?_outputs_run, loaded, Option.map_some],
    by rw [get?_outputs_run, loaded, Option.map_some], ?_⟩
  rw [get?_withBucket mapping_content accepted,
    get?_eq_some_iff mapping_content.plain (segments_ne_nil accepted)
      (ne_null_of_isTruthy truthy), held, truthy?_withBucket mapping_content accepted,
    truthy?_eq_none_or_some_iff mapping_content.plain (segments_ne_nil accepted) truthy,
    blocked_withBucket mapping_content accepted]
  refine and_congr_right fun _ => and_congr_right fun _ => ?_
  constructor
  · intro noneBeyond other member acceptedOther
    rw [beyond_withBucket mapping_content accepted acceptedOther]
    exact noneBeyond other (List.mem_filter.mpr ⟨member, acceptedOther⟩)
  · intro noneBeyond other member
    obtain ⟨registeredOther, acceptedOther⟩ := List.mem_filter.mp member
    rw [← beyond_withBucket mapping_content accepted acceptedOther]
    exact noneBeyond other registeredOther acceptedOther

end

/-- A store whose base language is translated in full. -/
def menuStore : LocaleStore :=
  .ofLocales
    [("en", .object
        [("a", .string "A"),
          ("list", .object [("0", .string "Zero"), ("name", .string "Name")])]),
      ("fr", .object [("a", .string "Ah")])]

theorem translation_of_a_is_kept_iff :
    ∃ earlier output,
      Table.get? ((ofStore menuStore "en" []).run [.key "list.0"]).outputs "fr" =
          some earlier ∧
        Table.get? ((ofStore menuStore "en" []).run [.key "list.0", .key "a"]).outputs "fr" =
          some output ∧
        (get? output "a" = some (.string "Ah") ↔
          (truthy? earlier "a" = none ∨ truthy? earlier "a" = some (.string "Ah")) ∧
            ¬ Blocked output (segments "a") ∧
            ∀ other ∈ registeredKeys [] [.key "list.0", .key "a"], accepts other = true →
              ¬ Beyond output (segments "a") (segments other)) :=
  @translation_is_kept_iff menuStore "en" "fr" "a" [] [.key "list.0", .key "a"] _
    (.string "Ah") rfl (by decide +kernel) (by decide +kernel) rfl rfl

/-- Another key can lead beyond a translation, and an array can block its path. -/
theorem translations_are_lost :
    (menuStore.get? "en").bind (truthy? · "a") = some (.string "A") ∧
      (menuStore.get? "en").bind (truthy? · "list.name") = some (.string "Name") ∧
      ((Table.get? ((ofStore menuStore "en" []).run
          [.key "a", .key "a.b", .key "list.0", .key "list.name"]).outputs "en").map
        fun output => ((get? output "a").map Value.isContainer,
          (get? output "list.name").isSome)) = some (some true, false) :=
  ⟨rfl, rfl, by decide +kernel⟩

end Phrasebook.Catalog
