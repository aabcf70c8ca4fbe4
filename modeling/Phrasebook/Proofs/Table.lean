import Mathlib.Data.List.Nodup
import Phrasebook.Table

/-!
# Laws of tables

`get?` sees the first entry of a name, `put` changes that entry and nothing else,
and a table without repeated names is determined by its names and what `get?`
answers for them.  Only the last of these needs the names to be distinct.  Entries are a table as
they stand if their names are distinct.
-/

namespace Phrasebook.Table

variable {α β : Type}

@[simp] theorem get?_nil (name : String) : get? ([] : List (String × α)) name = none :=
  rfl

theorem get?_cons (key : String) (value : α) (rest : List (String × α))
    (name : String) :
    get? ((key, value) :: rest) name =
      if key = name then some value else get? rest name :=
  rfl

@[simp] theorem names_nil : names ([] : List (String × α)) = [] :=
  rfl

@[simp] theorem names_cons (entry : String × α) (rest : List (String × α)) :
    names (entry :: rest) = entry.1 :: names rest :=
  rfl

@[simp] theorem get?_eq_none_iff {table : List (String × α)} {name : String} :
    get? table name = none ↔ name ∉ names table := by
  induction table with
  | nil => simp
  | cons head rest ih =>
      obtain ⟨key, value⟩ := head
      by_cases equal : key = name
      · simp [get?, equal]
      · simp [get?, equal, ih, Ne.symm equal]

theorem get?_isSome_iff {table : List (String × α)} {name : String} :
    (get? table name).isSome ↔ name ∈ names table := by
  rw [← not_iff_not, ← get?_eq_none_iff]
  simp

/-- Where names are distinct, every entry is found. -/
theorem get?_of_mem {table : List (String × α)} (nodup : (names table).Nodup)
    {name : String} {value : α} (member : (name, value) ∈ table) :
    get? table name = some value := by
  induction table with
  | nil => simp at member
  | cons head rest ih =>
      obtain ⟨key, old⟩ := head
      obtain ⟨fresh, nodup⟩ := List.nodup_cons.mp nodup
      rcases List.mem_cons.mp member with equal | member
      · obtain ⟨rfl, rfl⟩ := Prod.mk.inj equal
        simp [get?]
      · have different : key ≠ name := fun equal =>
          fresh (List.mem_map.mpr ⟨(name, value), member, equal.symm⟩)
        rw [get?_cons, if_neg different, ih nodup member]

theorem mem_of_get? {table : List (String × α)} {name : String} {value : α}
    (found : get? table name = some value) : (name, value) ∈ table := by
  induction table with
  | nil => cases found
  | cons head rest ih =>
      obtain ⟨key, old⟩ := head
      rw [get?_cons] at found
      split at found
      · rename_i equal
        rw [← equal, Option.some.inj found]
        exact List.mem_cons_self
      · exact List.mem_cons_of_mem _ (ih found)

/-- Lookup in a table whose values are computed from the entries of another. -/
theorem get?_map (table : List (String × α)) (image : String → α → β) (name : String) :
    get? (table.map fun entry => (entry.1, image entry.1 entry.2)) name =
      (get? table name).map (image name) := by
  induction table with
  | nil => rfl
  | cons head rest ih =>
      obtain ⟨key, value⟩ := head
      by_cases equal : key = name
      · subst equal
        simp [get?]
      · simpa [get?, equal] using ih

/-- Lookup in a table of the entries of another for which there is a value. -/
theorem get?_filterMap {table : List (String × α)} (nodup : (names table).Nodup)
    (image : String → α → Option β) (name : String) :
    get? (table.filterMap fun entry => (image entry.1 entry.2).map fun value => (entry.1, value))
        name =
      (get? table name).bind (image name) := by
  induction table with
  | nil => rfl
  | cons head rest ih =>
      obtain ⟨key, value⟩ := head
      obtain ⟨fresh, nodup⟩ := List.nodup_cons.mp nodup
      rw [List.filterMap_cons, get?_cons]
      by_cases equal : key = name
      · subst equal
        rw [if_pos rfl]
        cases found : image key value with
        | some result => simp [get?, found]
        | none =>
            simp only [found, Option.map_none, ih nodup, Option.bind_some]
            rw [get?_eq_none_iff.mpr fresh]
            rfl
      · rw [if_neg equal]
        cases found : image key value with
        | some result => simp [get?, equal, ih nodup]
        | none => simp [ih nodup]

/-- Lookup in a table of which only some values are kept. -/
theorem get?_filter {table : List (String × α)} (nodup : (names table).Nodup)
    (keep : α → Bool) (name : String) :
    get? (table.filter fun entry => keep entry.2) name = (get? table name).filter keep := by
  have guarded : (table.filter fun entry => keep entry.2) =
      table.filterMap fun entry =>
        (Option.guard keep entry.2).map fun value => (entry.1, value) := by
    rw [← List.filterMap_eq_filter]
    refine congrArg (table.filterMap ·) (funext fun entry => ?_)
    cases kept : keep entry.2 <;> simp [Option.guard, kept]
  rw [guarded, get?_filterMap nodup fun _ => Option.guard keep, Option.bind_guard]

/-- Tables with the same distinct names are equal when they agree on lookups. -/
theorem ext {left right : List (String × α)} (sameNames : names left = names right)
    (nodup : (names left).Nodup)
    (agree : ∀ name, get? left name = get? right name) : left = right := by
  induction left generalizing right with
  | nil =>
      cases right with
      | nil => rfl
      | cons head rest => simp at sameNames
  | cons head rest ih =>
      obtain ⟨key, value⟩ := head
      cases right with
      | nil => simp at sameNames
      | cons other others =>
          obtain ⟨key', value'⟩ := other
          simp only [names_cons, List.cons.injEq] at sameNames
          obtain ⟨rfl, sameNames⟩ := sameNames
          obtain ⟨fresh, nodup⟩ := List.nodup_cons.mp nodup
          have values : value = value' := by
            simpa [get?] using agree key
          have tails : rest = others := by
            apply ih sameNames nodup
            intro name
            by_cases equal : key = name
            · subst equal
              rw [get?_eq_none_iff.mpr fresh, eq_comm, get?_eq_none_iff]
              rwa [← sameNames]
            · simpa [get?, equal] using agree name
          rw [values, tails]

/-- It is enough that they agree where a default stands for what is missing. -/
theorem ext_getD {left right : List (String × α)} (sameNames : names left = names right)
    (nodup : (names left).Nodup) (default : α)
    (agree : ∀ name, (get? left name).getD default = (get? right name).getD default) :
    left = right := by
  apply ext sameNames nodup
  intro name
  have same := agree name
  by_cases member : name ∈ names left
  · obtain ⟨value, found⟩ := Option.isSome_iff_exists.mp (get?_isSome_iff.mpr member)
    obtain ⟨other, foundOther⟩ :=
      Option.isSome_iff_exists.mp (get?_isSome_iff.mpr (sameNames ▸ member))
    rw [found, foundOther] at same ⊢
    exact congrArg some same
  · rw [get?_eq_none_iff.mpr member, get?_eq_none_iff.mpr (sameNames ▸ member)]

/-! ## Putting -/

theorem get?_put (table : List (String × α)) (name other : String) (value : α) :
    get? (put table name value) other =
      if name = other then some value else get? table other := by
  induction table with
  | nil => rfl
  | cons head rest ih =>
      obtain ⟨key, old⟩ := head
      by_cases equal : key = name
      · subst equal
        simp only [put, if_true, get?]
        split <;> rfl
      · simp only [put, if_neg equal, get?, ih]
        by_cases same : key = other
        · have different : name ≠ other := fun h => equal (same.trans h.symm)
          simp [same, different]
        · simp [same]

/-- Putting back what a name has changes nothing. -/
theorem put_of_get? {table : List (String × α)} {name : String} {value : α}
    (found : get? table name = some value) : put table name value = table := by
  induction table with
  | nil => simp at found
  | cons head rest ih =>
      obtain ⟨key, old⟩ := head
      by_cases equal : key = name
      · simp only [get?, if_pos equal, Option.some.injEq] at found
        simp [put, equal, found]
      · simp only [get?, if_neg equal] at found
        simp [put, equal, ih found]

@[simp] theorem put_put (table : List (String × α)) (name : String) (first second : α) :
    put (put table name first) name second = put table name second := by
  induction table with
  | nil => simp [put]
  | cons head rest ih =>
      obtain ⟨key, old⟩ := head
      by_cases equal : key = name
      · simp [put, equal]
      · simp [put, equal, ih]

/-- A new name goes to the end; a known one keeps its place. -/
theorem names_put (table : List (String × α)) (name : String) (value : α) :
    names (put table name value) =
      if name ∈ names table then names table else names table ++ [name] := by
  induction table with
  | nil => rfl
  | cons head rest ih =>
      obtain ⟨key, old⟩ := head
      by_cases equal : key = name
      · subst equal
        simp [put]
      · have different : name ≠ key := Ne.symm equal
        simp only [put, if_neg equal, names_cons, ih, List.mem_cons, different, false_or]
        split <;> simp

theorem put_of_not_mem {table : List (String × α)} {name : String}
    (fresh : name ∉ names table) (value : α) : put table name value = table ++ [(name, value)] := by
  induction table with
  | nil => rfl
  | cons head rest ih =>
      obtain ⟨key, old⟩ := head
      rw [names_cons, List.mem_cons, not_or] at fresh
      rw [put, if_neg (Ne.symm fresh.1), ih fresh.2, List.cons_append]

theorem mem_names_put {table : List (String × α)} {name other : String} {value : α} :
    other ∈ names (put table name value) ↔ other = name ∨ other ∈ names table := by
  rw [names_put]
  split
  · rename_i member
    exact ⟨.inr, fun h => h.elim (fun equal => equal ▸ member) id⟩
  · simp [or_comm]

theorem put_ne_nil (table : List (String × α)) (name : String) (value : α) :
    put table name value ≠ [] := by
  intro empty
  have named : name ∈ names (put table name value) := mem_names_put.mpr (.inl rfl)
  rw [empty] at named
  cases named

theorem nodup_names_put {table : List (String × α)} (nodup : (names table).Nodup)
    (name : String) (value : α) : (names (put table name value)).Nodup := by
  rw [names_put]
  split
  · exact nodup
  · rename_i fresh
    refine List.nodup_append.mpr ⟨nodup, List.nodup_singleton name, ?_⟩
    intro other member last lastMember equal
    rw [List.mem_singleton.mp lastMember] at equal
    exact fresh (equal ▸ member)

theorem names_sublist_put (table : List (String × α)) (name : String) (value : α) :
    (names table).Sublist (names (put table name value)) := by
  rw [names_put]
  split
  · exact List.Sublist.refl _
  · exact List.sublist_append_left ..

/-- What `put` does to the names depends on the names alone. -/
theorem names_put_congr {left right : List (String × α)}
    (same : names left = names right) (name : String) (first second : α) :
    names (put left name first) = names (put right name second) := by
  rw [names_put, names_put, same]

/-- The place of a name does not depend on what is put there. -/
theorem put_eq_append (table : List (String × α)) (name : String) :
    ∃ front back, ∀ value, put table name value = front ++ (name, value) :: back := by
  induction table with
  | nil => exact ⟨[], [], fun _ => rfl⟩
  | cons head rest ih =>
      obtain ⟨key, old⟩ := head
      by_cases equal : key = name
      · exact ⟨[], rest, fun value => by simp [put, equal]⟩
      · obtain ⟨front, back, split⟩ := ih
        exact ⟨(key, old) :: front, back, fun value => by simp [put, equal, split]⟩

theorem put_append (front rest : List (String × α)) (name : String) (value : α) :
    put (front ++ rest) name value =
      if name ∈ names front then put front name value ++ rest
      else front ++ put rest name value := by
  induction front with
  | nil => rfl
  | cons head front ih =>
      obtain ⟨key, old⟩ := head
      by_cases equal : key = name
      · simp [put, equal]
      · simp only [List.cons_append, put, if_neg equal, ih, names_cons, List.mem_cons,
          Ne.symm equal, false_or]
        split <;> rfl

theorem get?_append (front rest : List (String × α)) (name : String) :
    get? (front ++ rest) name = (get? front name).or (get? rest name) := by
  induction front with
  | nil => rfl
  | cons head front ih =>
      obtain ⟨key, old⟩ := head
      by_cases equal : key = name
      · simp [get?, equal]
      · simpa [get?, equal] using ih

/-- Of tables one after the other, the first that has a name counts. -/
theorem get?_flatMap {list : List β} {image : β → List (String × α)} {name : String}
    {lookup : β → Option α} (each : ∀ item ∈ list, get? (image item) name = lookup item) :
    get? (list.flatMap image) name = list.findSome? lookup := by
  induction list with
  | nil => rfl
  | cons item rest ih =>
      obtain ⟨first, others⟩ := List.forall_mem_cons.mp each
      rw [List.flatMap_cons, get?_append, ih others, first, List.findSome?_cons]
      cases lookup item with
      | some value => rfl
      | none => rfl

/-- Two names can be put in either order, unless both are new. -/
theorem put_comm {name other : String} (different : name ≠ other)
    (table : List (String × α)) (first second : α) :
    put (put table name first) other second = put (put table other second) name first ∨
      put (put table name first) other second = table ++ [(name, first), (other, second)] ∧
        put (put table other second) name first =
          table ++ [(other, second), (name, first)] := by
  induction table with
  | nil => exact .inr (by simp [put, different, Ne.symm different])
  | cons head rest ih =>
      obtain ⟨key, old⟩ := head
      by_cases atName : key = name
      · subst atName
        exact .inl (by simp [put, different])
      · by_cases atOther : key = other
        · subst atOther
          exact .inl (by simp [put, Ne.symm different])
        · simpa [put, atName, atOther] using ih

theorem erase_of_not_mem {table : List (String × α)} {name : String}
    (absent : name ∉ names table) : erase table name = table := by
  apply List.filter_eq_self.mpr
  intro entry member
  have named : entry.1 ∈ names table := List.mem_map_of_mem member
  have different : entry.1 ≠ name := fun equal => absent (equal ▸ named)
  simpa using different

/-- Erasing the first name of a table takes off its head. -/
theorem erase_cons_self {name : String} {table : List (String × α)} (value : α)
    (absent : name ∉ names table) : erase ((name, value) :: table) name = table := by
  rw [erase, List.filter_cons_of_neg (by simp)]
  exact erase_of_not_mem absent

/-! ## Sorted tables -/

theorem get?_insert (table : List (String × α)) (name other : String) (value : α) :
    get? (insert table name value) other =
      if name = other then some value else get? table other := by
  induction table with
  | nil => rfl
  | cons head rest ih =>
      obtain ⟨key, old⟩ := head
      by_cases equal : key = name
      · subst equal
        simp only [insert, if_true, get?]
        split <;> rfl
      · by_cases less : name < key
        · simp only [insert, if_neg equal, if_pos less, get?]
        · simp only [insert, if_neg equal, if_neg less, get?, ih]
          by_cases same : key = other
          · have different : name ≠ other := fun h => equal (same.trans h.symm)
            simp [same, different]
          · simp [same]

theorem mem_names_insert {table : List (String × α)} {name other : String} {value : α} :
    other ∈ names (insert table name value) ↔ other = name ∨ other ∈ names table := by
  rw [← get?_isSome_iff, ← get?_isSome_iff, get?_insert]
  by_cases same : name = other
  · simp [same]
  · simp [same, Ne.symm same]

theorem Increasing.nodup {table : List (String × α)} (increasing : Increasing table) :
    (names table).Nodup := by
  rw [names, List.Nodup, List.pairwise_map]
  refine increasing.imp ?_
  intro left right less equal
  exact String.lt_irrefl _ (equal ▸ less)

/-- A name above all others is inserted at the end. -/
theorem insert_of_above {table : List (String × α)} {name : String}
    (above : ∀ entry ∈ table, entry.1 < name) (value : α) :
    insert table name value = table ++ [(name, value)] := by
  induction table with
  | nil => rfl
  | cons head rest ih =>
      obtain ⟨key, old⟩ := head
      have less : key < name := above (key, old) List.mem_cons_self
      have different : key ≠ name := fun equal => String.lt_irrefl _ (equal ▸ less)
      have notLess : ¬ name < key := fun greater =>
        String.lt_irrefl _ (String.lt_trans less greater)
      simp only [insert, if_neg different, if_neg notLess, List.cons_append,
        ih fun entry member => above entry (List.mem_cons_of_mem _ member)]

theorem foldl_insert_of_increasing {table entries : List (String × α)}
    (increasing : Increasing (table ++ entries)) :
    entries.foldl (fun table entry => insert table entry.1 entry.2) table =
      table ++ entries := by
  induction entries generalizing table with
  | nil => simp
  | cons entry rest ih =>
      have above : ∀ other ∈ table, other.1 < entry.1 := fun other member =>
        (List.pairwise_append.mp increasing).2.2 other member entry List.mem_cons_self
      rw [List.foldl_cons, insert_of_above above, ih (by simpa using increasing)]
      simp

/-- Sorting leaves a table whose names increase as it is. -/
theorem sorted_of_increasing {table : List (String × α)}
    (increasing : Increasing table) : sorted table = table :=
  @foldl_insert_of_increasing α [] table increasing

/-- Tables whose names increase are equal when they agree on lookups. -/
theorem Increasing.ext {left right : List (String × α)} (increasing : Increasing left)
    (increasing' : Increasing right) (agree : ∀ name, get? left name = get? right name) :
    left = right := by
  have members : ∀ entry, entry ∈ left ↔ entry ∈ right := by
    intro ⟨name, value⟩
    constructor
    · intro member
      exact mem_of_get? ((agree name).symm.trans (get?_of_mem increasing.nodup member))
    · intro member
      exact mem_of_get? ((agree name).trans (get?_of_mem increasing'.nodup member))
  have perm : left.Perm right :=
    (List.perm_ext_iff_of_nodup (.of_map _ increasing.nodup) (.of_map _ increasing'.nodup)).mpr
      members
  refine perm.eq_of_pairwise ?_ increasing increasing'
  intro entry other _ _ less greater
  exact absurd (String.lt_trans less greater) (String.lt_irrefl _)

/-- The first value of an increasing table for which there is an image is that of the least
name. -/
theorem Increasing.findSome?_eq_some_iff {table : List (String × α)}
    (increasing : Increasing table) {image : α → Option β} {result : β} :
    (table.findSome? fun entry => image entry.2) = some result ↔
      ∃ name value, get? table name = some value ∧ image value = some result ∧
        ∀ other < name, ∀ value, get? table other = some value → image value = none := by
  rw [List.findSome?_eq_some_iff]
  constructor
  · rintro ⟨front, ⟨name, value⟩, back, rfl, found, before⟩
    refine ⟨name, value, get?_of_mem increasing.nodup (by simp), found, ?_⟩
    intro other less held present
    rcases List.mem_append.mp (mem_of_get? present) with earlier | later
    · exact before (other, held) earlier
    · obtain ⟨above, _⟩ := List.pairwise_cons.mp (List.pairwise_append.mp increasing).2.1
      rcases List.mem_cons.mp later with same | later
      · obtain ⟨rfl, rfl⟩ := Prod.mk.inj same
        exact absurd less (String.lt_irrefl _)
      · exact absurd (String.lt_trans less (above _ later)) (String.lt_irrefl _)
  · rintro ⟨name, value, present, found, before⟩
    obtain ⟨front, back, rfl⟩ := List.append_of_mem (mem_of_get? present)
    refine ⟨front, (name, value), back, rfl, found, ?_⟩
    intro entry earlier
    have less : entry.1 < name :=
      (List.pairwise_append.mp increasing).2.2 entry earlier (name, value) List.mem_cons_self
    exact before entry.1 less entry.2
      (get?_of_mem increasing.nodup (List.mem_append_left _ earlier))

/-- Entries with distinct names come before what a table has. -/
theorem get?_foldl_insert {entries : List (String × α)} (nodup : (names entries).Nodup)
    (table : List (String × α)) (name : String) :
    get? (entries.foldl (fun table entry => insert table entry.1 entry.2) table) name =
      (get? entries name).or (get? table name) := by
  induction entries generalizing table with
  | nil => rfl
  | cons entry rest ih =>
      obtain ⟨key, value⟩ := entry
      obtain ⟨fresh, nodup⟩ := List.nodup_cons.mp nodup
      rw [List.foldl_cons, ih nodup, get?_insert, get?_cons]
      by_cases equal : key = name
      · subst equal
        rw [get?_eq_none_iff.mpr fresh, if_pos rfl, if_pos rfl, Option.none_or, Option.some_or]
      · rw [if_neg equal, if_neg equal]

/-- Putting adds at most the given entry. -/
theorem mem_put {table : List (String × α)} {name : String} {value : α} {entry : String × α}
    (member : entry ∈ put table name value) : entry = (name, value) ∨ entry ∈ table := by
  induction table with
  | nil => exact .inl (List.mem_singleton.mp member)
  | cons head rest ih =>
      obtain ⟨key, old⟩ := head
      rw [put] at member
      split at member
      · rename_i equal
        rw [equal, List.mem_cons] at member
        exact member.imp_right (List.mem_cons_of_mem _)
      · rcases List.mem_cons.mp member with rfl | later
        · exact .inr List.mem_cons_self
        · exact (ih later).imp_right (List.mem_cons_of_mem _)

theorem mem_foldl_put {table entries : List (String × α)} {entry : String × α}
    (member : entry ∈ entries.foldl (fun table entry => put table entry.1 entry.2) table) :
    entry ∈ table ∨ entry ∈ entries := by
  induction entries generalizing table with
  | nil => exact .inl member
  | cons first rest ih =>
      rcases ih member with put | later
      · rcases mem_put put with rfl | old
        · exact .inr List.mem_cons_self
        · exact .inl old
      · exact .inr (List.mem_cons_of_mem _ later)

theorem mem_ofEntries {entries : List (String × α)} {entry : String × α}
    (member : entry ∈ ofEntries entries) : entry ∈ entries :=
  (mem_foldl_put member).resolve_left List.not_mem_nil

theorem foldl_put_of_nodup {table entries : List (String × α)}
    (nodup : (names (table ++ entries)).Nodup) :
    entries.foldl (fun table entry => put table entry.1 entry.2) table = table ++ entries := by
  induction entries generalizing table with
  | nil => simp
  | cons entry rest ih =>
      have fresh : entry.1 ∉ names table := by
        rw [names, List.map_append, List.map_cons, List.nodup_middle, List.nodup_cons] at nodup
        exact fun member => nodup.1 (List.mem_append_left _ member)
      rw [List.foldl_cons, put_of_not_mem fresh, ih (by simpa using nodup)]
      simp

theorem nodup_names_foldl_put {table : List (String × α)} (nodup : (names table).Nodup)
    (entries : List (String × α)) :
    (names (entries.foldl (fun table entry => put table entry.1 entry.2) table)).Nodup := by
  induction entries generalizing table with
  | nil => exact nodup
  | cons entry rest ih => exact ih (nodup_names_put nodup entry.1 entry.2)

theorem nodup_names_ofEntries (entries : List (String × α)) :
    (names (ofEntries entries)).Nodup := by
  have nodup : (names ([] : List (String × α))).Nodup := List.nodup_nil
  exact nodup_names_foldl_put nodup entries

/-- Entries are a table just if their names are distinct. -/
theorem ofEntries_eq_self_iff {entries : List (String × α)} :
    ofEntries entries = entries ↔ (names entries).Nodup := by
  constructor
  · intro same
    rw [← same]
    exact nodup_names_ofEntries entries
  · intro nodup
    exact foldl_put_of_nodup nodup

end Phrasebook.Table
