import Phrasebook.LocaleStore
import Phrasebook.Proofs.FileTree.Names
import Phrasebook.Proofs.Table

/-!
# Loading locales

A store has a locale for each locale file of its directory and no other.  It is there if every
one of these files can be read.
-/

namespace Phrasebook.LocaleStore

open Json

variable {tree : FileTree} {store later : LocaleStore} {file dir : Path} {locale : String}
variable {listing : List Path}

/-- A path leads to the file of a locale. -/
structure Takes (tree : FileTree) (file : Path) (locale : String) : Prop where
  isFile : tree.isFile file = true
  extension : file.extension? = some "json"
  stem : localeOf? file = some locale

theorem addEntry_of_takes (takes : Takes tree file locale) (store : LocaleStore) :
    addEntry tree store file = (readLocale tree file).map fun value =>
      ⟨Table.insert store.locales locale value, store.files ++ [file],
        store.increasing.insert locale value⟩ := by
  rw [addEntry, takes.stem]
  dsimp only
  rw [if_pos ⟨takes.isFile, takes.extension⟩]
  cases readLocale tree file with
  | error error => rfl
  | ok value => rfl

theorem addEntry_of_not_takes (other : ∀ locale, ¬ Takes tree file locale)
    (store : LocaleStore) : addEntry tree store file = .ok store := by
  unfold addEntry
  split
  · rename_i locale stem
    split
    · rename_i isLocale
      exact absurd ⟨isLocale.1, isLocale.2, stem⟩ (other locale)
    · rfl
  · rfl

/-- One directory entry is a locale file that is read, or it changes nothing. -/
theorem addEntry_cases (added : addEntry tree store file = .ok later) :
    (∃ locale value, Takes tree file locale ∧ readLocale tree file = .ok value ∧
        later.locales = Table.insert store.locales locale value ∧
        later.files = store.files ++ [file]) ∨
      (∀ locale, ¬ Takes tree file locale) ∧ later = store := by
  by_cases takes : ∃ locale, Takes tree file locale
  · obtain ⟨locale, takes⟩ := takes
    rw [addEntry_of_takes takes] at added
    cases read : readLocale tree file with
    | error error =>
        rw [read] at added
        cases added
    | ok value =>
        rw [read] at added
        obtain rfl := Except.ok.inj added
        exact .inl ⟨locale, value, takes, rfl, rfl, rfl⟩
  · rw [not_exists] at takes
    rw [addEntry_of_not_takes takes] at added
    exact .inr ⟨takes, (Except.ok.inj added).symm⟩

/-- Entries that are taken in are taken in one after the other. -/
theorem exists_addEntry_of_addEntries {rest : List Path}
    (added : addEntries tree store (file :: rest) = .ok later) :
    ∃ middle, addEntry tree store file = .ok middle ∧
      addEntries tree middle rest = .ok later := by
  rw [addEntries] at added
  cases first : addEntry tree store file with
  | error error =>
      rw [first] at added
      cases added
  | ok middle =>
      rw [first] at added
      exact ⟨middle, rfl, added⟩

/-- One directory entry adds the locale it is the file of. -/
theorem mem_names_addEntry (added : addEntry tree store file = .ok later) (name : String) :
    name ∈ later.names ↔ name ∈ store.names ∨ Takes tree file name := by
  rcases addEntry_cases added with ⟨locale, value, takes, _, locales, _⟩ | ⟨other, rfl⟩
  · rw [names, locales, Table.mem_names_insert, or_comm]
    apply or_congr_right
    constructor
    · rintro rfl
      exact takes
    · intro same
      exact Option.some.inj (same.stem.symm.trans takes.stem)
  · simp [other name]

theorem mem_names_addEntries (added : addEntries tree store listing = .ok later)
    (name : String) :
    name ∈ later.names ↔ name ∈ store.names ∨ ∃ file ∈ listing, Takes tree file name := by
  induction listing generalizing store with
  | nil =>
      obtain rfl := Except.ok.inj added
      simp
  | cons file rest ih =>
      obtain ⟨middle, first, more⟩ := exists_addEntry_of_addEntries added
      rw [ih more, mem_names_addEntry first, or_assoc]
      simp

/-- If every locale file can be read, the entries can be taken in. -/
theorem exists_addEntries
    (readable : ∀ file ∈ listing, ∀ locale, Takes tree file locale →
      ∃ value, readLocale tree file = .ok value) (store : LocaleStore) :
    ∃ later, addEntries tree store listing = .ok later := by
  induction listing generalizing store with
  | nil => exact ⟨store, rfl⟩
  | cons file rest ih =>
      have added : ∃ middle, addEntry tree store file = .ok middle := by
        by_cases takes : ∃ locale, Takes tree file locale
        · obtain ⟨locale, takes⟩ := takes
          obtain ⟨value, read⟩ := readable file List.mem_cons_self locale takes
          exact ⟨_, by rw [addEntry_of_takes takes, read]; rfl⟩
        · exact ⟨store, addEntry_of_not_takes (not_exists.mp takes) store⟩
      obtain ⟨middle, first⟩ := added
      obtain ⟨later, more⟩ := ih (fun file member => readable file (List.mem_cons_of_mem _ member))
        middle
      exact ⟨later, by rw [addEntries, first]; exact more⟩

/-- A listing that is loaded is taken in, and the files are sorted. -/
theorem exists_addEntries_of_ofListing (loaded : ofListing tree listing = .ok store) :
    ∃ later, addEntries tree default listing = .ok later ∧ store.locales = later.locales ∧
      store.files = later.files.mergeSort fun a b => a.text ≤ b.text := by
  rw [ofListing] at loaded
  cases added : addEntries tree default listing with
  | error error =>
      rw [added] at loaded
      cases loaded
  | ok later =>
      rw [added] at loaded
      obtain rfl := Except.ok.inj loaded
      exact ⟨later, rfl, rfl, rfl⟩

theorem mem_names_ofListing (loaded : ofListing tree listing = .ok store) (name : String) :
    name ∈ store.names ↔ ∃ file ∈ listing, Takes tree file name := by
  obtain ⟨later, added, same, _⟩ := exists_addEntries_of_ofListing loaded
  have none : name ∉ (default : LocaleStore).names := List.not_mem_nil
  rw [names, same, ← names, mem_names_addEntries added, or_iff_right none]

/-- A directory that is loaded was listed. -/
theorem exists_ofListing_of_load (loaded : load tree dir = .ok store) :
    ∃ listing, ofListing tree listing = .ok store := by
  unfold load at loaded
  split at loaded
  · cases loaded
  · split at loaded
    · cases loaded
    · split at loaded
      · cases loaded
      · exact ⟨_, loaded⟩

/-- The locales of a loaded store come from locale files. -/
theorem takes_of_load (loaded : load tree dir = .ok store) (member : locale ∈ store.names) :
    ∃ file, Takes tree file locale := by
  obtain ⟨listing, listed⟩ := exists_ofListing_of_load loaded
  obtain ⟨file, _, takes⟩ := (mem_names_ofListing listed locale).mp member
  exact ⟨file, takes⟩

theorem names_of_load (loaded : load tree dir = .ok store) (member : locale ∈ store.names) :
    Path.Names locale := by
  obtain ⟨file, takes⟩ := takes_of_load loaded member
  exact Path.names_of_fileStem? takes.stem takes.extension

/-- A directory whose locale files can all be read has a store with just their locales. -/
theorem exists_load {names : List String} (there : tree.pathExists dir = true)
    (isDir : tree.isDir dir = true) (listed : tree.names dir = .ok names)
    (readable : ∀ name ∈ names, ∀ locale, Takes tree (dir.join ⟨name⟩) locale →
      ∃ value, readLocale tree (dir.join ⟨name⟩) = .ok value) :
    ∃ store, load tree dir = .ok store ∧
      ∀ locale, locale ∈ store.names ↔ ∃ name ∈ names, Takes tree (dir.join ⟨name⟩) locale := by
  have all : ∀ file ∈ names.map (fun name => dir.join ⟨name⟩), ∀ locale,
      Takes tree file locale → ∃ value, readLocale tree file = .ok value := by
    intro file member locale takes
    obtain ⟨name, held, rfl⟩ := List.mem_map.mp member
    exact readable name held locale takes
  obtain ⟨middle, added⟩ := exists_addEntries all default
  have loaded : ∃ store, ofListing tree (names.map fun name => dir.join ⟨name⟩) = .ok store :=
    ⟨_, by rw [ofListing, added]; rfl⟩
  obtain ⟨store, loaded⟩ := loaded
  refine ⟨store, ?_, ?_⟩
  · simp only [load, there, isDir, listed, Bool.not_true, Bool.false_eq_true, if_false, loaded]
  · intro locale
    rw [mem_names_ofListing loaded]
    simp

end Phrasebook.LocaleStore
