import Phrasebook.LocaleFiles
import Phrasebook.Proofs.FileTree.LastPlace
import Phrasebook.Proofs.Locales.Loading

/-!
# Loading a directory in any order

A directory is loaded as one locale for each of its locale files, each with the translations in
its own file.  The order in which the directory is listed does not matter.
-/

namespace Phrasebook.LocaleStore

open Json LocaleFiles Phrasebook.Path

variable {tree : FileTree} {store later : LocaleStore} {file dir : Path} {locale name : String}
variable {listing others : List Path} {value : Value}

/-- The paths that lead to locale files. -/
def localePaths (tree : FileTree) (listing : List Path) : List Path :=
  listing.filter fun file => tree.isFile file ∧ file.extension? = some "json"

theorem exists_takes_iff :
    (∃ locale, Takes tree file locale) ↔
      tree.isFile file = true ∧ file.extension? = some "json" := by
  constructor
  · rintro ⟨locale, takes⟩
    exact ⟨takes.isFile, takes.extension⟩
  · rintro ⟨isFile, extension⟩
    obtain ⟨name, found, _⟩ := Option.bind_eq_some_iff.mp extension
    exact ⟨_, isFile, extension, by rw [localeOf?, fileStem?, found, Option.map_some]⟩

theorem mem_localePaths :
    file ∈ localePaths tree listing ↔ file ∈ listing ∧ ∃ locale, Takes tree file locale := by
  rw [localePaths, List.mem_filter, exists_takes_iff, decide_eq_true_iff]

theorem readLocale_eq_ok_iff :
    readLocale tree file = .ok value ↔
      ∃ text, tree.entry file = .ok (.file (.text text)) ∧ Value.parse text = .ok value := by
  simp only [← FileTree.readText_eq_ok_iff]
  unfold readLocale
  cases read : tree.readText file with
  | error error => simp [Except.mapError, bind, Except.bind]
  | ok text =>
      cases parsed : Value.parse text with
      | error fault => simp [Except.mapError, bind, Except.bind, parsed]
      | ok found => simp [Except.mapError, bind, Except.bind, parsed]

/-- The entry of a directory is a locale file if it is a file that is named after a locale. -/
theorem takes_join_iff (plain : Plain name.toList) (somewhere : dir.text ≠ "") :
    Takes tree (dir.join ⟨name⟩) locale ↔
      locale ≠ "" ∧ name = locale ++ ".json" ∧ tree.isFile (dir.join ⟨name⟩) = true := by
  constructor
  · intro takes
    have named := fileName?_join_of_plain plain somewhere
    have extension := takes.extension
    have stem := takes.stem
    rw [extension?, named, Option.bind_some] at extension
    rw [localeOf?, fileStem?, named, Option.map_some] at stem
    obtain ⟨ending, ended, json⟩ := Option.map_eq_some_iff.mp extension
    obtain rfl := Option.some.inj stem
    have cut : splitName name.toList = ((splitName name.toList).1, some ending) := by rw [← ended]
    obtain ⟨whole, nonempty⟩ := eq_of_splitName cut
    refine ⟨by simpa using nonempty, ?_, takes.isFile⟩
    have json : ending = "json".toList := by rw [← json, String.toList_ofList]
    rw [← String.toList_inj, String.toList_append, String.toList_ofList,
      show ".json".toList = '.' :: "json".toList from rfl, ← json]
    exact whole
  · rintro ⟨nonempty, rfl, isFile⟩
    have noSlash := plain.noSlash
    rw [String.toList_append, List.mem_append, not_or] at noSlash
    have names : Names locale := ⟨by simpa using nonempty, noSlash.1⟩
    exact ⟨isFile, extension?_join names somewhere, fileStem?_join names somewhere⟩

theorem localePaths_cons (file : Path) (rest : List Path) :
    localePaths tree (file :: rest) = localePaths tree [file] ++ localePaths tree rest :=
  List.filter_append [file] rest

/-- The entries that are taken in are the locale files. -/
theorem files_addEntries (added : addEntries tree store listing = .ok later) :
    later.files = store.files ++ localePaths tree listing := by
  induction listing generalizing store with
  | nil =>
      obtain rfl := Except.ok.inj added
      exact (List.append_nil _).symm
  | cons file rest ih =>
      obtain ⟨middle, first, more⟩ := exists_addEntry_of_addEntries added
      rw [ih more, localePaths_cons, ← List.append_assoc]
      congr 1
      rcases addEntry_cases first with ⟨locale, _, takes, _, _, files⟩ | ⟨other, rfl⟩
      · have kept : localePaths tree [file] = [file] := by
          simp [localePaths, takes.isFile, takes.extension]
        rw [files, kept]
      · have left : localePaths tree [file] = [] := by
          rw [← not_exists, exists_takes_iff] at other
          simpa [localePaths] using other
        rw [left, List.append_nil]

/-- A locale file that is taken in has been read. -/
theorem exists_readLocale_of_addEntries (added : addEntries tree store listing = .ok later)
    (member : file ∈ listing) (takes : Takes tree file locale) :
    ∃ value, readLocale tree file = .ok value := by
  induction listing generalizing store with
  | nil => cases member
  | cons first rest ih =>
      obtain ⟨middle, taken, more⟩ := exists_addEntry_of_addEntries added
      rcases List.mem_cons.mp member with rfl | member
      · rcases addEntry_cases taken with ⟨_, value, _, read, _⟩ | ⟨other, _⟩
        · exact ⟨value, read⟩
        · exact absurd takes (other locale)
      · exact ih more member

/-- The translations of a locale were there before or come from one of its files. -/
theorem source_of_addEntries (added : addEntries tree store listing = .ok later)
    (found : later.get? locale = some value) :
    store.get? locale = some value ∨
      ∃ file ∈ listing, Takes tree file locale ∧ readLocale tree file = .ok value := by
  induction listing generalizing store with
  | nil =>
      obtain rfl := Except.ok.inj added
      exact .inl found
  | cons first rest ih =>
      obtain ⟨middle, taken, more⟩ := exists_addEntry_of_addEntries added
      rcases ih more with before | ⟨file, member, takes, read⟩
      · rcases addEntry_cases taken with ⟨own, held, takes, read, locales, _⟩ | ⟨_, rfl⟩
        · rw [get?, locales, Table.get?_insert] at before
          split at before
          · rename_i same
            obtain rfl := Option.some.inj before
            exact .inr ⟨first, List.mem_cons_self, same ▸ takes, read⟩
          · exact .inl before
        · exact .inl before
      · exact .inr ⟨file, List.mem_cons_of_mem _ member, takes, read⟩

/-! ## Listings -/

/-- A listing can be loaded just if each of its locale files can be read. -/
theorem exists_ofListing_iff :
    (∃ store, ofListing tree listing = .ok store) ↔
      ∀ file ∈ listing, ∀ locale, Takes tree file locale →
        ∃ value, readLocale tree file = .ok value := by
  constructor
  · rintro ⟨store, loaded⟩ file member locale takes
    obtain ⟨later, added, _⟩ := exists_addEntries_of_ofListing loaded
    exact exists_readLocale_of_addEntries added member takes
  · intro readable
    obtain ⟨later, added⟩ := exists_addEntries readable default
    exact ⟨_, by rw [ofListing, added]; rfl⟩

/-- The files of a store are the locale files of the listing. -/
theorem files_perm (loaded : ofListing tree listing = .ok store) :
    store.files.Perm (localePaths tree listing) := by
  obtain ⟨later, added, _, files⟩ := exists_addEntries_of_ofListing loaded
  rw [files, files_addEntries added]
  exact List.mergeSort_perm ..

theorem files_increasing (loaded : ofListing tree listing = .ok store) :
    store.files.Pairwise fun file other => file.text ≤ other.text := by
  obtain ⟨later, _, _, files⟩ := exists_addEntries_of_ofListing loaded
  rw [files]
  have sorted : (later.files.mergeSort fun file other => file.text ≤ other.text).Pairwise
      fun file other => decide (file.text ≤ other.text) = true :=
    List.pairwise_mergeSort (fun _ _ _ => by simpa using String.le_trans)
      (fun _ _ => by simpa using String.le_total ..) later.files
  exact sorted.imp of_decide_eq_true

/-- No two files are of one locale. -/
def Apart (tree : FileTree) (listing : List Path) : Prop :=
  ∀ file ∈ listing, ∀ other ∈ listing, ∀ locale,
    Takes tree file locale → Takes tree other locale → file = other

/-- A locale has the translations in its file. -/
theorem get?_ofListing (apart : Apart tree listing) (loaded : ofListing tree listing = .ok store) :
    store.get? locale = some value ↔
      ∃ file ∈ listing, Takes tree file locale ∧ readLocale tree file = .ok value := by
  obtain ⟨later, added, same, _⟩ := exists_addEntries_of_ofListing loaded
  have source : ∀ value, store.get? locale = some value →
      ∃ file ∈ listing, Takes tree file locale ∧ readLocale tree file = .ok value := by
    intro value found
    rw [get?, same] at found
    refine (source_of_addEntries added found).resolve_left ?_
    rintro ⟨⟩
  refine ⟨source value, ?_⟩
  rintro ⟨file, member, takes, read⟩
  have named : locale ∈ store.names := (mem_names_ofListing loaded locale).mpr ⟨file, member, takes⟩
  obtain ⟨held, found⟩ := Option.isSome_iff_exists.mp (Table.get?_isSome_iff.mpr named)
  obtain ⟨other, listed, takesOther, readOther⟩ := source held found
  obtain rfl := apart file member other listed locale takes takesOther
  rw [read] at readOther
  rw [Except.ok.inj readOther]
  exact found

/-- Listings with the same entries are loaded as the same store. -/
theorem ofListing_of_perm (apart : Apart tree listing) (perm : others.Perm listing)
    (loaded : ofListing tree listing = .ok store) : ofListing tree others = .ok store := by
  have readable := exists_ofListing_iff.mp ⟨store, loaded⟩
  obtain ⟨again, loadedAgain⟩ := exists_ofListing_iff.mpr fun file member =>
    readable file (perm.subset member)
  have apartOthers : Apart tree others := fun file member other listed =>
    apart file (perm.subset member) other (perm.subset listed)
  have locales : again.locales = store.locales := by
    refine again.increasing.ext store.increasing fun locale => Option.ext fun value => ?_
    have same : again.get? locale = some value ↔ store.get? locale = some value := by
      rw [get?_ofListing apartOthers loadedAgain, get?_ofListing apart loaded]
      simp only [perm.mem_iff]
    exact same
  have files : again.files = store.files := by
    refine List.Perm.eq_of_pairwise ?_ (files_increasing loadedAgain) (files_increasing loaded)
      (((files_perm loadedAgain).trans (perm.filter _)).trans (files_perm loaded).symm)
    intro file other _ _ le ge
    cases file
    cases other
    exact congrArg Path.mk (String.le_antisymm le ge)
  rw [loadedAgain]
  congr 1
  cases again
  cases store
  simp_all

section
variable {names : List String} (listed : tree.names dir = .ok names)
variable (plain : ∀ name ∈ names, Plain name.toList)
include listed

/-- A directory is loaded from its listing. -/
theorem load_eq : load tree dir = ofListing tree (names.map fun name => dir.join ⟨name⟩) := by
  obtain ⟨entries, leads, _⟩ := FileTree.names_eq_ok_iff.mp listed
  have there : tree.pathExists dir = true := FileTree.pathExists_iff.mpr ⟨_, leads⟩
  have isDir : tree.isDir dir = true := FileTree.isDir_iff.mpr ⟨_, leads⟩
  simp only [load, there, isDir, listed, Bool.not_true, Bool.false_eq_true, if_false]

theorem text_ne_of_names : dir.text ≠ "" := by
  obtain ⟨entries, leads, _⟩ := FileTree.names_eq_ok_iff.mp listed
  obtain ⟨location, resolved, _⟩ := FileTree.entry_eq_ok_iff.mp leads
  exact (FileTree.sound_of_resolve resolved).somewhere

include plain

theorem listed_and_takes_iff :
    (file ∈ names.map fun name => dir.join ⟨name⟩) ∧ Takes tree file locale ↔
      locale ≠ "" ∧ locale ++ ".json" ∈ names ∧ file = localeFile dir locale ∧
        tree.isFile file = true := by
  have somewhere := text_ne_of_names listed
  constructor
  · rintro ⟨member, takes⟩
    obtain ⟨name, held, rfl⟩ := List.mem_map.mp member
    obtain ⟨nonempty, rfl, isFile⟩ := (takes_join_iff (plain name held) somewhere).mp takes
    exact ⟨nonempty, held, rfl, isFile⟩
  · rintro ⟨nonempty, held, rfl, isFile⟩
    exact ⟨List.mem_map_of_mem held,
      (takes_join_iff (plain _ held) somewhere).mpr ⟨nonempty, rfl, isFile⟩⟩

theorem apart_of_plain : Apart tree (names.map fun name => dir.join ⟨name⟩) := by
  intro file member other memberOther locale takes takesOther
  obtain ⟨_, _, same, _⟩ := (listed_and_takes_iff listed plain).mp ⟨member, takes⟩
  obtain ⟨_, _, sameOther, _⟩ := (listed_and_takes_iff listed plain).mp ⟨memberOther, takesOther⟩
  exact same.trans sameOther.symm

/-- A directory can be loaded just if each of its locale files holds a text that can be parsed. -/
theorem exists_load_iff :
    (∃ store, load tree dir = .ok store) ↔
      ∀ locale content, locale ≠ "" → locale ++ ".json" ∈ names →
        tree.entry (localeFile dir locale) = .ok (.file content) →
          ∃ text value, content = .text text ∧ Value.parse text = .ok value := by
  rw [load_eq listed, exists_ofListing_iff]
  constructor
  · intro readable locale content nonempty held leads
    have isFile := FileTree.isFile_iff.mpr ⟨content, leads⟩
    obtain ⟨member, takes⟩ := (listed_and_takes_iff listed plain).mpr ⟨nonempty, held, rfl, isFile⟩
    obtain ⟨value, read⟩ := readable _ member locale takes
    obtain ⟨text, leads', parsed⟩ := readLocale_eq_ok_iff.mp read
    rw [leads] at leads'
    obtain rfl := Entry.file.inj (Except.ok.inj leads')
    exact ⟨text, value, rfl, parsed⟩
  · intro readable file member locale takes
    obtain ⟨nonempty, held, rfl, isFile⟩ := (listed_and_takes_iff listed plain).mp ⟨member, takes⟩
    obtain ⟨content, leads⟩ := FileTree.isFile_iff.mp isFile
    obtain ⟨text, value, rfl, parsed⟩ := readable locale content nonempty held leads
    exact ⟨value, readLocale_eq_ok_iff.mpr ⟨text, leads, parsed⟩⟩

/-- A listing of the same names is loaded as the directory. -/
theorem ofListing_eq_ok_iff {listing : List String} (order : listing.Perm names) :
    ofListing tree (listing.map fun name => dir.join ⟨name⟩) = .ok store ↔
      load tree dir = .ok store := by
  have apart := apart_of_plain listed plain
  have paths := order.map fun name => dir.join ⟨name⟩
  have apartListing : Apart tree (listing.map fun name => dir.join ⟨name⟩) :=
    fun file member other memberOther =>
      apart file (paths.subset member) other (paths.subset memberOther)
  rw [load_eq listed]
  exact ⟨ofListing_of_perm apartListing paths.symm, ofListing_of_perm apart paths⟩

variable (loaded : load tree dir = .ok store)
include loaded

/-- The translations of a locale are those in its file. -/
theorem get?_load :
    store.get? locale = some value ↔
      locale ≠ "" ∧ locale ++ ".json" ∈ names ∧
        ∃ text, tree.entry (localeFile dir locale) = .ok (.file (.text text)) ∧
          Value.parse text = .ok value := by
  rw [load_eq listed] at loaded
  rw [get?_ofListing (apart_of_plain listed plain) loaded]
  constructor
  · rintro ⟨file, member, takes, read⟩
    obtain ⟨nonempty, held, rfl, _⟩ := (listed_and_takes_iff listed plain).mp ⟨member, takes⟩
    exact ⟨nonempty, held, readLocale_eq_ok_iff.mp read⟩
  · rintro ⟨nonempty, held, text, leads, parsed⟩
    have isFile := FileTree.isFile_iff.mpr ⟨_, leads⟩
    obtain ⟨member, takes⟩ := (listed_and_takes_iff listed plain).mpr ⟨nonempty, held, rfl, isFile⟩
    exact ⟨_, member, takes, readLocale_eq_ok_iff.mpr ⟨text, leads, parsed⟩⟩

theorem mem_files_of_load :
    file ∈ store.files ↔ ∃ locale, locale ≠ "" ∧ locale ++ ".json" ∈ names ∧
      file = localeFile dir locale ∧ tree.isFile file = true := by
  rw [load_eq listed] at loaded
  rw [(files_perm loaded).mem_iff, mem_localePaths, ← exists_and_left]
  exact exists_congr fun locale => listed_and_takes_iff listed plain

theorem takes_of_mem_names (member : locale ∈ store.names) :
    Takes tree (localeFile dir locale) locale ∧ localeFile dir locale ∈ store.files := by
  rw [load_eq listed] at loaded
  obtain ⟨file, inside, takes⟩ := (mem_names_ofListing loaded locale).mp member
  obtain ⟨_, _, rfl, _⟩ := (listed_and_takes_iff listed plain).mp ⟨inside, takes⟩
  exact ⟨takes, (files_perm loaded).mem_iff.mpr (mem_localePaths.mpr ⟨inside, _, takes⟩)⟩

theorem nodup_files_of_load (distinct : names.Nodup) : store.files.Nodup := by
  have somewhere := text_ne_of_names listed
  have paths : (names.map fun name => dir.join ⟨name⟩).Nodup := by
    refine distinct.map_on ?_
    intro name member other memberOther same
    have named := fileName?_join_of_plain (plain name member) somewhere
    rw [same, fileName?_join_of_plain (plain other memberOther) somewhere] at named
    exact (Option.some.inj named).symm
  rw [load_eq listed] at loaded
  exact (files_perm loaded).nodup_iff.mpr (paths.filter _)

/-- No two files of a store are of one locale. -/
theorem eq_of_localeOf? {other : Path} (member : file ∈ store.files)
    (memberOther : other ∈ store.files) (same : localeOf? file = localeOf? other) :
    file = other := by
  obtain ⟨locale, nonempty, held, rfl, isFile⟩ := (mem_files_of_load listed plain loaded).mp member
  obtain ⟨locale', nonempty', held', rfl, isFile'⟩ :=
    (mem_files_of_load listed plain loaded).mp memberOther
  have takes := ((listed_and_takes_iff listed plain).mpr ⟨nonempty, held, rfl, isFile⟩).2
  have takes' := ((listed_and_takes_iff listed plain).mpr ⟨nonempty', held', rfl, isFile'⟩).2
  rw [takes.stem, takes'.stem, Option.some_inj] at same
  rw [same]

/-- The files of a store are those of its locales. -/
theorem map_names_perm_files (distinct : names.Nodup) :
    (store.names.map (localeFile dir)).Perm store.files := by
  have one : (store.names.map (localeFile dir)).Nodup := by
    refine store.increasing.nodup.map_on ?_
    intro locale member other memberOther same
    have stem := (takes_of_mem_names listed plain loaded member).1.stem
    rw [same, (takes_of_mem_names listed plain loaded memberOther).1.stem] at stem
    exact (Option.some.inj stem).symm
  refine (List.perm_ext_iff_of_nodup one
    (nodup_files_of_load listed plain loaded distinct)).mpr fun file => ?_
  constructor
  · intro member
    obtain ⟨locale, held, rfl⟩ := List.mem_map.mp member
    exact (takes_of_mem_names listed plain loaded held).2
  · intro member
    obtain ⟨locale, nonempty, held, rfl, isFile⟩ :=
      (mem_files_of_load listed plain loaded).mp member
    have inside := (listed_and_takes_iff listed plain).mpr ⟨nonempty, held, rfl, isFile⟩
    rw [load_eq listed] at loaded
    exact List.mem_map_of_mem ((mem_names_ofListing loaded locale).mpr ⟨_, inside⟩)

end

/-- Whatever the order in which a directory is listed, the same comes of loading it: it succeeds
just if each locale file holds a text that can be parsed, and then there is one locale for each of
these files, with what is parsed from its own file. -/
theorem directory_has_one_locale_per_file (tree : FileTree) (dir : Path)
    (names listing : List String) (listed : tree.names dir = .ok names)
    (plain : ∀ name ∈ names, Plain name.toList) (distinct : names.Nodup)
    (order : listing.Perm names) :
    (∀ store, ofListing tree (listing.map fun name => dir.join ⟨name⟩) = .ok store ↔
        load tree dir = .ok store) ∧
      ((∃ store, load tree dir = .ok store) ↔
        ∀ locale content, locale ≠ "" → locale ++ ".json" ∈ names →
          tree.entry (localeFile dir locale) = .ok (.file content) →
            ∃ text value, content = .text text ∧ Value.parse text = .ok value) ∧
      ∀ store, load tree dir = .ok store →
        (∀ file ∈ store.files, ∀ other ∈ store.files,
          localeOf? file = localeOf? other → file = other) ∧
        store.files.Nodup ∧ store.names.length = store.files.length ∧
        (∀ file, file ∈ store.files ↔ ∃ locale, locale ≠ "" ∧ locale ++ ".json" ∈ names ∧
          file = localeFile dir locale ∧ tree.isFile file = true) ∧
        ∀ locale value, store.get? locale = some value ↔
          locale ≠ "" ∧ locale ++ ".json" ∈ names ∧
            ∃ text, tree.entry (localeFile dir locale) = .ok (.file (.text text)) ∧
              Value.parse text = .ok value := by
  refine ⟨fun store => ofListing_eq_ok_iff listed plain order, exists_load_iff listed plain, ?_⟩
  intro store loaded
  refine ⟨?_, nodup_files_of_load listed plain loaded distinct, ?_,
    fun file => mem_files_of_load listed plain loaded,
    fun locale value => get?_load listed plain loaded⟩
  · intro file member other memberOther same
    exact eq_of_localeOf? listed plain loaded member memberOther same
  · rw [← (map_names_perm_files listed plain loaded distinct).length_eq, List.length_map]

/-- A directory with two locale files, of which one is a link, among other entries. -/
def mixedTree : FileTree :=
  ⟨.dir [("locales", .dir [(".json", .file (.text "")), ("de.json", .dir []),
    ("en.json", .file (.text "\x7b\x7d")), ("notes.txt", .file (.binary [0xFF])),
    ("pt.BR.json", .link "en.json")])], []⟩

theorem mixed_directory_is_loaded_backwards :
    let names := [".json", "de.json", "en.json", "notes.txt", "pt.BR.json"]
    mixedTree.names ⟨"locales"⟩ = .ok names ∧
      ∃ store, ofListing mixedTree (names.reverse.map fun name => (Path.mk "locales").join ⟨name⟩) =
          .ok store ∧
        load mixedTree ⟨"locales"⟩ = .ok store ∧
        store.get? "pt.BR" = some (.object []) ∧ store.get? "" = none ∧
        store.names.length = store.files.length := by
  intro names
  have listed : mixedTree.names ⟨"locales"⟩ = .ok names := by rfl
  have plain : ∀ name ∈ names, Plain name.toList := by decide
  have distinct : names.Nodup := by decide
  obtain ⟨same, success, holds⟩ := directory_has_one_locale_per_file mixedTree ⟨"locales"⟩ names
    names.reverse listed plain distinct names.reverse_perm
  have brazilian : mixedTree.readText (localeFile ⟨"locales"⟩ "pt.BR") = .ok "\x7b\x7d" := by
    decide +kernel
  have parsed : Value.parse "\x7b\x7d" = .ok (.object []) := by rfl
  have readable : (load mixedTree ⟨"locales"⟩).isOk = true := by decide +kernel
  obtain ⟨store, loaded⟩ : ∃ store, load mixedTree ⟨"locales"⟩ = .ok store := by
    cases loaded : load mixedTree ⟨"locales"⟩ with
    | error error => simp [loaded, Except.isOk, Except.toBool] at readable
    | ok store => exact ⟨store, rfl⟩
  obtain ⟨_, _, count, _, values⟩ := holds store loaded
  refine ⟨listed, store, (same store).mpr loaded, loaded, ?_, ?_, count⟩
  · exact (values "pt.BR" _).mpr
      ⟨by decide, by decide, _, FileTree.readText_eq_ok_iff.mp brazilian, parsed⟩
  · refine Option.eq_none_iff_forall_ne_some.mpr fun value found => ?_
    exact ((values "" value).mp found).1 rfl

end Phrasebook.LocaleStore
