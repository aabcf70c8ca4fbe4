import Mathlib.Data.List.Induction
import Phrasebook.LocaleFiles
import Phrasebook.Proofs.FileTree.Directory
import Phrasebook.Proofs.Locales.Loading

/-!
# Loading what was written

Files written into a directory are its locale files afterwards, together with those that were
there before.  So a directory without others is a directory of just the written locales, and the
report counts as one of them.
-/

namespace Phrasebook.LocaleFiles

open Json FileTree Phrasebook.Path

variable {tree made after : FileTree} {dir : Path} {location : List String}
variable {entries : List (String × Entry)} {files outputs untranslated : List (String × Value)}

/-- Files that were written without an error were written one after the other. -/
theorem exists_write_of_writeAll {file : Path × Value} {rest : List (Path × Value)}
    (written : writeAll tree (file :: rest) = (after, .ok ())) :
    ∃ middle, tree.write file.1 (.text (fileText file.2)) = .ok middle ∧
      writeAll middle rest = (after, .ok ()) := by
  rw [writeAll] at written
  split at written
  · rename_i middle wrote
    exact ⟨middle, wrote, written⟩
  · cases written

/-- The entries of a directory once the files of some locales are written into it. -/
def filed (entries : List (String × Entry)) (files : List (String × Value)) :
    List (String × Entry) :=
  files.foldl
    (fun entries file =>
      Table.insert entries (file.1 ++ ".json") (.file (.text (fileText file.2))))
    entries

/-- An entry is a written file or it was there before. -/
theorem get?_filed {name : String} {entry : Entry}
    (held : Table.get? (filed entries files) name = some entry) :
    (∃ file ∈ files, name = file.1 ++ ".json" ∧ entry = .file (.text (fileText file.2))) ∨
      Table.get? entries name = some entry := by
  induction files generalizing entries with
  | nil => exact .inr held
  | cons first rest ih =>
      rcases ih held with ⟨file, member, equal⟩ | before
      · exact .inl ⟨file, List.mem_cons_of_mem _ member, equal⟩
      · rw [Table.get?_insert] at before
        split at before
        · rename_i same
          exact .inl ⟨first, List.mem_cons_self, same.symm, (Option.some.inj before).symm⟩
        · exact .inr before

/-- A written file holds what was written last under its name. -/
theorem get?_filed_of_mem (entries : List (String × Entry)) {locale : String}
    (member : locale ∈ files.map Prod.fst) :
    ∃ file ∈ files, file.1 = locale ∧ Table.get? (filed entries files) (locale ++ ".json") =
      some (.file (.text (fileText file.2))) := by
  induction files using List.reverseRecOn with
  | nil => cases member
  | append_singleton earlier last ih =>
      rw [filed, List.foldl_append, List.foldl_cons, List.foldl_nil, Table.get?_insert]
      by_cases same : last.1 ++ ".json" = locale ++ ".json"
      · refine ⟨last, by simp, ?_, if_pos same⟩
        simpa [← String.toList_inj] using same
      · have before : locale ∈ earlier.map Prod.fst := by
          rw [List.map_append, List.mem_append] at member
          refine member.resolve_right ?_
          intro equal
          obtain rfl : locale = last.1 := by simpa using equal
          exact same rfl
        obtain ⟨file, held, equal, found⟩ := ih before
        refine ⟨file, List.mem_append_left _ held, equal, ?_⟩
        rw [if_neg same]
        exact found

/-- A name of a directory under which a file can be put: it is free, or a file, or leads to a
directory, which refuses to be written. -/
def Writable (tree : FileTree) (dir : Path) (entries : List (String × Entry)) (name : String) :
    Prop :=
  ∀ old, Table.get? entries name = some old →
    (∃ content, old = .file content) ∨ tree.isDir (dir.join ⟨name⟩) = true

/-- Writing files of locales into an open directory, without an error, puts them there. -/
theorem filed_of_writeAll (named : ∀ file ∈ files, Names file.1)
    (opens : Opens tree dir location entries)
    (writable : ∀ file ∈ files, Writable tree dir entries (file.1 ++ ".json"))
    (written : writeAll tree (files.map fun file => (localeFile dir file.1, file.2)) =
      (after, .ok ())) :
    Grown tree after ∧ Opens after dir location (filed entries files) ∧
      ∀ file ∈ files, Sound (localeFile dir file.1) ∧
        (file.1 ++ ".json").utf8ByteSize ≤ 255 := by
  induction files generalizing tree entries with
  | nil =>
      obtain rfl : tree = after := congrArg Prod.fst written
      exact ⟨Grown.refl tree, opens, by simp⟩
  | cons file rest ih =>
      obtain ⟨middle, wrote, written⟩ := exists_write_of_writeAll written
      have notDir := not_isDir_of_write wrote
      have puts := puts_of_write (named file List.mem_cons_self).plain opens
        (by
          intro old held
          refine (writable file List.mem_cons_self old held).resolve_right ?_
          rw [show tree.isDir (dir.join ⟨file.1 ++ ".json"⟩) = false from notDir]
          simp) wrote
      have later : ∀ other ∈ rest, Writable middle dir
          (Table.insert entries (file.1 ++ ".json") (.file (.text (fileText file.2))))
          (other.1 ++ ".json") := by
        intro other member old held
        rw [Table.get?_insert] at held
        split at held
        · exact .inl ⟨_, (Option.some.inj held).symm⟩
        · exact (writable other (List.mem_cons_of_mem _ member) old held).imp_right
            (isDir_of_grown puts.grown)
      obtain ⟨grown, opened, sound⟩ := ih
        (fun other member => named other (List.mem_cons_of_mem _ member)) puts.opens later written
      refine ⟨puts.grown.trans grown, opened, ?_⟩
      intro other member
      rcases List.mem_cons.mp member with rfl | member
      · exact ⟨puts.sound, puts.short⟩
      · exact sound other member

/-- The entries of a directory with the extension of a locale file. -/
def localeEntries (tree : FileTree) (dir : Path) : List (String × Entry) :=
  match tree.entry dir with
  | .ok (.dir entries) =>
      entries.filter fun entry => (dir.join ⟨entry.1⟩).extension? = some "json"
  | _ => []

/-- A directory holds no locale files but plain ones of some locales: what else has the name of
a locale file leads to a directory. -/
def HoldsOnly (tree : FileTree) (dir : Path) (locales : List String) : Prop :=
  ∀ entry ∈ localeEntries tree dir, tree.isDir (dir.join ⟨entry.1⟩) = true ∨
    entry.2.isFile = true ∧ ∃ locale ∈ locales, entry.1 = locale ++ ".json"

instance (tree : FileTree) (dir : Path) (locales : List String) :
    Decidable (HoldsOnly tree dir locales) :=
  inferInstanceAs (Decidable (∀ entry ∈ localeEntries tree dir, _ ∨ _))

variable {locales : List String}

theorem HoldsOnly.cases (only : HoldsOnly tree dir locales)
    (opens : Opens tree dir location entries) {name : String} {entry : Entry}
    (held : Table.get? entries name = some entry)
    (extension : (dir.join ⟨name⟩).extension? = some "json") :
    tree.isDir (dir.join ⟨name⟩) = true ∨
      (∃ content, entry = .file content) ∧ ∃ locale ∈ locales, name = locale ++ ".json" := by
  have member : (name, entry) ∈ localeEntries tree dir := by
    rw [localeEntries, opens.entry]
    exact List.mem_filter.mpr ⟨Table.mem_of_get? held, by simpa using extension⟩
  refine (only _ member).imp_right ?_
  rintro ⟨isFile, known⟩
  cases entry with
  | file content => exact ⟨⟨content, rfl⟩, known⟩
  | link target => cases isFile
  | dir entries => cases isFile

theorem HoldsOnly.writable (only : HoldsOnly tree dir locales)
    (opens : Opens tree dir location entries) {locale : String} (named : Names locale) :
    Writable tree dir entries (locale ++ ".json") := by
  intro old held
  rcases only.cases opens held (extension?_join named opens.sound.somewhere) with isDir | plain
  · exact .inr isDir
  · exact .inl plain.1

theorem isFile_of_entry {path : Path} {content : Content}
    (leads : tree.entry path = .ok (.file content)) : tree.isFile path = true := by
  rw [FileTree.isFile, leads]
  rfl

theorem not_isFile_of_isDir {path : Path} (isDir : tree.isDir path = true) :
    tree.isFile path = false := by
  unfold FileTree.isDir at isDir
  unfold FileTree.isFile
  split at isDir
  · rename_i entry leads
    cases entry with
    | dir entries => rfl
    | _ => cases isDir
  · cases isDir

/-- Only a written file is taken in, since anything else with such a name is a directory. -/
theorem HoldsOnly.exists_file_of_takes (only : HoldsOnly tree dir locales)
    (within : ∀ locale ∈ locales, locale ∈ files.map Prod.fst)
    (before : Opens tree dir location entries) (grown : Grown tree after) {name locale : String}
    (member : name ∈ Table.names (filed entries files))
    (takes : LocaleStore.Takes after (dir.join ⟨name⟩) locale) :
    ∃ file ∈ files, name = file.1 ++ ".json" := by
  obtain ⟨entry, held⟩ := Option.isSome_iff_exists.mp (Table.get?_isSome_iff.mpr member)
  rcases get?_filed held with ⟨file, inside, equal, _⟩ | old
  · exact ⟨file, inside, equal⟩
  · rcases only.cases before old takes.extension with isDir | ⟨_, known, owned, rfl⟩
    · have isFile := takes.isFile
      rw [not_isFile_of_isDir (isDir_of_grown grown isDir)] at isFile
      cases isFile
    · obtain ⟨file, inside, rfl⟩ := List.mem_map.mp (within known owned)
      exact ⟨file, inside, rfl⟩

/-- What is read under the name of a written file is the text that was written last. -/
theorem exists_entry_of_filed (named : ∀ file ∈ files, Names file.1)
    (opens : Opens after dir location (filed entries files))
    (sound : ∀ file ∈ files, Sound (localeFile dir file.1) ∧
      (file.1 ++ ".json").utf8ByteSize ≤ 255)
    {file : String × Value} (member : file ∈ files) :
    ∃ other ∈ files, other.1 = file.1 ∧
      after.entry (localeFile dir file.1) = .ok (.file (.text (fileText other.2))) := by
  obtain ⟨other, inside, same, held⟩ :=
    get?_filed_of_mem entries (List.mem_map_of_mem member)
  refine ⟨other, inside, same, ?_⟩
  exact entry_of_file (named file member).plain opens (sound file member).1
    (sound file member).2 held

/-- A directory with some locale files, that held no others before, is taken to hold the locales
of these files. -/
theorem exists_load_of_filed (named : ∀ file ∈ files, Names file.1)
    (only : HoldsOnly tree dir locales) (within : ∀ locale ∈ locales, locale ∈ files.map Prod.fst)
    (before : Opens tree dir location entries)
    (grown : Grown tree after) (opens : Opens after dir location (filed entries files))
    (sound : ∀ file ∈ files, Sound (localeFile dir file.1) ∧
      (file.1 ++ ".json").utf8ByteSize ≤ 255)
    (readable : ∀ file ∈ files, ∃ value, Value.parse (fileText file.2) = .ok value) :
    ∃ store, LocaleStore.load after dir = .ok store ∧
      ∀ locale, locale ∈ store.names ↔ locale ∈ files.map Prod.fst := by
  have somewhere := opens.sound.somewhere
  obtain ⟨store, loaded, names⟩ := LocaleStore.exists_load opens.pathExists opens.isDir
    opens.names
    (by
      intro name member locale takes
      obtain ⟨file, inside, rfl⟩ := only.exists_file_of_takes within before grown member takes
      obtain ⟨other, held, _, leads⟩ := exists_entry_of_filed named opens sound inside
      obtain ⟨value, parsed⟩ := readable other held
      refine ⟨value, ?_⟩
      rw [LocaleStore.readLocale, readText, show after.entry (dir.join _) = _ from leads]
      simp only [Except.mapError, parsed, bind, Except.bind])
  refine ⟨store, loaded, ?_⟩
  intro locale
  rw [names]
  constructor
  · rintro ⟨name, member, takes⟩
    obtain ⟨file, inside, rfl⟩ := only.exists_file_of_takes within before grown member takes
    have stem := fileStem?_join (named file inside) somewhere
    obtain rfl := Option.some.inj (stem.symm.trans takes.stem)
    exact List.mem_map_of_mem inside
  · intro member
    obtain ⟨file, inside, rfl⟩ := List.mem_map.mp member
    obtain ⟨other, _, _, held⟩ := get?_filed_of_mem entries member
    obtain ⟨_, _, _, leads⟩ := exists_entry_of_filed named opens sound inside
    refine ⟨file.1 ++ ".json", Table.get?_isSome_iff.mp (by simp [held]), ?_, ?_, ?_⟩
    · exact isFile_of_entry leads
    · exact extension?_join (named file inside) somewhere
    · exact fileStem?_join (named file inside) somewhere

/-! ## The files of one writing -/

/-- The name of the locale that the report looks like. -/
def reportLocale : String := "_untranslated"

theorem names_reportLocale : Names reportLocale :=
  ⟨by decide, by decide⟩

/-- What one writing puts into files, each with the locale that its file looks like. -/
def fileValues (outputs untranslated : List (String × Value)) : List (String × Value) :=
  outputs ++ if untranslated = [] then [] else [(reportLocale, .object untranslated)]

theorem mem_fst_fileValues {locale : String} :
    locale ∈ (fileValues outputs untranslated).map Prod.fst ↔
      locale ∈ outputs.map Prod.fst ∨ untranslated ≠ [] ∧ locale = reportLocale := by
  unfold fileValues
  by_cases nothing : untranslated = []
  · simp [nothing]
  · simp [nothing]

theorem named_fileValues (named : ∀ entry ∈ outputs, Names entry.1) :
    ∀ file ∈ fileValues outputs untranslated, Names file.1 := by
  intro file member
  rcases List.mem_append.mp member with member | member
  · exact named file member
  · split at member
    · cases member
    · obtain rfl := List.mem_singleton.mp member
      exact names_reportLocale

/-- A writing without an error has created the directory and written all files. -/
theorem writeAll_of_write {listed : WrittenFiles}
    (wrote : (write tree dir outputs untranslated).2 = .ok listed) :
    writeAll (tree.createDirs dir).1
        ((fileValues outputs untranslated).map fun file => (localeFile dir file.1, file.2)) =
      ((write tree dir outputs untranslated).1, .ok ()) := by
  have list : (fileValues outputs untranslated).map (fun file => (localeFile dir file.1, file.2)) =
      (outputs.map fun entry => (localeFile dir entry.1, entry.2)) ++
        if untranslated = [] then [] else [(reportFile dir, .object untranslated)] := by
    rw [fileValues, List.map_append]
    congr 1
    split
    · rfl
    · rfl
  rw [list]
  unfold write at wrote ⊢
  cases created : tree.createDirs dir with
  | mk made failed =>
      cases failed with
      | some error => simp [created] at wrote
      | none =>
          simp only [created] at wrote ⊢
          split at wrote
          · cases wrote
          · rename_i later all
            rw [all]

/-- A directory that held no locale files but plain ones of the locales to be written is, after
the writing, a directory of just these locales and, if there is one, the report. -/
theorem exists_load_of_write {listed : WrittenFiles} (somewhere : dir.text ≠ "")
    (only : HoldsOnly (tree.createDirs dir).1 dir (outputs.map Prod.fst))
    (named : ∀ entry ∈ outputs, Names entry.1) (nonempty : outputs ≠ [])
    (wrote : (write tree dir outputs untranslated).2 = .ok listed)
    (readable : ∀ file ∈ fileValues outputs untranslated,
      ∃ value, Value.parse (fileText file.2) = .ok value) :
    ∃ store, LocaleStore.load (write tree dir outputs untranslated).1 dir = .ok store ∧
      ∀ locale, locale ∈ store.names ↔
        locale ∈ outputs.map Prod.fst ∨ untranslated ≠ [] ∧ locale = reportLocale := by
  have written := writeAll_of_write wrote
  have named : ∀ file ∈ fileValues outputs untranslated, Names file.1 := named_fileValues named
  have opened : ∃ location entries, Opens (tree.createDirs dir).1 dir location entries := by
    obtain ⟨first, rest, split⟩ := List.exists_cons_of_ne_nil nonempty
    rw [fileValues, split, List.cons_append, List.map_cons] at written
    obtain ⟨middle, wroteFirst, _⟩ := exists_write_of_writeAll written
    obtain ⟨spot, leads⟩ := exists_resolve_of_write wroteFirst
    have plain := (named first (by simp [fileValues, split])).plain
    exact (opens_of_resolve plain somewhere leads).2.2
  obtain ⟨location, entries, opens⟩ := opened
  obtain ⟨grown, filed, sound⟩ := filed_of_writeAll named opens
    (fun file member => only.writable opens (named file member)) written
  obtain ⟨store, loaded, names⟩ := exists_load_of_filed named only
    (fun locale known => mem_fst_fileValues.mpr (.inl known)) opens grown filed sound readable
  exact ⟨store, loaded, fun locale => (names locale).trans mem_fst_fileValues⟩

end Phrasebook.LocaleFiles
